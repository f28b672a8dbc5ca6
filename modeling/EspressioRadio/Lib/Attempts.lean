/-
Handing a list over item by item, and stopping at the first refusal.

`tried` is what was offered: a prefix of the list, of which only the
last item can have been refused. Nothing was refused exactly when
everything was offered and would be taken (`tried_all_iff`).
-/
import Mathlib.Data.List.Basic

namespace Attempts

variable {α : Type _} {ok : α → Bool}

/-- The items offered, up to the first that is refused, that one
included. -/
def tried (ok : α → Bool) : List α → List α
  | [] => []
  | x :: xs => if ok x then x :: tried ok xs else [x]

/-- What is offered is a first part of the list. -/
theorem tried_isPrefixOf (l : List α) : tried ok l <+: l := by
  induction l with
  | nil => exact List.prefix_rfl
  | cons x xs ih =>
      unfold tried
      split
      · exact List.cons_prefix_cons.mpr ⟨rfl, ih⟩
      · exact List.cons_prefix_cons.mpr ⟨rfl, List.nil_prefix⟩

/-- Of a nonempty list at least one item is offered. -/
theorem tried_ne_nil {l : List α} (hl : l ≠ []) : tried ok l ≠ [] := by
  cases l with
  | nil => exact absurd rfl hl
  | cons x xs =>
      unfold tried
      split
      · exact List.cons_ne_nil _ _
      · exact List.cons_ne_nil _ _

/-- If each item would be taken, all of them are offered. -/
theorem tried_of_all {l : List α} (hall : ∀ x ∈ l, ok x = true) : tried ok l = l := by
  induction l with
  | nil => rfl
  | cons x xs ih =>
      obtain ⟨hx, hxs⟩ := List.forall_mem_cons.mp hall
      rw [tried, if_pos hx, ih hxs]

/-- No item offered is refused exactly when none would be. -/
theorem tried_all_iff {l : List α} :
    (∀ x ∈ tried ok l, ok x = true) ↔ ∀ x ∈ l, ok x = true := by
  constructor
  · intro htried
    induction l with
    | nil => exact htried
    | cons x xs ih =>
        unfold tried at htried
        split at htried
        · next hx =>
          obtain ⟨-, hxs⟩ := List.forall_mem_cons.mp htried
          exact List.forall_mem_cons.mpr ⟨hx, ih hxs⟩
        · next hx => exact absurd (htried x List.mem_cons_self) hx
  · intro hall x hx
    exact hall x ((tried_isPrefixOf l).subset hx)

/-- An item with another offered after it was taken, or the offering would
have stopped there. -/
theorem ok_of_succ_lt {l : List α} {i : Nat} (hi : i + 1 < (tried ok l).length) :
    ok (tried ok l)[i] = true := by
  induction l generalizing i with
  | nil => cases hi
  | cons x xs ih =>
      by_cases hx : ok x = true
      · have heq : tried ok (x :: xs) = x :: tried ok xs := by rw [tried, if_pos hx]
        simp only [heq] at hi ⊢
        cases i with
        | zero => exact hx
        | succ i => exact ih (by simpa using hi)
      · have heq : tried ok (x :: xs) = [x] := by rw [tried, if_neg hx]
        rw [heq] at hi
        simp at hi

/-- The `i`-th item offered is the `i`-th of the list, since items are
offered in the list's order. -/
theorem getElem_tried {l : List α} {i : Nat} (hi : i < (tried ok l).length)
    (hl : i < l.length) : (tried ok l)[i] = l[i] :=
  (tried_isPrefixOf l).getElem hi

end Attempts
