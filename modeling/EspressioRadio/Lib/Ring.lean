/-
A ring of the last few values, written through a free-running cursor.

The ring has `n` cells and a cursor counting pushes modulo `w`, the
range of the machine word it is kept in. A push writes the cell
`cursor % n`. As long as the word's range is a multiple of `n`, or the
cursor has not wrapped yet, the cell written is `pushes % n` and the
ring holds exactly the last `n` values pushed: that is `Tracks`. Past a
wrap with `n ∤ w` the cells and the push count part, and nothing below
applies.

`Spaced` is what a ring buys a filter that pushes only values it does
not hold: equal values are more than `n` pushes apart.
-/
import Mathlib.Algebra.GroupWithZero.Nat
import Mathlib.Data.Fin.Basic
import Mathlib.Data.List.Nodup
import Mathlib.Logic.Function.Basic

namespace Ring

/-- A ring of `n` cells, and the cursor at the cell written next. -/
structure Cells (n : Nat) (α : Type _) where
  cell : Fin n → Option α
  cursor : Nat

variable {n : Nat} [NeZero n] {α : Type _}

namespace Cells

/-- The value is in some cell of the ring. -/
def Has (r : Cells n α) (x : α) : Prop := ∃ i, r.cell i = some x

/-- Write the cell under the cursor and advance it modulo `w`. -/
def push (w : Nat) (r : Cells n α) (x : α) : Cells n α where
  cell := Function.update r.cell (Fin.ofNat n r.cursor) (some x)
  cursor := (r.cursor + 1) % w

/-- After a push the ring has the new value and what it had outside the cell
written. -/
theorem has_push {w : Nat} {r : Cells n α} {x y : α} (h : (r.push w x).Has y) :
    y = x ∨ ∃ i, i ≠ Fin.ofNat n r.cursor ∧ r.cell i = some y := by
  obtain ⟨i, hi⟩ := h
  have hi' : Function.update r.cell (Fin.ofNat n r.cursor) (some x) i = some y := hi
  by_cases hcur : i = Fin.ofNat n r.cursor
  · subst hcur
    rw [Function.update_self] at hi'
    exact Or.inl (Option.some.inj hi').symm
  · rw [Function.update_of_ne hcur] at hi'
    exact Or.inr ⟨i, hcur, hi'⟩

/-- The ring after the pushes `h` (oldest first): the cursor counts
them, and the cells hold the last `n` of them and nothing else. -/
structure Tracks (w : Nat) (r : Cells n α) (h : List α) : Prop where
  cursor_eq : r.cursor = h.length % w
  cell_eq : ∀ j, j < h.length → h.length ≤ j + n →
    r.cell (Fin.ofNat n j) = h[j]?
  cell_mem : ∀ i x, r.cell i = some x →
    ∃ j, h.length ≤ j + n ∧ i = Fin.ofNat n j ∧ h[j]? = some x

/-- The empty ring with its cursor at the first cell has seen nothing. -/
theorem tracks_nil {w : Nat} {r : Cells n α} (hcur : r.cursor = 0)
    (hcell : ∀ i, r.cell i = none) : Tracks w r [] where
  cursor_eq := by simp [hcur]
  cell_eq := fun j hj => absurd hj (by simp)
  cell_mem := fun i x hx => by rw [hcell i] at hx; cases hx

/-- The cursor is at the cell of the push count, as long as it wraps at a
multiple of `n` or has not wrapped. -/
theorem Tracks.cursor_mod {w : Nat} {r : Cells n α} {h : List α}
    (ht : Tracks w r h) (hw : n ∣ w ∨ h.length < w) :
    r.cursor % n = h.length % n := by
  rw [ht.cursor_eq]
  rcases hw with hdvd | hlt
  · exact Nat.mod_mod_of_dvd _ hdvd
  · rw [Nat.mod_eq_of_lt hlt]

/-- Push counts equal modulo `n` are written to one cell. -/
theorem ofNat_congr {i j : Nat} (h : i % n = j % n) :
    Fin.ofNat n i = Fin.ofNat n j := Fin.ext h

/-- Two push counts less than `n` apart are written to different cells. -/
theorem ofNat_ne {i j : Nat} (hij : i < j) (hjn : j < i + n) :
    (Fin.ofNat n i) ≠ Fin.ofNat n j := by
  intro heq
  have hmod : i % n = j % n := congrArg Fin.val heq
  have hdiff : (j - i) % n = 0 := Nat.sub_mod_eq_zero_of_mod_eq hmod.symm
  rw [Nat.mod_eq_of_lt (by omega)] at hdiff
  omega

/-- A push adds the value to the history, and the ring holds the last `n` of
that. -/
theorem Tracks.push {w : Nat} {r : Cells n α} {h : List α}
    (ht : Tracks w r h) (hw : n ∣ w ∨ h.length < w) (x : α) :
    Tracks w (r.push w x) (h ++ [x]) := by
  have hcell : Fin.ofNat n r.cursor = Fin.ofNat n h.length :=
    ofNat_congr (ht.cursor_mod hw)
  refine ⟨?_, ?_, ?_⟩
  · show (r.cursor + 1) % w = (h ++ [x]).length % w
    rw [ht.cursor_eq, List.length_append, List.length_singleton,
      Nat.mod_add_mod]
  · intro j hj hwin
    rw [List.length_append, List.length_singleton] at hj hwin
    show Function.update r.cell (Fin.ofNat n r.cursor) (some x) _ = _
    rw [hcell]
    by_cases hlast : j = h.length
    · subst hlast
      simp
    · have hne := ofNat_ne (n := n) (show j < h.length by omega) (by omega)
      rw [Function.update_of_ne hne, List.getElem?_append_left (by omega)]
      exact ht.cell_eq j (by omega) (by omega)
  · intro i y hy
    have hy' : Function.update r.cell (Fin.ofNat n r.cursor) (some x) i
        = some y := hy
    rw [hcell] at hy'
    by_cases hi : i = Fin.ofNat n h.length
    · subst hi
      rw [Function.update_self] at hy'
      refine ⟨h.length, ?_, rfl, by simpa using hy'⟩
      have := Nat.pos_of_neZero n
      simp only [List.length_append, List.length_singleton]
      omega
    · rw [Function.update_of_ne hi] at hy'
      obtain ⟨j, hj, hij, hjy⟩ := ht.cell_mem i y hy'
      have hjl : j < h.length := (List.getElem?_eq_some_iff.mp hjy).1
      refine ⟨j, ?_, hij, by rw [List.getElem?_append_left hjl]; exact hjy⟩
      rw [List.length_append, List.length_singleton]
      -- were `j` the oldest entry, its cell would be the one written
      by_contra hold
      have hjn : h.length = j + n := by omega
      refine hi (hij.trans (ofNat_congr ?_))
      rw [hjn, Nat.add_mod_right]

/-- The ring holds a value exactly when it is among the last `n`
pushed. -/
theorem Tracks.has_iff {w : Nat} {r : Cells n α} {h : List α}
    (ht : Tracks w r h) (x : α) :
    r.Has x ↔ ∃ j, h.length ≤ j + n ∧ h[j]? = some x := by
  constructor
  · rintro ⟨i, hi⟩
    obtain ⟨j, hj, -, hx⟩ := ht.cell_mem i x hi
    exact ⟨j, hj, hx⟩
  · rintro ⟨j, hj, hx⟩
    have hjl : j < h.length := (List.getElem?_eq_some_iff.mp hx).1
    exact ⟨_, (ht.cell_eq j hjl hj).trans hx⟩

/-- The last `n` values of a history, the latest first. -/
def last (n : Nat) (h : List α) : List α := h.reverse.take n

@[simp] theorem last_nil (n : Nat) : last n ([] : List α) = [] := List.take_nil

theorem last_concat (h : List α) (x : α) : last n (h ++ [x]) = (x :: last n h).take n := by
  obtain ⟨m, hm⟩ := Nat.exists_eq_succ_of_ne_zero (NeZero.ne n)
  simp only [last, List.reverse_append, List.reverse_singleton, List.singleton_append]
  rw [hm, List.take_succ_cons, List.take_succ_cons, List.take_take]
  congr 2
  omega

/-- The values the ring holds are the last `n` pushed. -/
theorem Tracks.has_iff_mem_last {w : Nat} {r : Cells n α} {h : List α}
    (ht : Tracks w r h) (x : α) : r.Has x ↔ x ∈ last n h := by
  rw [ht.has_iff, last, List.take_reverse, List.mem_reverse, List.mem_iff_getElem?]
  simp only [List.getElem?_drop]
  constructor
  · intro ⟨j, hj, hx⟩
    refine ⟨j - (h.length - n), ?_⟩
    rw [← hx]
    congr 1
    omega
  · intro ⟨i, hi⟩
    exact ⟨h.length - n + i, by omega, hi⟩

end Cells

-- ==================================================== spaced histories

/-- Equal values of the history are more than `n` places apart. -/
def Spaced (n : Nat) (h : List α) : Prop :=
  ∀ i j, i < j → j ≤ i + n → j < h.length → h[i]? ≠ h[j]?

theorem spaced_nil (n : Nat) : Spaced n ([] : List α) :=
  fun _ _ _ _ hj => absurd hj (by simp)

/-- Pushing a value the ring does not hold keeps the history spaced. -/
theorem Spaced.push {w : Nat} {r : Cells n α} {h : List α}
    (hs : Spaced n h) (ht : r.Tracks w h) {x : α} (hx : ¬ r.Has x) :
    Spaced n (h ++ [x]) := by
  intro i j hij hjn hj
  rw [List.length_append, List.length_singleton] at hj
  rw [List.getElem?_append_left (show i < h.length by omega)]
  by_cases hlast : j = h.length
  · subst hlast
    intro heq
    rw [List.getElem?_concat_length] at heq
    exact hx ((ht.has_iff x).mpr ⟨i, hjn, heq⟩)
  · rw [List.getElem?_append_left (show j < h.length by omega)]
    exact hs i j hij hjn (by omega)

omit [NeZero n] in
/-- In a spaced history any `n + 1` consecutive values are distinct. -/
theorem Spaced.nodup_window {h : List α} (hs : Spaced n h) (k : Nat) :
    ((h.drop k).take (n + 1)).Nodup := by
  rw [List.nodup_iff_getElem?_ne_getElem?]
  intro i j hij hj
  have hlen : j < n + 1 ∧ k + j < h.length := by
    simp only [List.length_take, List.length_drop] at hj
    omega
  rw [List.getElem?_take_of_lt (by omega), List.getElem?_take_of_lt hlen.1,
    List.getElem?_drop, List.getElem?_drop]
  exact hs (k + i) (k + j) (by omega) (by omega) hlen.2

end Ring
