/-
Least recently used: the cell a full table gives up.

Every cell carries a stamp, and the table gives up the first cell with
the least (`least`). If every cell stamped after `T` has a name of its
own, and there are fewer names than cells, the cell given up is stamped
no later than `T` (`least_le_of_few`): what has been touched since `T`
is safe for as long as it is few enough.

The order of use itself is a log: `age` is how many uses ago a cell was
last used. As long as the clock only runs forward, the stamps agree with
the log (`Agrees`), and the cell given up is the one of greatest age
(`Agrees.least_oldest`).
-/
import Mathlib.Algebra.GroupWithZero.Nat
import Mathlib.Data.List.FinRange
import Mathlib.Data.List.Nodup
import Mathlib.Data.List.Perm.Subperm

namespace Lru

variable {n : Nat} {κ : Type _} [LE κ] [LT κ] [DecidableLT κ]
  [Std.IsLinearOrder κ] [Std.LawfulOrderLT κ]

/-- The first cell with the least stamp, found by one scan from the first
cell on. -/
def least [NeZero n] (stamp : Fin n → κ) : Fin n :=
  (List.finRange n).foldl (fun candidate i =>
    if stamp i < stamp candidate then i else candidate) 0

/-- The scan's candidate never gets worse, and when it is over no cell
scanned is stamped less than the candidate. -/
private theorem scan_le (stamp : Fin n → κ) (cells : List (Fin n))
    (candidate : Fin n) :
    stamp (cells.foldl (fun candidate i =>
        if stamp i < stamp candidate then i else candidate) candidate)
      ≤ stamp candidate
    ∧ ∀ i ∈ cells, stamp (cells.foldl (fun candidate i =>
        if stamp i < stamp candidate then i else candidate) candidate)
      ≤ stamp i := by
  induction cells generalizing candidate with
  | nil => exact ⟨Std.le_refl _, fun i hi => absurd hi List.not_mem_nil⟩
  | cons j cells ih =>
      rw [List.foldl_cons]
      split
      · next hlt =>
        obtain ⟨hstart, hrest⟩ := ih j
        refine ⟨Std.le_trans hstart (Std.le_of_lt hlt), fun i hi => ?_⟩
        rcases List.mem_cons.mp hi with rfl | hi
        · exact hstart
        · exact hrest i hi
      · next hge =>
        obtain ⟨hstart, hrest⟩ := ih candidate
        refine ⟨hstart, fun i hi => ?_⟩
        rcases List.mem_cons.mp hi with rfl | hi
        · exact Std.le_trans hstart (Std.not_lt.mp hge)
        · exact hrest i hi

theorem least_le [NeZero n] (stamp : Fin n → κ) (i : Fin n) :
    stamp (least stamp) ≤ stamp i :=
  (scan_le stamp (List.finRange n) 0).2 i (List.mem_finRange i)

/-- With fewer names than cells, and no two named cells of one name, some
cell has no name. -/
theorem exists_unnamed {α : Type _} {named : Fin n → Prop} {name : Fin n → α}
    {names : List α} (hfew : names.length < n)
    (hinj : ∀ i j, named i → named j → name i = name j → i = j)
    (hmem : ∀ i, named i → name i ∈ names) : ∃ i, ¬ named i := by
  by_contra hall
  have hnamed : ∀ i, named i := fun i => by
    by_contra hi
    exact hall ⟨i, hi⟩
  have hnodup : ((List.finRange n).map name).Nodup :=
    (List.nodup_finRange n).map fun i j => hinj i j (hnamed i) (hnamed j)
  have hsub : (List.finRange n).map name ⊆ names := by
    intro x hx
    obtain ⟨i, -, rfl⟩ := List.mem_map.mp hx
    exact hmem i (hnamed i)
  have hle := (List.subperm_of_subset hnodup hsub).length_le
  rw [List.length_map, List.length_finRange] at hle
  omega

/-- If the cells stamped after `T` have different names and there are fewer
names than cells, the cell given up was not stamped after `T`. -/
theorem least_le_of_few [NeZero n] {α : Type _} (stamp : Fin n → κ)
    (name : Fin n → α) {T : κ} {names : List α} (hfew : names.length < n)
    (hinj : ∀ i j, T < stamp i → T < stamp j → name i = name j → i = j)
    (hmem : ∀ i, T < stamp i → name i ∈ names) : stamp (least stamp) ≤ T := by
  obtain ⟨i, hi⟩ := exists_unnamed hfew hinj hmem
  exact Std.le_trans (least_le stamp i) (Std.not_lt.mp hi)

-- ========================================================== order of use

/-- How many uses ago the cell was last used: zero for the cell used last,
the log's length for one that never was. -/
def age (log : List (Fin n)) (i : Fin n) : Nat := log.reverse.idxOf i

@[simp] theorem age_concat_self (log : List (Fin n)) (i : Fin n) :
    age (log ++ [i]) i = 0 := by
  simp [age]

theorem age_concat_ne {log : List (Fin n)} {i j : Fin n} (h : i ≠ j) :
    age (log ++ [j]) i = age log i + 1 := by
  simp [age, List.idxOf_cons_ne _ h.symm]

/-- Two cells of one age are the same cell, if either has been used at all. -/
theorem age_inj {log : List (Fin n)} {i j : Fin n} (hi : i ∈ log)
    (h : age log i = age log j) : i = j :=
  (List.idxOf_inj (List.mem_reverse.mpr hi)).mp h

/-- The stamps of the cells alive are in the order of their last uses, and
none of them is ahead of the clock. -/
structure Agrees (live : Fin n → Prop) (stamp : Fin n → κ) (clock : κ)
    (log : List (Fin n)) : Prop where
  used : ∀ i, live i → i ∈ log
  le_clock : ∀ i, live i → stamp i ≤ clock
  lt_iff : ∀ i j, live i → live j → (stamp i < stamp j ↔ age log j < age log i)

variable {live live' : Fin n → Prop} {stamp stamp' : Fin n → κ} {clock clock' : κ}
  {log : List (Fin n)}

/-- With every cell alive, the cell given up is the one used longest ago: it
is older than any other. -/
theorem Agrees.least_oldest [NeZero n] (ha : Agrees live stamp clock log)
    (hall : ∀ i, live i) {i : Fin n} (hne : i ≠ least stamp) :
    age log i < age log (least stamp) := by
  have hle := least_le stamp i
  have hnot : ¬ age log (least stamp) < age log i := fun hlt =>
    Std.not_le.mpr ((ha.lt_iff i (least stamp) (hall _) (hall _)).mpr hlt) hle
  have hage : age log i ≠ age log (least stamp) := fun heq =>
    hne (age_inj (ha.used i (hall i)) heq)
  omega

omit [DecidableLT κ] [Std.LawfulOrderLT κ] in
/-- The order is kept when cells die, or the clock runs on, without a use. -/
theorem Agrees.keep (ha : Agrees live stamp clock log)
    (hlive : ∀ i, live' i → live i ∧ stamp' i = stamp i)
    (hclock : ∀ i, live' i → clock ≤ clock') : Agrees live' stamp' clock' log where
  used := fun i hi => ha.used i (hlive i hi).1
  le_clock := by
    intro i hi
    rw [(hlive i hi).2]
    exact Std.le_trans (ha.le_clock i (hlive i hi).1) (hclock i hi)
  lt_iff := by
    intro i j hi hj
    rw [(hlive i hi).2, (hlive j hj).2]
    exact ha.lt_iff i j (hlive i hi).1 (hlive j hj).1

omit [DecidableLT κ] in
/-- A use stamps its cell with the clock; the order is kept if the clock has
moved on whenever another cell is alive. -/
theorem Agrees.use (ha : Agrees live stamp clock log) {j : Fin n}
    (hself : live' j → stamp' j = clock')
    (hothers : ∀ i, i ≠ j → live' i → live i ∧ stamp' i = stamp i)
    (hclock : ∀ i, i ≠ j → live' i → clock < clock') :
    Agrees live' stamp' clock' (log ++ [j]) where
  used := by
    intro i hi
    by_cases h : i = j
    · exact List.mem_append_right _ (List.mem_singleton.mpr h)
    · exact List.mem_append_left _ (ha.used i (hothers i h hi).1)
  le_clock := by
    intro i hi
    by_cases h : i = j
    · subst h
      exact Std.le_of_eq (hself hi)
    · rw [(hothers i h hi).2]
      exact Std.le_trans (ha.le_clock i (hothers i h hi).1)
        (Std.le_of_lt (hclock i h hi))
  lt_iff := by
    have hbefore : ∀ i, i ≠ j → live' i → stamp' i < clock' := by
      intro i h hi
      rw [(hothers i h hi).2]
      exact Std.lt_of_le_of_lt (ha.le_clock i (hothers i h hi).1) (hclock i h hi)
    intro i k hi hk
    by_cases hij : i = j
    · subst hij
      by_cases hki : k = i
      · subst hki
        exact iff_of_false (Std.not_lt.mpr (Std.le_refl _)) (Nat.lt_irrefl _)
      · rw [age_concat_self, hself hi, age_concat_ne hki]
        exact iff_of_false (Std.not_lt.mpr (Std.le_of_lt (hbefore k hki hk)))
          (Nat.not_lt_zero _)
    · by_cases hkj : k = j
      · subst hkj
        rw [age_concat_self, hself hk, age_concat_ne hij]
        exact iff_of_true (hbefore i hij hi) (Nat.succ_pos _)
      · rw [age_concat_ne hij, age_concat_ne hkj, (hothers i hij hi).2,
          (hothers k hkj hk).2, Nat.succ_lt_succ_iff]
        exact ha.lt_iff i k (hothers i hij hi).1 (hothers k hkj hk).1

end Lru
