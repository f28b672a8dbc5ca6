/-
A bounded map kept in a table of slots.

Every slot is free or holds a key with its value; slots are scanned in
order, freed in the middle and reused. As long as no key is in two slots
(`Keyed`), the table is a partial map (`get?`) with room for as many
keys as it has slots: writing is `Function.update` of the map
(`get?_put`, `get?_drop`), and a new key is refused exactly when as many
others are present (`put_isSome_iff`).

`replay` is the same map from the other side: the writes ever made, the
last one for each key deciding (`replay_eq_some_iff`).
-/
import Mathlib.Data.Fin.Tuple.Basic
import Mathlib.Data.Set.Card
import Mathlib.Data.Set.Finite.Range
import Mathlib.Logic.Function.Basic

namespace SlotMap

/-- `n` slots, each free or taken by a key with its value. -/
abbrev Table (n : Nat) (κ ν : Type _) := Fin n → Option (κ × ν)

variable {n : Nat} {κ ν : Type _}

-- ============================================================ the table

/-- The keys that are in the table: those some slot holds. -/
def keys (t : Table n κ ν) : Set κ := {k | ∃ i v, t i = some (k, v)}

/-- No key is in two slots. -/
def Keyed (t : Table n κ ν) : Prop :=
  ∀ ⦃i j k v w⦄, t i = some (k, v) → t j = some (k, w) → i = j

theorem keyed_empty : Keyed (fun _ => none : Table n κ ν) := by
  intro i j k v w hi
  cases hi

/-- What a table with one slot written holds, slot by slot: there the new
entry, elsewhere what it held. -/
theorem update_eq_some_iff {t : Table n κ ν} {i j : Fin n} {slot : Option (κ × ν)}
    {entry : κ × ν} :
    Function.update t i slot j = some entry
      ↔ (j = i ∧ slot = some entry) ∨ (j ≠ i ∧ t j = some entry) := by
  by_cases hji : j = i
  · subst hji
    simp
  · simp [hji]

section Scans

variable [DecidableEq κ]

/-- The first slot that holds the key, if one does. -/
def slot? (t : Table n κ ν) (k : κ) : Option (Fin n) :=
  Fin.find? fun i => (t i).any (·.1 == k)

/-- The first free slot of the table, if there is one. -/
def free? (t : Table n κ ν) : Option (Fin n) := Fin.find? fun i => (t i).isNone

/-- The table as a map: the value in the key's slot. -/
def get? (t : Table n κ ν) (k : κ) : Option ν :=
  (slot? t k).bind fun i => (t i).map (·.2)

/-- Write the value to the key's slot, or, for a new key, to the first free
one; nothing comes of it if none is free. -/
def put (t : Table n κ ν) (k : κ) (v : ν) : Option (Table n κ ν) :=
  ((slot? t k).or (free? t)).map fun i => Function.update t i (some (k, v))

/-- Free the key's slot; nothing comes of it if the key is not there. -/
def drop (t : Table n κ ν) (k : κ) : Option (Table n κ ν) :=
  (slot? t k).map fun i => Function.update t i none

variable {t t' : Table n κ ν} {k : κ} {v : ν} {i : Fin n}

theorem slot?_spec (h : slot? t k = some i) : ∃ v, t i = some (k, v) := by
  have hany := (Fin.find?_eq_some_iff.mp h).1
  cases hi : t i with
  | none => simp [hi] at hany
  | some entry =>
      obtain ⟨key, v⟩ := entry
      simp only [hi, Option.any_some, beq_iff_eq] at hany
      exact ⟨v, by rw [hany]⟩

theorem slot?_eq_none_iff : slot? t k = none ↔ k ∉ keys t := by
  unfold slot? keys
  rw [Fin.find?_eq_none_iff]
  constructor
  · rintro hno ⟨i, v, hi⟩
    have := hno i
    simp [hi] at this
  · intro hno i
    cases hi : t i with
    | none => rfl
    | some entry =>
        obtain ⟨key, v⟩ := entry
        simp only [Option.any_some, beq_eq_false_iff_ne]
        rintro rfl
        exact hno ⟨i, v, hi⟩

theorem slot?_of_slot (hk : Keyed t) (hi : t i = some (k, v)) : slot? t k = some i := by
  cases hs : slot? t k with
  | none => exact absurd ⟨i, v, hi⟩ (slot?_eq_none_iff.mp hs)
  | some j =>
      obtain ⟨w, hj⟩ := slot?_spec hs
      rw [hk hj hi]

omit [DecidableEq κ] in
theorem free?_spec (h : free? t = some i) : t i = none := by
  have := (Fin.find?_eq_some_iff.mp h).1
  simpa using this

omit [DecidableEq κ] in
theorem free?_eq_none_iff : free? t = none ↔ ∀ i, t i ≠ none := by
  unfold free?
  rw [Fin.find?_eq_none_iff]
  simp only [Option.isNone_eq_false_iff, Option.isSome_iff_ne_none]

/-- The map of a keyed table gives the value of any slot that holds the key,
for there is but one. -/
theorem get?_eq_some_iff (hk : Keyed t) : get? t k = some v ↔ ∃ i, t i = some (k, v) := by
  unfold get?
  constructor
  · intro h
    obtain ⟨i, hs, hv⟩ := Option.bind_eq_some_iff.mp h
    obtain ⟨w, hi⟩ := slot?_spec hs
    rw [hi] at hv
    injection hv with hv
    exact ⟨i, by rw [hi, ← hv]⟩
  · rintro ⟨i, hi⟩
    rw [slot?_of_slot hk hi, Option.bind_some, hi]
    rfl

theorem get?_isSome_iff (hk : Keyed t) : (get? t k).isSome ↔ k ∈ keys t := by
  constructor
  · intro h
    obtain ⟨v, hv⟩ := Option.isSome_iff_exists.mp h
    obtain ⟨i, hi⟩ := (get?_eq_some_iff hk).mp hv
    exact ⟨i, v, hi⟩
  · rintro ⟨i, v, hi⟩
    rw [(get?_eq_some_iff hk).mpr ⟨i, hi⟩]
    rfl

theorem get?_empty : get? (fun _ => none : Table n κ ν) = fun _ => none := by
  funext k
  refine Option.ext fun v => ?_
  rw [get?_eq_some_iff keyed_empty]
  simp

-- =============================================================== writes

/-- A write replaces one slot, which held the key or was free with the key
in no other. -/
theorem put_spec (h : put t k v = some t') :
    ∃ i, t' = Function.update t i (some (k, v))
      ∧ ((∃ w, t i = some (k, w)) ∨ (t i = none ∧ k ∉ keys t)) := by
  obtain ⟨i, hi, rfl⟩ := Option.map_eq_some_iff.mp h
  refine ⟨i, rfl, ?_⟩
  cases hs : slot? t k with
  | some j =>
      rw [hs, Option.some_or] at hi
      injection hi with hi
      subst hi
      exact Or.inl (slot?_spec hs)
  | none =>
      rw [hs, Option.none_or] at hi
      exact Or.inr ⟨free?_spec hi, slot?_eq_none_iff.mp hs⟩

theorem Keyed.put (hk : Keyed t) (h : put t k v = some t') : Keyed t' := by
  obtain ⟨i, rfl, hslot⟩ := put_spec h
  -- the key is in no other slot than the one written
  have honly : ∀ j w, t j = some (k, w) → j = i := by
    intro j w hj
    rcases hslot with ⟨w', hi⟩ | ⟨-, hno⟩
    · exact hk hj hi
    · exact absurd ⟨j, w, hj⟩ hno
  intro a c key va vc ha hc
  rcases update_eq_some_iff.mp ha with ⟨hai, ha⟩ | ⟨hai, ha⟩
  · injection ha with ha
    injection ha with hkey
    subst hkey
    rcases update_eq_some_iff.mp hc with ⟨hci, -⟩ | ⟨hci, hc⟩
    · rw [hai, hci]
    · exact absurd (honly c vc hc) hci
  · rcases update_eq_some_iff.mp hc with ⟨-, hc⟩ | ⟨-, hc⟩
    · injection hc with hc
      injection hc with hkey
      subst hkey
      exact absurd (honly a va ha) hai
    · exact hk ha hc

theorem get?_put (hk : Keyed t) (h : put t k v = some t') :
    get? t' = Function.update (get? t) k (some v) := by
  have hk' := hk.put h
  obtain ⟨i, rfl, hslot⟩ := put_spec h
  funext key
  by_cases hkey : key = k
  · subst hkey
    rw [Function.update_self]
    exact (get?_eq_some_iff hk').mpr ⟨i, Function.update_self ..⟩
  · rw [Function.update_of_ne hkey]
    refine Option.ext fun w => ?_
    rw [get?_eq_some_iff hk', get?_eq_some_iff hk]
    constructor
    · intro ⟨j, hj⟩
      rcases update_eq_some_iff.mp hj with ⟨-, hj⟩ | ⟨-, hj⟩
      · injection hj with hj
        injection hj with hfst
        exact absurd hfst.symm hkey
      · exact ⟨j, hj⟩
    · intro ⟨j, hj⟩
      refine ⟨j, update_eq_some_iff.mpr (Or.inr ⟨fun hji => ?_, hj⟩)⟩
      subst hji
      rcases hslot with ⟨w', hi⟩ | ⟨hi, -⟩
      · rw [hi] at hj
        injection hj with hj
        injection hj with hfst
        exact hkey hfst.symm
      · rw [hi] at hj
        cases hj

theorem keys_put (hk : Keyed t) (h : put t k v = some t') :
    keys t' = insert k (keys t) := by
  ext key
  rw [← get?_isSome_iff (hk.put h), get?_put hk h, Set.mem_insert_iff,
    ← get?_isSome_iff hk]
  by_cases hkey : key = k
  · subst hkey
    simp
  · simp [hkey]

theorem Keyed.drop (hk : Keyed t) (h : drop t k = some t') : Keyed t' := by
  obtain ⟨i, -, rfl⟩ := Option.map_eq_some_iff.mp h
  intro a c key va vc ha hc
  have hkept : ∀ j entry, Function.update t i none j = some entry → t j = some entry := by
    intro j entry hj
    rcases update_eq_some_iff.mp hj with ⟨-, hj⟩ | ⟨-, hj⟩
    · cases hj
    · exact hj
  exact hk (hkept a _ ha) (hkept c _ hc)

theorem get?_drop (hk : Keyed t) (h : drop t k = some t') :
    get? t' = Function.update (get? t) k none := by
  have hk' := hk.drop h
  obtain ⟨i, hs, rfl⟩ := Option.map_eq_some_iff.mp h
  obtain ⟨w, hi⟩ := slot?_spec hs
  funext key
  refine Option.ext fun v => ?_
  by_cases hkey : key = k
  · subst hkey
    rw [Function.update_self, get?_eq_some_iff hk']
    refine iff_of_false ?_ (by simp)
    intro ⟨j, hj⟩
    rcases update_eq_some_iff.mp hj with ⟨-, hj⟩ | ⟨hji, hj⟩
    · cases hj
    · exact hji (hk hj hi)
  · rw [Function.update_of_ne hkey, get?_eq_some_iff hk', get?_eq_some_iff hk]
    constructor
    · intro ⟨j, hj⟩
      rcases update_eq_some_iff.mp hj with ⟨-, hj⟩ | ⟨-, hj⟩
      · cases hj
      · exact ⟨j, hj⟩
    · intro ⟨j, hj⟩
      refine ⟨j, update_eq_some_iff.mpr (Or.inr ⟨fun hji => ?_, hj⟩)⟩
      -- the slot freed holds the other key
      subst hji
      rw [hi] at hj
      injection hj with hj
      injection hj with hfst
      exact hkey hfst.symm

/-- Nothing can be freed exactly for the keys that are not there. -/
theorem drop_eq_none_iff : drop t k = none ↔ k ∉ keys t := by
  rw [← slot?_eq_none_iff]
  exact Option.map_eq_none_iff

end Scans

-- ============================================================= capacity

/-- A keyed table has as many keys as slots taken. -/
theorem ncard_keys {t : Table n κ ν} (hk : Keyed t) :
    (keys t).ncard = {i | t i ≠ none}.ncard := by
  have himage : some '' keys t = (fun i => (t i).map (·.1)) '' {i | t i ≠ none} := by
    ext key
    constructor
    · rintro ⟨k, ⟨i, v, hi⟩, rfl⟩
      exact ⟨i, by simp [hi], by simp [hi]⟩
    · rintro ⟨i, hi, rfl⟩
      obtain ⟨⟨k, v⟩, hentry⟩ := Option.ne_none_iff_exists'.mp hi
      exact ⟨k, ⟨i, v, hentry⟩, by simp [hentry]⟩
  have hinj : Set.InjOn (fun i => (t i).map (·.1)) {i | t i ≠ none} := by
    intro i hi j hj heq
    obtain ⟨⟨k, v⟩, hentry⟩ := Option.ne_none_iff_exists'.mp hi
    obtain ⟨⟨k', w⟩, hentry'⟩ := Option.ne_none_iff_exists'.mp hj
    simp only [hentry, hentry', Option.map_some, Option.some.injEq] at heq
    subst heq
    exact hk hentry hentry'
  rw [← Set.ncard_image_of_injective _ (Option.some_injective κ), himage,
    hinj.ncard_image]

theorem keys_finite (t : Table n κ ν) : (keys t).Finite := by
  have hrange : keys t ⊆ (fun entry => entry.1) '' {entry | some entry ∈ Set.range t} := by
    rintro k ⟨i, v, hi⟩
    exact ⟨(k, v), ⟨i, hi⟩, rfl⟩
  refine Set.Finite.subset (Set.Finite.image _ ?_) hrange
  exact (Set.finite_range t).preimage (Option.some_injective _).injOn

theorem ncard_keys_le {t : Table n κ ν} (hk : Keyed t) : (keys t).ncard ≤ n := by
  rw [ncard_keys hk]
  calc {i | t i ≠ none}.ncard ≤ (Set.univ : Set (Fin n)).ncard :=
        Set.ncard_le_ncard (Set.subset_univ _)
    _ = n := by simp [Set.ncard_univ]

/-- Some slot is free exactly when fewer keys than slots are there. -/
theorem exists_free_iff {t : Table n κ ν} (hk : Keyed t) :
    (∃ i, t i = none) ↔ (keys t).ncard < n := by
  have hcard : (Set.univ : Set (Fin n)).ncard = n := by simp [Set.ncard_univ]
  rw [ncard_keys hk]
  constructor
  · rintro ⟨i, hi⟩
    have hlt : {i | t i ≠ none}.ncard < (Set.univ : Set (Fin n)).ncard :=
      Set.ncard_lt_ncard ⟨Set.subset_univ _, fun hall => hall (Set.mem_univ i) hi⟩
    omega
  · intro hlt
    by_contra hno
    have hall : {i | t i ≠ none} = Set.univ :=
      Set.eq_univ_of_forall fun i hi => hno ⟨i, hi⟩
    rw [hall, hcard] at hlt
    exact Nat.lt_irrefl n hlt

/-- A write succeeds exactly when the key is there already, or room for
another. -/
theorem put_isSome_iff [DecidableEq κ] {t : Table n κ ν} {k : κ} {v : ν} (hk : Keyed t) :
    (put t k v).isSome ↔ k ∈ keys t ∨ (keys t).ncard < n := by
  unfold put
  rw [Option.isSome_map, Option.isSome_or, Bool.or_eq_true, ← exists_free_iff hk]
  refine or_congr ?_ ?_
  · rw [← not_iff_not, Bool.not_eq_true, Option.isSome_eq_false_iff,
      Option.isNone_iff_eq_none, slot?_eq_none_iff]
  · rw [← not_iff_not, Bool.not_eq_true, Option.isSome_eq_false_iff,
      Option.isNone_iff_eq_none, free?_eq_none_iff, not_exists]

-- =============================================================== replay

/-- The last write to the key in the log gave it this value. -/
def LastWrite (log : List (κ × Option ν)) (k : κ) (v : ν) : Prop :=
  ∃ before later, log = before ++ (k, some v) :: later ∧ ∀ write ∈ later, write.1 ≠ k

section Replay

variable [DecidableEq κ]

/-- The map a log of writes makes of an empty one, where writing `none`
removes the key. -/
def replay (log : List (κ × Option ν)) : κ → Option ν :=
  log.foldl (fun map write => Function.update map write.1 write.2) fun _ => none

@[simp] theorem replay_nil : replay ([] : List (κ × Option ν)) = fun _ => none := rfl

theorem replay_concat (log : List (κ × Option ν)) (write : κ × Option ν) :
    replay (log ++ [write]) = Function.update (replay log) write.1 write.2 := by
  simp [replay]

/-- The replayed map gives the key a value exactly when the last write to it
gave it that one. -/
theorem replay_eq_some_iff {log : List (κ × Option ν)} {k : κ} {v : ν} :
    replay log k = some v ↔ LastWrite log k v := by
  unfold LastWrite
  induction log using List.reverseRecOn with
  | nil => simp
  | append_singleton log write ih =>
      rw [replay_concat]
      -- the last write of the log: to this key it decides, to another it does not
      -- matter
      by_cases hkey : write.1 = k
      · subst hkey
        rw [Function.update_self]
        constructor
        · intro hv
          exact ⟨log, [], by rw [← hv], by simp⟩
        · rintro ⟨before, later, hlog, hlater⟩
          rcases List.eq_nil_or_concat later with rfl | ⟨rest, last, rfl⟩
          · have := (List.append_inj' hlog rfl).2
            injection this with hwrite
            rw [hwrite]
          · have hlog' : log ++ [write]
                = (before ++ (write.1, some v) :: rest) ++ [last] := by
              simpa using hlog
            have hlast := (List.append_inj' hlog' rfl).2
            injection hlast with hlast
            exact absurd (by rw [hlast]) (hlater last (by simp))
      · rw [Function.update_of_ne (Ne.symm hkey), ih]
        constructor
        · rintro ⟨before, later, rfl, hlater⟩
          refine ⟨before, later ++ [write], by simp, ?_⟩
          intro other hother
          rcases List.mem_append.mp hother with hold | hnew
          · exact hlater other hold
          · rw [List.mem_singleton.mp hnew]
            exact hkey
        · rintro ⟨before, later, hlog, hlater⟩
          rcases List.eq_nil_or_concat later with rfl | ⟨rest, last, rfl⟩
          · have := (List.append_inj' hlog rfl).2
            injection this with hwrite
            exact absurd (by rw [hwrite]) hkey
          · refine ⟨before, rest, ?_, fun other hother => hlater other (by simp [hother])⟩
            have hlog' : log ++ [write] = (before ++ (k, some v) :: rest) ++ [last] := by
              simpa using hlog
            exact (List.append_inj' hlog' rfl).1

end Replay

end SlotMap
