/-
A cache that gives up its least recently used item.

The cache is the list of its items, the most recently used first, no two
of one key (`Keyed`). Using an item puts it in front (`use`); what is
then beyond the cache's size is dropped at the end. That end is far
away for an item used a moment ago: it moves back by one for each other
key used, and for none twice (`Behind`), so it stays until as many
other keys as the cache has places were used.

A table of stamped cells keeps such a cache without any list
(`Keeps`): each item is stamped when used, and a full table gives up the
cell `Lru.least` finds. The three writes of such a table are the three
operations of the cache: `Keeps.clear`, `Keeps.renew`, and `Keeps.fill`,
over `Keeps.room` for the cell given up.
-/
import EspressioRadio.Lib.Lru
import Mathlib.Data.Fintype.Card

namespace LruCache

variable {α κ : Type _} [DecidableEq κ]

section Operations

variable (key : α → κ) (n : Nat)

/-- The item with this key, wherever in the cache it stands. -/
def find? (c : List α) (k : κ) : Option α := c.find? fun a => key a == k

/-- What is left of the cache when the item with this key is taken out. -/
def without (c : List α) (k : κ) : List α := c.filter fun a => key a != k

/-- Make room for one more in `n` places: if they are all taken, the least
recently used item goes. -/
def room (c : List α) : List α := c.take (n - 1)

/-- Bring the item to the front, in place of any other with its key; if
there is none, room is made for it. -/
def use (c : List α) (a : α) : List α := a :: room n (without key c (key a))

/-- No two items of the cache have the same key. -/
def Keyed (c : List α) : Prop := (c.map key).Nodup

end Operations

variable {key : α → κ} {n : Nat} {c : List α} {a x : α} {k : κ}

omit [DecidableEq κ] in
theorem keyed_nil : Keyed key ([] : List α) := List.nodup_nil

omit [DecidableEq κ] in
theorem Keyed.sublist {c' : List α} (hc : Keyed key c) (hsub : c'.Sublist c) :
    Keyed key c' :=
  List.Nodup.sublist (hsub.map key) hc

theorem without_sublist : (without key c k).Sublist c := List.filter_sublist

theorem mem_without : x ∈ without key c k ↔ x ∈ c ∧ key x ≠ k := by
  simp [without]

theorem Keyed.use (hc : Keyed key c) (n : Nat) (a : α) : Keyed key (use key n c a) := by
  show (key a :: (room n (without key c (key a))).map key).Nodup
  apply List.nodup_cons.mpr
  refine ⟨fun hmem => ?_, hc.sublist ((List.take_sublist _ _).trans without_sublist)⟩
  obtain ⟨x, hx, hkey⟩ := List.mem_map.mp hmem
  exact (mem_without.mp (List.mem_of_mem_take hx)).2 hkey

theorem length_use_le (hn : 0 < n) : (use key n c a).length ≤ n := by
  simp only [use, room, List.length_cons, List.length_take]
  omega

/-- Taking out a key that is not there leaves the cache as it was. -/
theorem without_eq_self (h : ∀ x ∈ c, key x ≠ k) : without key c k = c := by
  apply List.filter_eq_self.mpr
  intro x hx
  simpa using h x hx

theorem find?_eq_some_iff (hc : Keyed key c) :
    find? key c k = some a ↔ a ∈ c ∧ key a = k := by
  unfold find?
  induction c with
  | nil => simp
  | cons b c ih =>
      obtain ⟨hb, hc⟩ := List.nodup_cons.mp hc
      by_cases hkey : key b = k
      · rw [List.find?_cons_of_pos (by simpa using hkey), Option.some.injEq]
        constructor
        · intro hab
          subst hab
          exact ⟨List.mem_cons_self, hkey⟩
        · intro ⟨hmem, hka⟩
          rcases List.mem_cons.mp hmem with hab | hmem
          · exact hab.symm
          · exact absurd (List.mem_map.mpr ⟨a, hmem, hka.trans hkey.symm⟩) hb
      · rw [List.find?_cons_of_neg (by simpa using hkey), ih hc]
        refine and_congr_left fun hka => ?_
        rw [List.mem_cons, or_iff_right]
        intro hab
        exact hkey (hab ▸ hka)

theorem find?_eq_none_iff : find? key c k = none ↔ ∀ x ∈ c, key x ≠ k := by
  simp [find?]

-- ============================================================= survival

/-- The item is in the cache, and every item used more recently has one of
these keys. -/
def Behind (key : α → κ) (names : Finset κ) (a : α) (c : List α) : Prop :=
  ∃ front back, c = front ++ a :: back ∧ ∀ x ∈ front, key x ∈ names

variable {names : Finset κ}

omit [DecidableEq κ] in
theorem Behind.mem (hb : Behind key names a c) : a ∈ c := by
  obtain ⟨front, back, rfl, -⟩ := hb
  simp

/-- An item just used is in front: behind no keys at all. -/
theorem behind_use (n : Nat) (c : List α) (a : α) : Behind key ∅ a (use key n c a) :=
  ⟨[], room n (without key c (key a)), rfl, by simp⟩

omit [DecidableEq κ] in
theorem Behind.mono {names' : Finset κ} (hb : Behind key names a c)
    (hsub : names ⊆ names') : Behind key names' a c := by
  obtain ⟨front, back, hc, hfront⟩ := hb
  exact ⟨front, back, hc, fun x hx => hsub (hfront x hx)⟩

/-- There are no more items in front than there are keys they may have. -/
theorem front_length_le {front : List α} (hk : Keyed key front)
    (hfront : ∀ x ∈ front, key x ∈ names) : front.length ≤ names.card := by
  have hsub : (front.map key).toFinset ⊆ names := by
    intro k hmem
    obtain ⟨x, hx, hkey⟩ := List.mem_map.mp (List.mem_toFinset.mp hmem)
    exact hkey ▸ hfront x hx
  calc front.length = (front.map key).length := (List.length_map key).symm
    _ = (front.map key).toFinset.card := (List.toFinset_card_of_nodup hk).symm
    _ ≤ names.card := Finset.card_le_card hsub

/-- Taking another item out leaves this one where it is, with one key fewer
in front. -/
theorem Behind.without (hb : Behind key names a c) (hne : key a ≠ k) :
    Behind key (names.erase k) a (without key c k) := by
  obtain ⟨front, back, rfl, hfront⟩ := hb
  refine ⟨LruCache.without key front k, LruCache.without key back k, ?_, ?_⟩
  · simp [LruCache.without, hne]
  · intro x hx
    obtain ⟨hx, hkx⟩ := mem_without.mp hx
    exact Finset.mem_erase.mpr ⟨hkx, hfront x hx⟩

/-- Making room does not reach the item while the keys in front of it are
fewer than the places but one. -/
theorem Behind.room (hb : Behind key names a c) (hc : Keyed key c)
    (hfew : names.card + 1 < n) : Behind key names a (room n c) := by
  obtain ⟨front, back, rfl, hfront⟩ := hb
  have hlen : front.length ≤ names.card :=
    front_length_le (hc.sublist (List.sublist_append_left front _)) hfront
  obtain ⟨m, hm⟩ : ∃ m, n - 1 - front.length = m + 1 := ⟨n - 2 - front.length, by omega⟩
  refine ⟨front, back.take m, ?_, hfront⟩
  rw [LruCache.room, List.take_append, hm, List.take_succ_cons,
    List.take_of_length_le (by omega)]

private theorem card_erase_lt (hfew : (insert k names).card < n) :
    (names.erase k).card + 1 < n := by
  have hpos : 0 < (insert k names).card :=
    Finset.card_pos.mpr ⟨k, Finset.mem_insert_self ..⟩
  rw [← Finset.erase_insert_eq_erase, Finset.card_erase_of_mem
    (Finset.mem_insert_self ..)]
  omega

/-- Making room for a new key does not reach the item while the keys in
front of it, and the new one, are fewer than the places. -/
theorem Behind.roomed (hb : Behind key names a c) (hc : Keyed key c) (hne : key a ≠ k)
    (hnew : ∀ x ∈ c, key x ≠ k) (hfew : (insert k names).card < n) :
    Behind key (insert k names) a (LruCache.room n c) := by
  have hout := hb.without hne
  rw [without_eq_self hnew] at hout
  exact (hout.room hc (card_erase_lt hfew)).mono
    ((Finset.erase_subset ..).trans (Finset.subset_insert ..))

/-- Using another item moves this one back by at most that one, and does not
push it out while the keys in front are fewer than the places. -/
theorem Behind.use (hb : Behind key names a c) (hc : Keyed key c)
    (hne : key x ≠ key a) (hfew : (insert (key x) names).card < n) :
    Behind key (insert (key x) names) a (use key n c x) := by
  obtain ⟨front, back, heq, hfront⟩ :=
    (hb.without hne.symm).room (hc.sublist without_sublist) (card_erase_lt hfew)
  refine ⟨x :: front, back, by rw [LruCache.use, heq]; rfl, fun y hy => ?_⟩
  rcases List.mem_cons.mp hy with rfl | hy
  · exact Finset.mem_insert_self ..
  · exact Finset.mem_insert_of_mem (Finset.mem_of_mem_erase (hfront y hy))

-- ====================================================== tables of cells

section Tables

variable {σ : Type _} [LT σ]

/-- A table of cells holds the items of the cache, each in one cell, and the
stamps of the cells taken are in the order of the list. -/
structure Keeps (key : α → κ) (cell : Fin n → Option α) (stamp : Fin n → σ)
    (c : List α) : Prop where
  keyed : ∀ i j a x, cell i = some a → cell j = some x → key a = key x → i = j
  order : ∃ order : List (Fin n), order.Nodup
    ∧ order.Pairwise (fun i j => stamp j < stamp i)
    ∧ (∀ i, (cell i).isSome → i ∈ order) ∧ order.map cell = c.map some

/-- Nothing but cell `i` has changed: the others hold what they held, and
those taken are stamped as they were. -/
def Elsewhere (i : Fin n) (cell cell' : Fin n → Option α) (stamp stamp' : Fin n → σ) :
    Prop :=
  ∀ j, j ≠ i → cell' j = cell j ∧ ((cell j).isSome → stamp' j = stamp j)

variable {cell cell' : Fin n → Option α} {stamp stamp' : Fin n → σ} {i v : Fin n}

omit [DecidableEq κ] in
theorem keeps_nil (stamp : Fin n → σ) (h : ∀ i, cell i = none) :
    Keeps key cell stamp [] where
  keyed := by
    intro i j a x hi
    rw [h i] at hi
    cases hi
  order := ⟨[], List.nodup_nil, List.Pairwise.nil, fun i hi => by simp [h i] at hi, rfl⟩

omit [DecidableEq κ] [LT σ] in
/-- Every cell in the order of the list is taken. -/
private theorem isSome_of_mem {order : List (Fin n)}
    (hmap : order.map cell = c.map some) (hi : i ∈ order) : (cell i).isSome := by
  have hmem : cell i ∈ c.map some := hmap ▸ List.mem_map_of_mem hi
  obtain ⟨a, -, ha⟩ := List.mem_map.mp hmem
  rw [← ha]
  rfl

omit [DecidableEq κ] in
theorem Keeps.mem_iff (hk : Keeps key cell stamp c) : a ∈ c ↔ ∃ i, cell i = some a := by
  obtain ⟨order, -, -, hall, hmap⟩ := hk.order
  have hmem : a ∈ c ↔ some a ∈ order.map cell := by
    rw [hmap]
    simp
  rw [hmem, List.mem_map]
  constructor
  · intro ⟨i, _, hi⟩
    exact ⟨i, hi⟩
  · intro ⟨i, hi⟩
    exact ⟨i, hall i (by rw [hi]; rfl), hi⟩

omit [DecidableEq κ] in
/-- Only the stamps of the cells taken matter: those of free cells may be
anything. -/
theorem Keeps.congr (hk : Keeps key cell stamp c)
    (hstamp : ∀ i, (cell i).isSome → stamp' i = stamp i) : Keeps key cell stamp' c where
  keyed := hk.keyed
  order := by
    obtain ⟨order, hnodup, hord, hall, hmap⟩ := hk.order
    refine ⟨order, hnodup, hord.imp_of_mem ?_, hall, hmap⟩
    intro i j hi hj hlt
    rw [hstamp i (isSome_of_mem hmap hi), hstamp j (isSome_of_mem hmap hj)]
    exact hlt

omit [DecidableEq κ] in
/-- While some cell is free, the cache has fewer items than there are cells. -/
theorem Keeps.length_lt (hk : Keeps key cell stamp c) (hi : cell i = none) :
    c.length < n := by
  obtain ⟨order, hnodup, -, -, hmap⟩ := hk.order
  have hout : i ∉ order := fun hmem => by
    have := isSome_of_mem hmap hmem
    rw [hi] at this
    cases this
  have hle := List.Nodup.length_le_card (List.nodup_cons.mpr ⟨hout, hnodup⟩)
  have hlen : order.length = c.length := by simpa using congrArg List.length hmap
  rw [List.length_cons, Fintype.card_fin] at hle
  omega

/-- Freeing a cell takes its item out of the cache. -/
theorem Keeps.clear (hk : Keeps key cell stamp c) (hi : cell i = some a)
    (hfree : cell' i = none) (helse : Elsewhere i cell cell' stamp stamp') :
    Keeps key cell' stamp' (without key c (key a)) where
  keyed := by
    intro j l y z hj hl
    have hji : j ≠ i := fun h => by rw [h, hfree] at hj; cases hj
    have hli : l ≠ i := fun h => by rw [h, hfree] at hl; cases hl
    rw [(helse j hji).1] at hj
    rw [(helse l hli).1] at hl
    exact hk.keyed j l y z hj hl
  order := by
    obtain ⟨order, hnodup, hord, hall, hmap⟩ := hk.order
    -- the order without the cell freed
    refine ⟨order.filter (· ≠ i), hnodup.filter _, ?_, ?_, ?_⟩
    · refine (hord.filter _).imp_of_mem ?_
      intro j l hj hl hlt
      simp only [List.mem_filter, decide_eq_true_eq] at hj hl
      rw [(helse j hj.2).2 (isSome_of_mem hmap hj.1),
        (helse l hl.2).2 (isSome_of_mem hmap hl.1)]
      exact hlt
    · intro j hj
      have hji : j ≠ i := fun h => by rw [h, hfree] at hj; cases hj
      rw [(helse j hji).1] at hj
      simp [hall j hj, hji]
    · -- the cells of other keys are the cells other than this one
      have hkeep : ∀ j ∈ order, decide (j ≠ i)
        = (cell j).any fun x => key x != key a := by
        intro j hj
        obtain ⟨x, hx⟩ := Option.isSome_iff_exists.mp (isSome_of_mem hmap hj)
        by_cases hji : j = i
        · subst hji
          rw [hi] at hx
          injection hx with hx
          simp [hi]
        · have hne : key x ≠ key a := fun h => hji (hk.keyed j i x a hx hi h)
          simp [hx, hji, hne]
      calc (order.filter (· ≠ i)).map cell'
          = (order.filter (· ≠ i)).map cell := by
            apply List.map_congr_left
            intro j hj
            simp only [List.mem_filter, decide_eq_true_eq] at hj
            exact (helse j hj.2).1
        _ = (order.map cell).filter (fun o => o.any fun x => key x != key a) := by
            rw [List.filter_map]
            exact congrArg _ (List.filter_congr hkeep)
        _ = (without key c (key a)).map some := by
            rw [hmap, List.filter_map]
            rfl

omit [DecidableEq κ] in
/-- Filling a free cell with an item of a new key, stamped after all others,
puts the item in front. -/
theorem Keeps.fill (hk : Keeps key cell stamp c) (hi : cell i = none)
    (hfill : cell' i = some a) (helse : Elsewhere i cell cell' stamp stamp')
    (hnew : ∀ x ∈ c, key x ≠ key a)
    (hlast : ∀ j, j ≠ i → (cell' j).isSome → stamp' j < stamp' i) :
    Keeps key cell' stamp' (a :: c) where
  keyed := by
    have hother : ∀ j x, j ≠ i → cell' j = some x → key x ≠ key a := by
      intro j x hji hj
      rw [(helse j hji).1] at hj
      exact hnew x (hk.mem_iff.mpr ⟨j, hj⟩)
    intro j l y z hj hl heq
    by_cases hji : j = i
    · by_cases hli : l = i
      · rw [hji, hli]
      · rw [hji, hfill] at hj
        injection hj with hj
        exact absurd (hj ▸ heq.symm) (hother l z hli hl)
    · by_cases hli : l = i
      · rw [hli, hfill] at hl
        injection hl with hl
        exact absurd (hl ▸ heq) (hother j y hji hj)
      · rw [(helse j hji).1] at hj
        rw [(helse l hli).1] at hl
        exact hk.keyed j l y z hj hl heq
  order := by
    obtain ⟨order, hnodup, hord, hall, hmap⟩ := hk.order
    have hne : ∀ j ∈ order, j ≠ i := by
      intro j hj h
      have := isSome_of_mem hmap hj
      rw [h, hi] at this
      cases this
    -- the cell filled goes ahead of the others in the order
    refine ⟨i :: order, ?_, ?_, ?_, ?_⟩
    · exact List.nodup_cons.mpr ⟨fun h => hne i h rfl, hnodup⟩
    · apply List.pairwise_cons.mpr
      constructor
      · intro j hj
        apply hlast j (hne j hj)
        rw [(helse j (hne j hj)).1]
        exact isSome_of_mem hmap hj
      · refine hord.imp_of_mem ?_
        intro j l hj hl hlt
        rw [(helse j (hne j hj)).2 (isSome_of_mem hmap hj),
          (helse l (hne l hl)).2 (isSome_of_mem hmap hl)]
        exact hlt
    · intro j hj
      by_cases hji : j = i
      · simp [hji]
      · rw [(helse j hji).1] at hj
        exact List.mem_cons_of_mem i (hall j hj)
    · have hrest : order.map cell' = order.map cell :=
        List.map_congr_left fun j hj => (helse j (hne j hj)).1
      rw [List.map_cons, List.map_cons, hfill, hrest, hmap]

/-- Replacing a cell's item by one of the same key, stamped after all
others, is a use of that item. -/
theorem Keeps.renew (hk : Keeps key cell stamp c) (hi : cell i = some x)
    (hkey : key x = key a) (hfill : cell' i = some a)
    (helse : Elsewhere i cell cell' stamp stamp')
    (hlast : ∀ j, j ≠ i → (cell' j).isSome → stamp' j < stamp' i) :
    Keeps key cell' stamp' (use key n c a) := by
  have hmid : Keeps key (Function.update cell i none) stamp (without key c (key a)) := by
    rw [← hkey]
    apply hk.clear hi (Function.update_self ..)
    intro j hj
    exact ⟨Function.update_of_ne hj .., fun _ => rfl⟩
  have hroom : room n (without key c (key a)) = without key c (key a) := by
    apply List.take_of_length_le
    have := hmid.length_lt (i := i) (Function.update_self ..)
    omega
  rw [use, hroom]
  apply hmid.fill (Function.update_self ..) hfill _ _ hlast
  · intro j hj
    rw [Function.update_of_ne hj]
    exact helse j hj
  · intro y hy
    exact (mem_without.mp hy).2

end Tables

section Full

variable {σ : Type _} [LE σ] [LT σ] [DecidableLT σ] [Std.IsLinearOrder σ]
  [Std.LawfulOrderLT σ] {cell cell' : Fin n → Option α} {stamp stamp' : Fin n → σ}
  {v : Fin n}

/-- The cell a new item goes into: any free one, or, in a full table, the
one stamped least. -/
def GivenUp [NeZero n] (cell : Fin n → Option α) (stamp : Fin n → σ) (v : Fin n) : Prop :=
  cell v = none ∨ (∀ i, (cell i).isSome) ∧ v = Lru.least stamp

omit [DecidableEq κ] in
/-- Emptying the cell given up is making room: it held the least recently
used item, or none. -/
theorem Keeps.room [NeZero n] (hk : Keeps key cell stamp c) (hv : GivenUp cell stamp v) :
    Keeps key (Function.update cell v none) stamp (room n c) := by
  rcases hv with hfree | ⟨hall, rfl⟩
  · have hlt := hk.length_lt hfree
    rw [LruCache.room, List.take_of_length_le (by omega), Function.update_eq_self_iff.mpr]
    · exact hk
    · exact hfree.symm
  · obtain ⟨order, hnodup, hord, hmem, hmap⟩ := hk.order
    have hlen : order.length = n := by
      apply Nat.le_antisymm
      · simpa using List.Nodup.length_le_card hnodup
      · have hsub : List.finRange n ⊆ order := fun i _ => hmem i (hall i)
        simpa using (List.subperm_of_subset (List.nodup_finRange n) hsub).length_le
    obtain ⟨init, last, rfl⟩ : ∃ init last, order = init ++ [last] := by
      apply (List.eq_nil_or_concat' order).resolve_left
      exact List.ne_nil_of_mem (hmem _ (hall (Lru.least stamp)))
    have hafter : ∀ i ∈ init, stamp last < stamp i := fun i hi =>
      (List.pairwise_append.mp hord).2.2 i hi last (List.mem_singleton.mpr rfl)
    -- the least stamp is the last one
    have hlast : Lru.least stamp = last := by
      rcases List.mem_append.mp (hmem _ (hall (Lru.least stamp))) with hin | hin
      · exact absurd (Lru.least_le stamp last) (Std.not_le.mpr (hafter _ hin))
      · exact List.mem_singleton.mp hin
    rw [hlast]
    have hne : ∀ i ∈ init, i ≠ last := fun i hi =>
      (List.nodup_append.mp hnodup).2.2 i hi last (List.mem_singleton.mpr rfl)
    refine ⟨?_, init, (List.nodup_append.mp hnodup).1, (List.pairwise_append.mp hord).1,
      ?_, ?_⟩
    · intro i j a x hi hj
      have hi' : i ≠ last := fun h => by rw [h, Function.update_self] at hi; cases hi
      have hj' : j ≠ last := fun h => by rw [h, Function.update_self] at hj; cases hj
      rw [Function.update_of_ne hi'] at hi
      rw [Function.update_of_ne hj'] at hj
      exact hk.keyed i j a x hi hj
    · intro i hi
      have hi' : i ≠ last := fun h => by rw [h, Function.update_self] at hi; cases hi
      rcases List.mem_append.mp (hmem i (hall i)) with hin | hin
      · exact hin
      · exact absurd (List.mem_singleton.mp hin) hi'
    · have hinit : n - 1 = init.length := by
        rw [List.length_append, List.length_singleton] at hlen
        omega
      calc init.map (Function.update cell last none)
          = init.map cell := by
            apply List.map_congr_left
            intro i hi
            exact Function.update_of_ne (hne i hi) ..
        _ = ((init ++ [last]).map cell).take (n - 1) := by
            rw [List.map_append, hinit, ← List.length_map cell, List.take_left]
        _ = (LruCache.room n c).map some := by
            rw [hmap, LruCache.room, List.map_take]

/-- An item of a new key that goes into the cell given up, stamped after all
others, is used: it is in front, and room was made for it. -/
theorem Keeps.enter [NeZero n] (hk : Keeps key cell stamp c) (hv : GivenUp cell stamp v)
    (hnew : ∀ x ∈ c, key x ≠ key a) (hfill : cell' v = some a)
    (helse : Elsewhere v cell cell' stamp stamp')
    (hlast : ∀ j, j ≠ v → (cell' j).isSome → stamp' j < stamp' v) :
    Keeps key cell' stamp' (use key n c a) := by
  rw [use, without_eq_self hnew]
  apply (hk.room hv).fill (Function.update_self ..) hfill _ _ hlast
  · intro j hj
    rw [Function.update_of_ne hj]
    exact helse j hj
  · intro y hy
    exact hnew y (List.mem_of_mem_take hy)

end Full

end LruCache
