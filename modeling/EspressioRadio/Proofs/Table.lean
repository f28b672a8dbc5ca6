/-
The reassembly table and the recent ring: the invariant of every
reachable transport, and the one case analysis of the inbound path.

# The invariant

`Sound` holds at every point of a call: slots in use are well formed,
unused slots are reset, no two slots in use carry one identity, and no
slot in use carries a remembered one. `Stable` adds what holds between
calls, that no slot in use is complete.

# Said once

`Inbound t packet t' taken` lists everything `receiveFragment` can do
from a sound state, guards included; `receiveFragment_inbound` is the
only proof that unfolds the scan, the eviction and the geometry tests.
Two branches of the source are absent from the list: the rejection of a
fragment past the end of the buffer, and (`complete_cases`) the second
look at the recent ring. Both are dead code from a sound state.
-/
import EspressioRadio.Proofs.Slot
import EspressioRadio.Transport.Calls

namespace EspressioRadio

open Chunks

variable {b : Bounds} {ρ : Type}

-- ========================================================== identities

theorem ReassemblyRecord.holds_iff {s : ReassemblyRecord} {h : WireHeader} :
    s.holds h = true ↔ s.used = true ∧ s.identity = h.identity := by
  simp only [ReassemblyRecord.holds, ReassemblyRecord.identity,
    WireHeader.identity, Bool.and_eq_true, beq_iff_eq, MessageIdentity.mk.injEq]
  tauto

theorem RecentMessageRecord.holds_iff {r : RecentMessageRecord} {h : WireHeader} :
    r.holds h = true ↔ r.used = true ∧ r.identity = h.identity := by
  simp only [RecentMessageRecord.holds, RecentMessageRecord.identity,
    WireHeader.identity, Bool.and_eq_true, beq_iff_eq, MessageIdentity.mk.injEq]
  tauto

@[simp] theorem MessageIdentity.header_identity (id : MessageIdentity) :
    id.header.identity = id := rfl

namespace RadioTransport

/-- The identity is among the recent messages. -/
def Remembers (t : RadioTransport b ρ) (id : MessageIdentity) : Prop :=
  ∃ i, (t.recent i).used = true ∧ (t.recent i).identity = id

theorem isRecent_iff {t : RadioTransport b ρ} {h : WireHeader} :
    t.isRecent h = true ↔ t.Remembers h.identity := by
  unfold isRecent Remembers
  rw [Fin.isSome_find?_iff]
  exact exists_congr fun i => RecentMessageRecord.holds_iff

theorem isRecent_eq_false_iff {t : RadioTransport b ρ} {h : WireHeader} :
    t.isRecent h = false ↔ ¬ t.Remembers h.identity := by
  rw [← isRecent_iff, Bool.not_eq_true]

-- ============================================================ slot frame

section Frame

variable (t : RadioTransport b ρ) (i : Fin b.maxReassemblies)
  (s s' : ReassemblyRecord)

@[simp] theorem setSlot_self : (t.setSlot i s).reassemblies i = s :=
  Function.update_self ..

theorem setSlot_ne {j : Fin b.maxReassemblies} (hj : j ≠ i) :
    (t.setSlot i s).reassemblies j = t.reassemblies j :=
  Function.update_of_ne hj ..

@[simp] theorem setSlot_setSlot : (t.setSlot i s).setSlot i s' = t.setSlot i s' := by
  unfold setSlot
  simp only [Function.update_idem]

theorem setSlot_eq_self (h : t.reassemblies i = s) : t.setSlot i s = t := by
  subst h
  unfold setSlot
  rw [Function.update_eq_self]

@[simp] theorem setSlot_touchCounter :
    (t.setSlot i s).touchCounter = t.touchCounter := rfl

@[simp] theorem bumpTouch_reassemblies :
    t.bumpTouch.reassemblies = t.reassemblies := rfl

end Frame

-- ======================================================== the invariant

/-- What holds of the tables at every point of a call. -/
structure Sound (t : RadioTransport b ρ) : Prop where
  slot : ∀ i, (t.reassemblies i).used = true → (t.reassemblies i).WellFormed b
  unused : ∀ i, (t.reassemblies i).used = false → t.reassemblies i = {}
  distinct : ∀ i j, (t.reassemblies i).used = true →
    (t.reassemblies j).used = true →
    (t.reassemblies i).identity = (t.reassemblies j).identity → i = j
  not_recent : ∀ i, (t.reassemblies i).used = true →
    ¬ t.Remembers (t.reassemblies i).identity

/-- What holds between calls: the tables are sound, and no slot in use is
complete. -/
structure Stable (t : RadioTransport b ρ) : Prop extends Sound t where
  incomplete : ∀ i, (t.reassemblies i).used = true →
    (t.reassemblies i).isComplete = false

variable {t : RadioTransport b ρ}

/-- A transport with the slots and the ring of a sound one is sound: the
invariant reads nothing else. -/
theorem Sound.congr {t' : RadioTransport b ρ} (hs : t.Sound)
    (hr : t'.reassemblies = t.reassemblies) (hc : t'.recent = t.recent) :
    t'.Sound := by
  obtain ⟨h1, h2, h3, h4⟩ := hs
  unfold Remembers at h4
  rw [← hr] at h1 h2 h3 h4
  rw [← hc] at h4
  exact ⟨h1, h2, h3, h4⟩

theorem Stable.congr {t' : RadioTransport b ρ} (hs : t.Stable)
    (hr : t'.reassemblies = t.reassemblies) (hc : t'.recent = t.recent) :
    t'.Stable :=
  ⟨hs.toSound.congr hr hc, by rw [hr]; exact hs.incomplete⟩

/-- Resetting any slot keeps the tables sound. -/
theorem Sound.clear (hs : t.Sound) (i : Fin b.maxReassemblies) :
    (t.setSlot i {}).Sound := by
  have hkeep : ∀ j, ((t.setSlot i {}).reassemblies j).used = true →
      (t.setSlot i {}).reassemblies j = t.reassemblies j := by
    intro j hj
    by_cases hji : j = i
    · subst hji
      rw [setSlot_self] at hj
      cases hj
    · exact setSlot_ne t i {} hji
  refine ⟨?_, ?_, ?_, ?_⟩
  · intro j hj
    have heq := hkeep j hj
    rw [heq] at hj ⊢
    exact hs.slot j hj
  · intro j hj
    by_cases hji : j = i
    · subst hji
      exact setSlot_self ..
    · rw [setSlot_ne t i {} hji] at hj ⊢
      exact hs.unused j hj
  · intro j k hj hk hid
    have hej := hkeep j hj
    have hek := hkeep k hk
    rw [hej] at hj hid
    rw [hek] at hk hid
    exact hs.distinct j k hj hk hid
  · intro j hj
    have heq := hkeep j hj
    rw [heq] at hj ⊢
    exact hs.not_recent j hj

theorem Stable.clear (hs : t.Stable) (i : Fin b.maxReassemblies) :
    (t.setSlot i {}).Stable := by
  refine ⟨hs.toSound.clear i, fun j hj => ?_⟩
  by_cases hji : j = i
  · subst hji
    rw [setSlot_self] at hj
    cases hj
  · rw [setSlot_ne t i {} hji] at hj ⊢
    exact hs.incomplete j hj

/-- Writing a well-formed slot whose identity is neither remembered nor
carried elsewhere keeps the tables sound. -/
theorem Sound.write (hs : t.Sound) {i : Fin b.maxReassemblies}
    {s : ReassemblyRecord} (hu : s.used = true) (hw : s.WellFormed b)
    (hd : ∀ j, j ≠ i → (t.reassemblies j).used = true →
      (t.reassemblies j).identity ≠ s.identity)
    (hr : ¬ t.Remembers s.identity) : (t.setSlot i s).Sound := by
  refine ⟨?_, ?_, ?_, ?_⟩
  · intro j hj
    by_cases hji : j = i
    · subst hji
      rw [setSlot_self]
      exact hw
    · rw [setSlot_ne t i s hji] at hj ⊢
      exact hs.slot j hj
  · intro j hj
    by_cases hji : j = i
    · subst hji
      rw [setSlot_self] at hj
      rw [hu] at hj
      cases hj
    · rw [setSlot_ne t i s hji] at hj ⊢
      exact hs.unused j hj
  · -- two slots of one identity: either both are as they were, or one is the slot
    -- written
    intro j k hj hk hid
    by_cases hji : j = i
    · by_cases hki : k = i
      · rw [hji, hki]
      · subst hji
        rw [setSlot_self, setSlot_ne t j s hki] at hid
        rw [setSlot_ne t j s hki] at hk
        exact absurd hid.symm (hd k hki hk)
    · rw [setSlot_ne t i s hji] at hj hid
      by_cases hki : k = i
      · subst hki
        rw [setSlot_self] at hid
        exact absurd hid (hd j hji hj)
      · rw [setSlot_ne t i s hki] at hk hid
        exact hs.distinct j k hj hk hid
  · intro j hj
    by_cases hji : j = i
    · subst hji
      rw [setSlot_self]
      exact hr
    · rw [setSlot_ne t i s hji] at hj ⊢
      exact hs.not_recent j hj

-- ========================================================= the candidate

/-- The slot a new message goes into, which is reset first if it is in use. -/
def victim (t : RadioTransport b ρ) : Fin b.maxReassemblies := t.candidate.2

/-- The slot a new message is put into, free or evicted, is empty when it is
taken. -/
theorem candidate_eq (hs : t.Sound) :
    t.candidate = (t.setSlot t.victim {}, t.victim) := by
  unfold victim candidate
  split
  · next i hfind =>
    have hfree := (Fin.find?_eq_some_iff.mp hfind).1
    rw [setSlot_eq_self t i _ (hs.unused i (by simpa using hfree))]
  · rfl

/-- The candidate is a free slot, or all are in use and it is the least
recently touched. -/
theorem victim_cases (t : RadioTransport b ρ) :
    (t.reassemblies t.victim).used = false
      ∨ (∀ i, (t.reassemblies i).used = true) ∧ t.victim = t.leastTouched := by
  unfold victim candidate
  split
  · next i hfind =>
    exact Or.inl (by simpa using (Fin.find?_eq_some_iff.mp hfind).1)
  · next hfind =>
    exact Or.inr ⟨fun i => by simpa using Fin.find?_eq_none_iff.mp hfind i, rfl⟩

/-- Everything `findOrCreateReassembly` can do from a sound state. -/
theorem findOrCreateReassembly_cases (hs : t.Sound) (h : WireHeader) :
    (∃ i, (t.reassemblies i).holds h = true
        ∧ t.findOrCreateReassembly h = (t, some i))
      ∨ (∀ i, (t.reassemblies i).holds h = false)
        ∧ b.maxMessageBytes < h.fragmentCount.toNat * h.chunkBytes.toNat
        ∧ t.findOrCreateReassembly h = (t.setSlot t.victim {}, none)
      ∨ (∀ i, (t.reassemblies i).holds h = false)
        ∧ h.fragmentCount.toNat * h.chunkBytes.toNat ≤ b.maxMessageBytes
        ∧ t.findOrCreateReassembly h
          = (t.bumpTouch.setSlot t.victim
              (({} : ReassemblyRecord).opened h (t.touchCounter + 1)),
            some t.victim) := by
  unfold findOrCreateReassembly
  cases hfind : Fin.find? fun i => (t.reassemblies i).holds h with
  | some i => exact Or.inl ⟨i, (Fin.find?_eq_some_iff.mp hfind).1, rfl⟩
  | none =>
      have hn : ∀ i, (t.reassemblies i).holds h = false := fun i => by
        simpa using Fin.find?_eq_none_iff.mp hfind i
      refine Or.inr ?_
      dsimp only
      rw [candidate_eq hs]
      by_cases ha : b.maxMessageBytes < h.fragmentCount.toNat * h.chunkBytes.toNat
      · exact Or.inl ⟨hn, ha, if_pos ha⟩
      · refine Or.inr ⟨hn, by omega, ?_⟩
        dsimp only
        rw [if_neg ha, show (t.setSlot t.victim {}).bumpTouch
            = t.bumpTouch.setSlot t.victim {} from rfl,
          setSlot_self, setSlot_setSlot]
        rfl

/-- A slot just opened for the header, with its first fragment in. -/
def firstStore (h : WireHeader) (body : List UInt8) (touch : UInt32) :
    ReassemblyRecord :=
  (({} : ReassemblyRecord).opened h touch).store h body

theorem firstStore_used (h : WireHeader) (body : List UInt8) (touch : UInt32) :
    (firstStore h body touch).used = true :=
  ReassemblyRecord.store_used ..

@[simp] theorem firstStore_identity (h : WireHeader) (body : List UInt8)
    (touch : UInt32) : (firstStore h body touch).identity = h.identity :=
  ReassemblyRecord.store_identity ..

-- =============================================== the inbound case analysis

/-- Everything `receiveFragment` can do from a sound state. -/
inductive Inbound (t : RadioTransport b ρ) (packet : List UInt8) :
    RadioTransport b ρ → Option (Fin b.maxReassemblies) → Prop where
  | undecodable (hd : decodeHeader packet = none) : Inbound t packet t none
  | refused {h : WireHeader} (hd : decodeHeader packet = some h)
      (hr : t.refuses h = true) : Inbound t packet t none
  /-- No slot for the message, and none is made: too large. The
  candidate was reset all the same. -/
  | tooLarge {h : WireHeader} (hd : decodeHeader packet = some h)
      (hr : t.refuses h = false) (hn : ∀ i, (t.reassemblies i).holds h = false)
      (ha : b.maxMessageBytes < h.fragmentCount.toNat * h.chunkBytes.toNat) :
      Inbound t packet (t.setSlot t.victim {}) none
  /-- The message's slot has another geometry and is reset. -/
  | mismatched {h : WireHeader} {i : Fin b.maxReassemblies}
      (hd : decodeHeader packet = some h) (hr : t.refuses h = false)
      (hi : (t.reassemblies i).holds h = true)
      (hf : ¬ (t.reassemblies i).Fits h) :
      Inbound t packet (t.setSlot i {}) none
  /-- The fragment goes into its message's slot, which it agrees with. -/
  | stored {h : WireHeader} {i : Fin b.maxReassemblies}
      (hd : decodeHeader packet = some h) (hr : t.refuses h = false)
      (hi : (t.reassemblies i).holds h = true)
      (hf : (t.reassemblies i).Fits h) :
      Inbound t packet
        (t.bumpTouch.setSlot i
          (((t.reassemblies i).touched (t.touchCounter + 1)).store h
            (packetBody packet)))
        (some i)
  /-- The fragment's message has no slot, fits the bound, and gets one. -/
  | opened {h : WireHeader} (hd : decodeHeader packet = some h)
      (hr : t.refuses h = false) (hn : ∀ i, (t.reassemblies i).holds h = false)
      (ha : h.fragmentCount.toNat * h.chunkBytes.toNat ≤ b.maxMessageBytes) :
      Inbound t packet
        (t.bumpTouch.bumpTouch.setSlot t.victim
          (firstStore h (packetBody packet) (t.touchCounter + 1 + 1)))
        (some t.victim)

/-- The geometry test of the source, as `Fits`. -/
private theorem fits_iff {s : ReassemblyRecord} {h : WireHeader} :
    s.Fits h ↔ ¬(s.fragmentCount ≠ h.fragmentCount ∨ s.chunkBytes ≠ h.chunkBytes) := by
  constructor
  · rintro ⟨h1, h2⟩ (hne | hne)
    · exact hne h1
    · exact hne h2
  · intro hno
    simp only [not_or, ne_eq, not_not] at hno
    exact ⟨hno.1, hno.2⟩

/-- `storeFragment` on a well-formed slot of the packet's geometry. -/
theorem storeFragment_of_fits {i : Fin b.maxReassemblies} {h : WireHeader}
    (body : List UInt8) (hw : (t.reassemblies i).WellFormed b)
    (hf : (t.reassemblies i).Fits h) (hh : h.WellFormed) :
    t.storeFragment i h body
      = (t.bumpTouch.setSlot i
          (((t.reassemblies i).touched (t.touchCounter + 1)).store h body),
        some i) := by
  have hle := ReassemblyRecord.offset_add_le hw hf hh
  unfold storeFragment
  rw [if_neg (fits_iff.mp hf)]
  dsimp only
  rw [if_neg (by omega)]
  rfl

/-- `storeFragment` on the slot that `FindOrCreateReassembly` has just
opened for the fragment. -/
theorem storeFragment_opened (t : RadioTransport b ρ)
    (i : Fin b.maxReassemblies) {h : WireHeader} {touch : UInt32}
    (body : List UInt8) (hh : h.WellFormed)
    (ha : h.fragmentCount.toNat * h.chunkBytes.toNat ≤ b.maxMessageBytes) :
    (t.setSlot i (({} : ReassemblyRecord).opened h touch)).storeFragment i h body
      = (t.bumpTouch.setSlot i (firstStore h body (t.touchCounter + 1)),
        some i) := by
  rw [storeFragment_of_fits body _ _ hh]
  · rw [setSlot_self, setSlot_touchCounter]
    exact Prod.ext (setSlot_setSlot t.bumpTouch i _ _) rfl
  · rw [setSlot_self]
    exact ReassemblyRecord.opened_wellFormed hh ha
  · rw [setSlot_self]
    exact ⟨rfl, rfl⟩

theorem receiveFragment_inbound (hs : t.Sound) (packet : List UInt8) :
    Inbound t packet (t.receiveFragment packet).1 (t.receiveFragment packet).2 := by
  unfold receiveFragment
  cases hd : decodeHeader packet with
  | none => exact .undecodable hd
  | some h =>
      have hh := decodeHeader_wellFormed hd
      dsimp only
      cases hr : t.refuses h with
      | true => exact .refused hd hr
      | false =>
          rw [if_neg (by simp)]
          rcases findOrCreateReassembly_cases hs h with
            ⟨i, hi, heq⟩ | ⟨hn, ha, heq⟩ | ⟨hn, ha, heq⟩
          · -- the message has a slot
            rw [heq]
            have hw := hs.slot i (ReassemblyRecord.holds_iff.mp hi).1
            dsimp only
            by_cases hf : (t.reassemblies i).Fits h
            · rw [storeFragment_of_fits _ hw hf hh]
              exact .stored hd hr hi hf
            · unfold storeFragment
              rw [if_pos (not_not.mp (mt fits_iff.mpr hf))]
              exact .mismatched hd hr hi hf
          · rw [heq]
            exact .tooLarge hd hr hn ha
          · rw [heq]
            dsimp only
            rw [storeFragment_opened _ _ _ hh ha]
            exact .opened hd hr hn ha

/-- A fragment whose message has a slot opens none. -/
theorem opens_eq_false {packet : List UInt8} {h : WireHeader}
    {j : Fin b.maxReassemblies} (hd : decodeHeader packet = some h)
    (hj : (t.reassemblies j).holds h = true) : t.opens packet = false := by
  unfold opens
  rw [hd]
  dsimp only
  cases hfind : Fin.find? fun i => (t.reassemblies i).holds h with
  | some i => rfl
  | none =>
      have := Fin.find?_eq_none_iff.mp hfind j
      simp [hj] at this

/-- A fragment whose message has no slot opens one. -/
theorem opens_eq_true {packet : List UInt8} {h : WireHeader}
    (hd : decodeHeader packet = some h)
    (hn : ∀ i, (t.reassemblies i).holds h = false) : t.opens packet = true := by
  unfold opens
  rw [hd]
  dsimp only
  rw [Option.isNone_iff_eq_none, Fin.find?_eq_none_iff]
  intro i
  simp [hn i]

end RadioTransport

end EspressioRadio
