/-
The inbound tables implement an inbox.

The slots hold the parcels of an `Inbox` (`Shelved`), stamped in the
order of its list, and the recent ring holds its last identities. Each
write of the tables is an operation of the inbox: a slot opened or
stored to is `keep`, an eviction `makeRoom`, a slot reset `close`, the
ring's push `note`. So every run of calls shows outside exactly what the
`Ideal` transport shows (`refines_ideal`): no stamp, slot index or
cursor can be told apart from a list.

Two steps break this, and both are excluded: a touch that wraps the
counter while another slot is in use (`KeepsOrder`), and a push that
wraps a cursor the ring's size does not fit (`RingExact`).
-/
import EspressioRadio.Abstract.Inbox
import EspressioRadio.Proofs.Eviction
import EspressioRadio.Proofs.Halves
import EspressioRadio.Proofs.Recent

namespace EspressioRadio

open TakenFragment

variable {b : Bounds} {ρ : Type}

-- ================================================== a slot and its parcel

namespace ReassemblyRecord

/-- The slot is what the parcel's fragments make of it. -/
structure Is (s : ReassemblyRecord) (p : Parcel) : Prop where
  used : s.used = true
  identity : s.identity = p.identity
  hopLimit : s.hopLimit = p.first.header.hopLimit
  stored : s.Stored p.taken

variable {s : ReassemblyRecord} {p : Parcel} {h : WireHeader} {packet : List UInt8}

theorem Is.fits_iff (hs : s.Is p) : s.Fits h ↔ p.fits h := by
  have hfirst := hs.stored.fits p.first List.mem_cons_self
  constructor
  · intro hf
    exact ⟨hfirst.fragmentCount_eq ▸ hf.fragmentCount_eq,
      hfirst.chunkBytes_eq ▸ hf.chunkBytes_eq⟩
  · intro hf
    exact ⟨hfirst.fragmentCount_eq.trans hf.1, hfirst.chunkBytes_eq.trans hf.2⟩

/-- Storing a fragment in the slot is adding it to the parcel. -/
theorem Is.store (hs : s.Is p) (hw : s.WellFormed b) (hd : decodeHeader packet = some h)
    (hf : s.Fits h) (touch : UInt32) :
    ((s.touched touch).store h (packetBody packet)).Is
      (p.add ⟨h, packetBody packet⟩) where
  used := by
    rw [store_used]
    exact hs.used
  identity := by
    rw [store_identity]
    exact hs.identity
  hopLimit := by
    rw [store_hopLimit]
    exact hs.hopLimit
  stored := (hs.stored.touched touch).store (hw.touched touch) hd
    ⟨hf.fragmentCount_eq, hf.chunkBytes_eq⟩

/-- A slot just opened is its first fragment's parcel. -/
theorem is_firstStore (hd : decodeHeader packet = some h)
    (ha : h.fragmentCount.toNat * h.chunkBytes.toNat ≤ b.maxMessageBytes)
    (touch : UInt32) :
    (RadioTransport.firstStore h (packetBody packet) touch).Is
      { first := ⟨h, packetBody packet⟩ } where
  used := RadioTransport.firstStore_used ..
  identity := RadioTransport.firstStore_identity ..
  hopLimit := store_hopLimit ..
  stored := (Recorded.stored_rule.opened (b := b) hd ha).1

/-- The slot passes the completion test exactly when the parcel is complete. -/
theorem Is.isComplete_eq (hs : s.Is p) (hw : s.WellFormed b) :
    s.isComplete = p.isComplete := by
  have hfirst := hs.stored.fits p.first List.mem_cons_self
  rw [Bool.eq_iff_iff, isComplete_iff hw, Parcel.isComplete, List.all_eq_true,
    hfirst.fragmentCount_eq]
  constructor
  · intro hall i hi
    obtain ⟨f, hf, hfi⟩ := (hs.stored.got i).mp (hall i (List.mem_range.mp hi))
    exact List.any_eq_true.mpr ⟨f, hf, by simpa using hfi⟩
  · intro hall i hi
    obtain ⟨f, hf, hfi⟩ := List.any_eq_true.mp (hall i (List.mem_range.mpr hi))
    exact (hs.stored.got i).mpr ⟨f, hf, by simpa using hfi⟩

/-- The view of a slot's message is the view of its parcel. -/
theorem Is.message_eq (hs : s.Is p) (hw : s.WellFormed b) : s.message = p.view := by
  have hne : p.taken ≠ [] := List.cons_ne_nil p.first p.more
  have hpayload : s.message.payload = p.payload := by
    show s.buffer.take s.total = p.payload
    rw [hs.stored.buffer_eq hw hne, hs.stored.total_eq hw hne]
    rfl
  have hid := hs.identity
  unfold ReassemblyRecord.identity at hid
  simp only [message, Parcel.view, ← hid]
  rw [← hpayload]
  rfl

theorem Is.dispatch_eq (hs : s.Is p) (hw : s.WellFormed b) (t : RadioTransport b ρ)
    (radios : Radios ρ) : t.dispatch radios s = t.deliver radios p := by
  have hmessage := hs.message_eq hw
  have hid := hs.identity
  have hforwarded : s.forwarded = p.forwarded := by
    unfold forwarded Parcel.forwarded
    rw [hmessage, hs.hopLimit, ← hid]
    rfl
  unfold RadioTransport.dispatch RadioTransport.deliver
  rw [hmessage, hforwarded, hs.hopLimit, ← hid]
  rfl

end ReassemblyRecord

-- ================================================ the slots and the inbox

namespace RadioTransport

open ReassemblyRecord

variable {t t' : RadioTransport b ρ} {I : Inbox b} {p : Parcel} {h : WireHeader}
  {packet : List UInt8} {i : Fin b.maxReassemblies}

/-- The slots in use are the parcels of these cells. -/
structure Holds (t : RadioTransport b ρ) (cell : Fin b.maxReassemblies → Option Parcel) :
    Prop where
  of_some : ∀ i p, cell i = some p → (t.reassemblies i).Is p
  of_none : ∀ i, cell i = none → (t.reassemblies i).used = false

/-- The slots hold the parcels underway, stamped in the order of the
list. -/
def Shelved (t : RadioTransport b ρ) (I : Inbox b) : Prop :=
  ∃ cell, t.Holds cell
    ∧ LruCache.Keeps Parcel.identity cell (fun i => (t.reassemblies i).touch) I.underway

/-- No slot but `i` has changed. -/
def OnlySlot (i : Fin b.maxReassemblies) (t t' : RadioTransport b ρ) : Prop :=
  ∀ j, j ≠ i → t'.reassemblies j = t.reassemblies j

theorem onlySlot_setSlot (t : RadioTransport b ρ) (i : Fin b.maxReassemblies)
    (s : ReassemblyRecord) : OnlySlot i t (t.setSlot i s) :=
  fun _ hj => setSlot_ne t i s hj

/-- One cell is written along with its slot, and the others still hold what
their slots do. -/
theorem Holds.update {cell : Fin b.maxReassemblies → Option Parcel} {new : Option Parcel}
    (hh : t.Holds cell) (honly : OnlySlot i t t')
    (hsome : ∀ p, new = some p → (t'.reassemblies i).Is p)
    (hnone : new = none → (t'.reassemblies i).used = false) :
    t'.Holds (Function.update cell i new) where
  of_some := by
    intro j p hj
    by_cases hji : j = i
    · subst hji
      rw [Function.update_self] at hj
      exact hsome p hj
    · rw [Function.update_of_ne hji] at hj
      rw [honly j hji]
      exact hh.of_some j p hj
  of_none := by
    intro j hj
    by_cases hji : j = i
    · subst hji
      rw [Function.update_self] at hj
      exact hnone hj
    · rw [Function.update_of_ne hji] at hj
      rw [honly j hji]
      exact hh.of_none j hj

theorem Holds.fill {cell : Fin b.maxReassemblies → Option Parcel} (hh : t.Holds cell)
    (honly : OnlySlot i t t') (his : (t'.reassemblies i).Is p) :
    t'.Holds (Function.update cell i (some p)) := by
  apply hh.update honly
  · intro q hq
    injection hq with hq
    exact hq ▸ his
  · intro h
    cases h

theorem Holds.free {cell : Fin b.maxReassemblies → Option Parcel} (hh : t.Holds cell)
    (honly : OnlySlot i t t') (hfree : (t'.reassemblies i).used = false) :
    t'.Holds (Function.update cell i none) := by
  apply hh.update honly
  · intro q hq
    cases hq
  · intro _
    exact hfree

theorem elsewhere_update {cell : Fin b.maxReassemblies → Option Parcel}
    {new : Option Parcel} (honly : OnlySlot i t t') :
    LruCache.Elsewhere i cell (Function.update cell i new)
      (fun j => (t.reassemblies j).touch) (fun j => (t'.reassemblies j).touch) := by
  intro j hj
  refine ⟨Function.update_of_ne hj .., fun _ => ?_⟩
  show (t'.reassemblies j).touch = (t.reassemblies j).touch
  rw [honly j hj]

/-- A slot in use holds a parcel of the shelf: its cell is taken by one. -/
theorem Holds.exists_of_used {cell : Fin b.maxReassemblies → Option Parcel}
    (hh : t.Holds cell) (hu : (t.reassemblies i).used = true) :
    ∃ p, cell i = some p := by
  cases hc : cell i with
  | none =>
      rw [hh.of_none i hc] at hu
      cases hu
  | some p => exact ⟨p, rfl⟩

theorem shelved_empty (hempty : ∀ i, t.reassemblies i = {}) (hI : I.underway = []) :
    t.Shelved I := by
  refine ⟨fun _ => none, ⟨fun i p hi => (nomatch hi), fun i _ => ?_⟩, ?_⟩
  · rw [hempty i]
  · rw [hI]
    exact LruCache.keeps_nil _ fun _ => rfl

/-- For a message that has a slot, the inbox finds the parcel of that slot. -/
theorem Shelved.find?_of_holds (hs : t.Shelved I)
    (hi : (t.reassemblies i).holds h = true) :
    ∃ p, I.find? h.identity = some p ∧ p.identity = h.identity
      ∧ (t.reassemblies i).Is p := by
  obtain ⟨cell, hh, hk⟩ := hs
  obtain ⟨hu, hid⟩ := holds_iff.mp hi
  obtain ⟨p, hp⟩ := hh.exists_of_used hu
  have his := hh.of_some i p hp
  have hkey : p.identity = h.identity := his.identity.symm.trans hid
  refine ⟨p, ?_, hkey, his⟩
  exact (LruCache.find?_eq_some_iff I.keyed).mpr ⟨hk.mem_iff.mpr ⟨i, hp⟩, hkey⟩

/-- For a message in no slot, the inbox finds no parcel. -/
theorem Shelved.find?_of_not_holds (hs : t.Shelved I)
    (hn : ∀ i, (t.reassemblies i).holds h = false) : I.find? h.identity = none := by
  obtain ⟨cell, hh, hk⟩ := hs
  apply LruCache.find?_eq_none_iff.mpr
  intro p hp hkey
  obtain ⟨i, hi⟩ := hk.mem_iff.mp hp
  have his := hh.of_some i p hi
  have hholds : (t.reassemblies i).holds h = true :=
    holds_iff.mpr ⟨his.used, his.identity.trans hkey⟩
  rw [hn i] at hholds
  cases hholds

/-- Resetting a slot closes its message in the inbox. -/
theorem Shelved.close {id : MessageIdentity} (hs : t.Shelved I)
    (hu : (t.reassemblies i).used = true) (hid : (t.reassemblies i).identity = id)
    (hfree : (t'.reassemblies i).used = false) (honly : OnlySlot i t t') :
    t'.Shelved (I.close id) := by
  obtain ⟨cell, hh, hk⟩ := hs
  obtain ⟨p, hp⟩ := hh.exists_of_used hu
  have hkey : p.identity = id := (hh.of_some i p hp).identity.symm.trans hid
  refine ⟨Function.update cell i none, hh.free honly hfree, ?_⟩
  rw [← hkey]
  exact hk.clear hp (Function.update_self ..) (elsewhere_update honly)

/-- The slot a new message gets is the cell given up. -/
theorem Holds.givenUp {cell : Fin b.maxReassemblies → Option Parcel} (hh : t.Holds cell) :
    LruCache.GivenUp cell (fun i => (t.reassemblies i).touch) t.victim := by
  rcases t.victim_cases with hfree | ⟨hall, hvictim⟩
  · left
    cases hc : cell t.victim with
    | none => rfl
    | some p =>
        rw [(hh.of_some _ p hc).used] at hfree
        cases hfree
  · right
    refine ⟨fun i => ?_, hvictim.trans t.leastTouched_eq⟩
    obtain ⟨p, hp⟩ := hh.exists_of_used (hall i)
    rw [hp]
    rfl

/-- Resetting the slot that a new message gets is making room in the inbox. -/
theorem Shelved.makeRoom (hs : t.Shelved I) :
    (t.setSlot t.victim {}).Shelved I.makeRoom := by
  obtain ⟨cell, hh, hk⟩ := hs
  have honly := onlySlot_setSlot t t.victim {}
  refine ⟨Function.update cell t.victim none, ?_, ?_⟩
  · apply hh.free honly
    rw [setSlot_self]
  · apply (hk.room hh.givenUp).congr
    intro j hj
    have hne : j ≠ t.victim := by
      intro h
      rw [h, Function.update_self] at hj
      cases hj
    show ((t.setSlot t.victim {}).reassemblies j).touch = (t.reassemblies j).touch
    rw [honly j hne]

/-- The slot's stamp is ahead of those of all others in use. -/
def Latest (t : RadioTransport b ρ) (i : Fin b.maxReassemblies) : Prop :=
  ∀ j, j ≠ i → (t.reassemblies j).used = true →
    (t.reassemblies j).touch < (t.reassemblies i).touch

/-- A slot stamped ahead of the others in use has a cell stamped ahead of
the others taken. -/
theorem Holds.latest {cell : Fin b.maxReassemblies → Option Parcel} (hh : t.Holds cell)
    (hlatest : t.Latest i) :
    ∀ j, j ≠ i → (cell j).isSome → (t.reassemblies j).touch
      < (t.reassemblies i).touch := by
  intro j hj hsome
  obtain ⟨p, hp⟩ := Option.isSome_iff_exists.mp hsome
  exact hlatest j hj (hh.of_some j p hp).used

/-- Storing a fragment to its message's slot, with the latest stamp, is
keeping the longer parcel in the inbox. -/
theorem Shelved.renew (hs : t.Shelved I) (hu : (t.reassemblies i).used = true)
    (hid : (t.reassemblies i).identity = p.identity) (honly : OnlySlot i t t')
    (his : (t'.reassemblies i).Is p) (hlatest : t'.Latest i) :
    t'.Shelved (I.keep p) := by
  obtain ⟨cell, hh, hk⟩ := hs
  obtain ⟨q, hq⟩ := hh.exists_of_used hu
  have hkey : q.identity = p.identity := (hh.of_some i q hq).identity.symm.trans hid
  have hh' := hh.fill honly his
  refine ⟨_, hh', ?_⟩
  exact hk.renew hq hkey (Function.update_self ..) (elsewhere_update honly)
    (hh'.latest hlatest)

/-- Opening a slot for a new message, with the latest stamp, is keeping its
parcel in the inbox. -/
theorem Shelved.enter (hs : t.Shelved I)
    (hnew : ∀ i, (t.reassemblies i).used = true →
      (t.reassemblies i).identity ≠ p.identity)
    (honly : OnlySlot t.victim t t') (his : (t'.reassemblies t.victim).Is p)
    (hlatest : t'.Latest t.victim) : t'.Shelved (I.keep p) := by
  obtain ⟨cell, hh, hk⟩ := hs
  have hh' := hh.fill honly his
  refine ⟨_, hh', ?_⟩
  apply hk.enter hh.givenUp _ (Function.update_self ..) (elsewhere_update honly)
    (hh'.latest hlatest)
  intro q hq
  obtain ⟨j, hj⟩ := hk.mem_iff.mp hq
  have hisj := hh.of_some j q hj
  exact fun hkey => hnew j hisj.used (hisj.identity.trans hkey)

-- =========================================================== one packet

/-- The inbox refuses what the transport refuses, if it remembers the same
messages. -/
theorem refuses_iff (hhandled : ∀ id, id ∈ I.handled ↔ t.Remembers id) :
    t.refuses h = true ↔ Inbox.Foreign t.localNode h ∨ h.identity ∈ I.handled := by
  rw [hhandled, ← isRecent_iff]
  simp [refuses, Inbox.Foreign, or_assoc]

/-- A slot a fragment is taken into is stamped ahead of all others. -/
theorem Inbound.latest (hs : t.Sound) (ht : t.Touched) (hno : ¬ t.Overruns packet)
    (hin : Inbound t packet t' (some i)) : t'.Latest i := by
  intro j hj hu
  have hlt := hin.touchCounter_lt hs hno hj hu
  have hkept := hin.others (fun h => hj (Option.some.inj h).symm) hu
  rw [hin.taken_touch.1, hkept]
  rw [hkept] at hu
  exact Std.lt_of_le_of_lt (ht j hu) hlt

/-- Up to the completion test, a packet does to the slots what the inbox
does to the parcels. -/
theorem Shelved.inbound {taken : Option (Fin b.maxReassemblies)} (hshelved : t.Shelved I)
    (hhandled : ∀ id, id ∈ I.handled ↔ t.Remembers id) (hs : t.Sound) (ht : t.Touched)
    (hno : ¬ t.Overruns packet) (hin : Inbound t packet t' taken) :
    (taken = none ∧ ∃ I', I.receive t.localNode packet = (I', none)
        ∧ I'.handled = I.handled ∧ t'.Shelved I')
      ∨ ∃ i p, taken = some i ∧ I.receive t.localNode packet = I.accept p
        ∧ t'.Shelved (I.keep p) ∧ (t'.reassemblies i).Is p := by
  have hlatest : ∀ i, taken = some i → t'.Latest i := by
    intro i hi
    rw [hi] at hin
    exact hin.latest hs ht hno
  cases hin with
  | undecodable hd =>
      left
      refine ⟨rfl, I, ?_, rfl, hshelved⟩
      simp only [Inbox.receive, hd]
  | refused hd hr =>
      left
      refine ⟨rfl, I, ?_, rfl, hshelved⟩
      simp only [Inbox.receive, hd, if_pos ((refuses_iff hhandled).mp hr)]
  | @tooLarge h hd hr hn ha =>
      -- no slot of its own: the victim is reset before the size is tested
      left
      have hr' := mt (refuses_iff hhandled).mpr (Bool.eq_false_iff.mp hr)
      refine ⟨rfl, I.makeRoom, ?_, rfl, hshelved.makeRoom⟩
      simp only [Inbox.receive, hd, if_neg hr', hshelved.find?_of_not_holds hn, if_pos ha]
  | @mismatched h i hd hr hi hf =>
      -- a slot of another cut is reset, and the fragment dropped with it
      left
      have hr' := mt (refuses_iff hhandled).mpr (Bool.eq_false_iff.mp hr)
      obtain ⟨p, hfind, hkey, his⟩ := hshelved.find?_of_holds hi
      refine ⟨rfl, I.close h.identity, ?_, rfl, ?_⟩
      · simp only [Inbox.receive, hd, if_neg hr', hfind, if_neg (mt his.fits_iff.mpr hf)]
      · obtain ⟨hu, hid⟩ := ReassemblyRecord.holds_iff.mp hi
        apply hshelved.close hu hid _ (onlySlot_setSlot t i {})
        rw [setSlot_self]
  | @stored h i hd hr hi hf =>
      right
      have hr' := mt (refuses_iff hhandled).mpr (Bool.eq_false_iff.mp hr)
      obtain ⟨p, hfind, hkey, his⟩ := hshelved.find?_of_holds hi
      obtain ⟨hu, hid⟩ := ReassemblyRecord.holds_iff.mp hi
      have his' := his.store (hs.slot i hu) hd hf (t.touchCounter + 1)
      refine ⟨i, p.add ⟨h, packetBody packet⟩, rfl, ?_, ?_, ?_⟩
      · simp only [Inbox.receive, hd, if_neg hr', hfind, if_pos (his.fits_iff.mp hf)]
      · have hid' : (t.reassemblies i).identity
            = (p.add ⟨h, packetBody packet⟩).identity := hid.trans hkey.symm
        apply hshelved.renew hu hid' _ _ (hlatest i rfl)
        · exact onlySlot_setSlot t.bumpTouch i _
        · rw [setSlot_self]
          exact his'
      · rw [setSlot_self]
        exact his'
  | @opened h hd hr hn ha =>
      -- the victim, reset or free, takes the new message
      right
      have hr' := mt (refuses_iff hhandled).mpr (Bool.eq_false_iff.mp hr)
      have his := ReassemblyRecord.is_firstStore hd ha (t.touchCounter + 1 + 1)
      refine ⟨t.victim, { first := ⟨h, packetBody packet⟩ }, rfl, ?_, ?_, ?_⟩
      · simp only [Inbox.receive, hd, if_neg hr', hshelved.find?_of_not_holds hn,
          if_neg (Nat.not_lt.mpr ha)]
      · apply hshelved.enter _ _ _ (hlatest t.victim rfl)
        · intro j hu hid
          have hholds := ReassemblyRecord.holds_iff.mpr ⟨hu, hid⟩
          rw [hn j] at hholds
          cases hholds
        · exact onlySlot_setSlot t.bumpTouch.bumpTouch t.victim _
        · rw [setSlot_self]
          exact his
      · rw [setSlot_self]
        exact his

/-- As long as the touch counter does not overrun, every slot's touch stays
below it after the packet as before. -/
theorem Inbound.touched {taken : Option (Fin b.maxReassemblies)} (hs : t.Sound)
    (ht : t.Touched) (hno : ¬ t.Overruns packet) (hin : Inbound t packet t' taken) :
    t'.Touched := by
  intro j hu
  by_cases hj : taken = some j
  · subst hj
    exact Std.le_of_eq hin.taken_touch.1
  · have hkept := hin.others hj hu
    rw [hkept] at hu ⊢
    cases taken with
    | none =>
        rw [hin.touchCounter_eq]
        exact ht j hu
    | some i =>
        have hlt := hin.touchCounter_lt hs hno (fun h => hj (congrArg some h.symm))
          (hkept ▸ hu)
        exact Std.le_trans (ht j hu) (Std.le_of_lt hlt)

variable {x : Ideal b ρ}

/-- The transport is the ideal one, with its inbox in the tables. -/
structure Implements (t : RadioTransport b ρ) (x : Ideal b ρ) : Prop where
  node_eq : x.node = t.sendingHalf
  touched : t.Touched
  shelved : t.Shelved x.inbox
  ring : ∃ completed, t.RingTracks completed
    ∧ x.inbox.handled = Ring.Cells.last b.maxRecentMessages completed

theorem Implements.stable (hx : t.Implements x) : t.Stable := by
  obtain ⟨completed, hring, -⟩ := hx.ring
  exact hring.stable

theorem Implements.mem_handled_iff (hx : t.Implements x) (id : MessageIdentity) :
    id ∈ x.inbox.handled ↔ t.Remembers id := by
  obtain ⟨completed, hring, hhandled⟩ := hx.ring
  rw [hhandled, ← hring.tracks.has_iff_mem_last, ring_has_iff]

theorem implements_create (localNode : RadioNodeId) (defaultHopLimit : UInt8) :
    (create localNode defaultHopLimit : RadioTransport b ρ).Implements
      (Ideal.create localNode defaultHopLimit) where
  node_eq := rfl
  touched := by
    intro j hu
    cases hu
  shelved := shelved_empty (fun _ => rfl) rfl
  ring := ⟨[], ringTracks_create localNode defaultHopLimit, (Ring.Cells.last_nil _).symm⟩

variable [DecidableEq ρ]

omit [DecidableEq ρ] in
/-- What becomes of a completed message is decided by the sending
half. -/
theorem Implements.deliver_eq (hx : t.Implements x) (radios : Radios ρ) (p : Parcel) :
    (t.receiveFragment packet).1.deliver radios p = x.node.deliver radios p := by
  rw [hx.node_eq, ← t.receiveFragment_sendingHalf packet]
  rfl

omit [DecidableEq ρ] in
theorem onlySlot_finish (t : RadioTransport b ρ) (i : Fin b.maxReassemblies) :
    OnlySlot i t (t.finish i) :=
  fun _ hj => setSlot_ne (t.remember (t.reassemblies i).identity.header) i {} hj

omit [DecidableEq ρ] in
/-- Finishing a slot leaves no slot stamped ahead of the counter. -/
theorem Touched.finish (ht : t.Touched) (i : Fin b.maxReassemblies) :
    (t.finish i).Touched := by
  intro j hu
  have hj : j ≠ i := by
    intro h
    rw [h, RadioTransport.finish, setSlot_self] at hu
    cases hu
  rw [onlySlot_finish t i j hj] at hu ⊢
  exact ht j hu

/-- A packet, handled on both sides, shows the same and leaves a transport
that implements the inbox. -/
theorem Implements.arrival (hx : t.Implements x) (radios : Radios ρ)
    (hno : ¬ t.Overruns packet)
    (hexact : t.RingExact ⟨radios, .processInboundPacket packet⟩) :
    (t.after ⟨radios, .processInboundPacket packet⟩).Implements
        (x.after ⟨radios, .processInboundPacket packet⟩)
      ∧ t.effects ⟨radios, .processInboundPacket packet⟩
        = x.effects ⟨radios, .processInboundPacket packet⟩ := by
  have hs := hx.stable
  have hin := receiveFragment_inbound hs.toSound packet
  have hsound := hin.sound hs.toSound
  have htouched := hin.touched hs.toSound hx.touched hno
  have hnode : x.node = (t.processInboundPacket radios packet).1.sendingHalf := by
    rw [processInboundPacket_sendingHalf]
    exact hx.node_eq
  have hlocal : x.node.localNode = t.localNode := by
    rw [hx.node_eq]
    rfl
  obtain ⟨completed, hring, hhandled⟩ := hx.ring
  have hring' : (t.processInboundPacket radios packet).1.RingTracks
      (completed ++ (t.completion packet).toList) := hring.after hexact
  have hinbox := hx.shelved.inbound hx.mem_handled_iff hs.toSound hx.touched hno hin
  show (t.processInboundPacket radios packet).1.Implements
      { x with inbox := (x.inbox.receive x.node.localNode packet).1 }
    ∧ (t.processInboundPacket radios packet).2
      = (x.inbox.receive x.node.localNode packet).2.toList.flatMap (x.node.deliver radios)
  rw [hlocal]
  rcases completion_cases hs.toSound radios packet with
    ⟨hnone, -, heq, hincomplete⟩ | ⟨i, id, htakes, hid, hdone, hsome, -, -, heq⟩
  · -- nothing is complete
    rw [heq] at hnode hring' ⊢
    rw [hnone] at hring'
    rcases hinbox with ⟨-, I', hreceive, hsame, hshelved⟩
        | ⟨i, p, htakes, hreceive, hshelved, his⟩
    · rw [hreceive]
      refine ⟨⟨hnode, htouched, hshelved, completed, ?_, hsame.trans hhandled⟩, rfl⟩
      simpa using hring'
    · have hmore : p.isComplete = false := by
        rw [← his.isComplete_eq (hsound.slot i his.used)]
        exact hincomplete i htakes
      rw [hreceive, Inbox.accept, hmore]
      refine ⟨⟨hnode, htouched, hshelved, completed, ?_, hhandled⟩, rfl⟩
      simpa using hring'
  · -- the slot's message is
    rw [heq] at hnode hring' ⊢
    rw [hsome] at hring'
    rcases hinbox with ⟨hnone, -⟩ | ⟨j, p, htakes', hreceive, hshelved, his⟩
    · exact absurd (htakes.symm.trans hnone) (Option.some_ne_none i)
    · obtain rfl : i = j := Option.some.inj (htakes.symm.trans htakes')
      have hw := hsound.slot i his.used
      have hall : p.isComplete = true := by
        rw [← his.isComplete_eq hw]
        exact hdone
      have hpid : p.identity = id := his.identity.symm.trans hid
      rw [hreceive, Inbox.accept, if_pos hall]
      refine ⟨⟨hnode, ?_, ?_, completed ++ [id], ?_, ?_⟩, ?_⟩
      · exact htouched.finish i
      · apply hshelved.close his.used his.identity _ (onlySlot_finish _ i)
        rw [finish, setSlot_self]
      · simpa using hring'
      · rw [Ring.Cells.last_concat, ← hhandled, ← hpid]
        rfl
      · show _ = x.node.deliver radios p ++ []
        rw [List.append_nil, his.dispatch_eq hw, hx.deliver_eq]

-- ============================================================== one call

/-- Stopping empties the slots and the inbox, and shows the same on both
sides. -/
theorem Implements.stopped (hx : t.Implements x) (radios : Radios ρ)
    (hring : ∃ completed, (t.after ⟨radios, .stop⟩).RingTracks completed
      ∧ x.inbox.handled = Ring.Cells.last b.maxRecentMessages completed) :
    (t.after ⟨radios, .stop⟩).Implements (x.after ⟨radios, .stop⟩)
      ∧ t.effects ⟨radios, .stop⟩ = x.effects ⟨radios, .stop⟩ := by
  have hperform : t.sendingHalf.perform ⟨radios, .stop⟩
      = ((t.after ⟨radios, .stop⟩).sendingHalf, t.effects ⟨radios, .stop⟩) :=
    t.perform_sendingHalf fun _ h => nomatch h
  rw [← hx.node_eq] at hperform
  refine ⟨⟨congrArg Prod.fst hperform, ?_, ?_, hring⟩, (congrArg Prod.snd hperform).symm⟩
  · intro j hu
    cases hu
  · exact shelved_empty (fun _ => rfl) rfl

/-- Every call but an inbound packet and `Stop`, on both sides. -/
theorem Implements.other (hx : t.Implements x) {input : Input ρ}
    (hnot : ∀ packet, input.call ≠ .processInboundPacket packet)
    (hstop : input.call ≠ .stop)
    (hring : ∃ completed, (t.after input).RingTracks completed
      ∧ x.inbox.handled = Ring.Cells.last b.maxRecentMessages completed) :
    (t.after input).Implements (x.after input) ∧ t.effects input = x.effects input := by
  have hperform := t.perform_sendingHalf hnot
  rw [← hx.node_eq] at hperform
  obtain ⟨hslots, -, -, htouch⟩ := t.after_inbound hnot hstop
  have hx' : x.perform input = ({ x with node := x.node.after input },
    x.node.effects input) := by
    obtain ⟨radios, call⟩ := input
    cases call with
    | processInboundPacket packet => exact absurd rfl (hnot packet)
    | stop => exact absurd rfl hstop
    | _ => rfl
  simp only [Ideal.after, Ideal.effects, hx']
  refine ⟨⟨congrArg Prod.fst hperform, ?_, ?_, hring⟩, (congrArg Prod.snd hperform).symm⟩
  · intro j hu
    rw [hslots] at hu ⊢
    rw [htouch]
    exact hx.touched j hu
  · obtain ⟨cell, hh, hk⟩ := hx.shelved
    refine ⟨cell, ⟨?_, ?_⟩, ?_⟩
    · rw [hslots]
      exact hh.of_some
    · rw [hslots]
      exact hh.of_none
    · rw [hslots]
      exact hk

/-- The call is none of those that break the refinement: it overruns neither
the touch counter nor the ring's cursor. -/
def Faithful (t : RadioTransport b ρ) (input : Input ρ) : Prop :=
  t.KeepsOrder input ∧ t.RingExact input

/-- One faithful call, on both sides, shows the same and leaves a transport
that implements the inbox. -/
theorem Implements.after (hx : t.Implements x) {input : Input ρ}
    (hinput : t.Faithful input) :
    (t.after input).Implements (x.after input) ∧ t.effects input = x.effects input := by
  obtain ⟨radios, call⟩ := input
  obtain ⟨completed, hring, hhandled⟩ := hx.ring
  have hquiet : ∀ hnot : ∀ packet, call ≠ .processInboundPacket packet,
      ∃ completed, (t.after ⟨radios, call⟩).RingTracks completed
        ∧ x.inbox.handled = Ring.Cells.last b.maxRecentMessages completed := by
    intro hnot
    have hring' := hring.after hinput.2
    rw [(t.quiet_ring hnot).1, List.append_nil] at hring'
    exact ⟨completed, hring', hhandled⟩
  cases call with
  | processInboundPacket packet =>
      exact hx.arrival radios (hinput.1 packet rfl) hinput.2
  | stop => exact hx.stopped radios (hquiet fun _ h => nomatch h)
  | send destination channel payload =>
      exact hx.other (fun _ h => nomatch h) (fun h => nomatch h)
        (hquiet fun _ h => nomatch h)
  | start =>
      exact hx.other (fun _ h => nomatch h) (fun h => nomatch h)
        (hquiet fun _ h => nomatch h)
  | addInterface radio defaultRoute =>
      exact hx.other (fun _ h => nomatch h) (fun h => nomatch h)
        (hquiet fun _ h => nomatch h)
  | setRoute destination radio nextHop =>
      exact hx.other (fun _ h => nomatch h) (fun h => nomatch h)
        (hquiet fun _ h => nomatch h)
  | removeRoute destination =>
      exact hx.other (fun _ h => nomatch h) (fun h => nomatch h)
        (hquiet fun _ h => nomatch h)
  | setReceiver present =>
      exact hx.other (fun _ h => nomatch h) (fun h => nomatch h)
        (hquiet fun _ h => nomatch h)

-- ============================================================= whole runs

/-- A run of faithful calls, on both sides, shows the same and leaves a
transport that implements the inbox. -/
theorem Implements.run (hx : t.Implements x) {inputs : List (Input ρ)}
    (hrun : Observed.Along RadioTransport.after Faithful t inputs) :
    (Observed.run RadioTransport.after t inputs).Implements
        (Observed.run Ideal.after x inputs)
      ∧ Observed.trace RadioTransport.after effects t inputs
        = Observed.trace Ideal.after Ideal.effects x inputs := by
  apply Observed.simulation_along (fun t x input hinput hx => ?_) hx hrun
  exact hx.after hinput

/-- From construction, a run shows outside what the ideal transport shows,
and ends with its inbox in the tables. -/
theorem refines_ideal (localNode : RadioNodeId) (defaultHopLimit : UInt8)
    (inputs : List (Input ρ))
    (hrun : Observed.Along after Faithful
      (create localNode defaultHopLimit : RadioTransport b ρ) inputs) :
    Observed.trace after effects
          (create localNode defaultHopLimit : RadioTransport b ρ) inputs
        = Observed.trace Ideal.after Ideal.effects
          (Ideal.create localNode defaultHopLimit : Ideal b ρ) inputs
      ∧ (Observed.run after (create localNode defaultHopLimit : RadioTransport b ρ)
          inputs).Implements
        (Observed.run Ideal.after (Ideal.create localNode defaultHopLimit : Ideal b ρ)
          inputs) := by
  obtain ⟨himplements, htrace⟩ :=
    (implements_create localNode defaultHopLimit).run hrun
  exact ⟨htrace, himplements⟩

omit [DecidableEq ρ] in
/-- In a default build, every call with the counter two short of its end
qualifies. -/
theorem default_faithful {t : RadioTransport .defaults Unit} {input : Input Unit}
    (hlow : t.touchCounter < 0xFFFFFFFE) : t.Faithful input :=
  ⟨keepsOrder_of_low hlow, default_ringExact _ _⟩

/-- The second fragment of what `firstOfTwo` is the first of. -/
def secondOfTwo (messageId : RadioMessageId) : List UInt8 :=
  encodeHeader
    { channel := 7, source := 5, destination := 2, messageId := messageId
      fragmentIndex := 1, fragmentCount := 2, chunkBytes := 1
      payloadBytes := 1, hopLimit := 3 } ++ [0xBB]

/-- A run of a default build in which the table overflows twice: the fifth
message pushes out the first, and the first one's second fragment the
second. Then the fifth is completed. -/
def overflowing : List (Input Unit) :=
  ⟨openRadios, .setReceiver true⟩ ::
    [firstOfTwo 1, firstOfTwo 2, firstOfTwo 3, firstOfTwo 4, firstOfTwo 5, secondOfTwo 1,
      secondOfTwo 5].map fun packet => ⟨openRadios, .processInboundPacket packet⟩

/-- The ideal transport forgets the messages it heard of first, and hands
over the one that is completed. -/
theorem overflowing_refines_ideal :
    receiverMessages (Observed.trace after effects
        (create 2 4 : RadioTransport .defaults Unit) overflowing)
        = [⟨5, 2, 7, 5, [0xAA, 0xBB]⟩]
      ∧ Observed.trace after effects (create 2 4 : RadioTransport .defaults Unit) overflowing
        = Observed.trace Ideal.after Ideal.effects
          (Ideal.create 2 4 : Ideal .defaults Unit) overflowing
      ∧ (Observed.run after (create 2 4 : RadioTransport .defaults Unit)
          overflowing).Implements
        (Observed.run Ideal.after (Ideal.create 2 4 : Ideal .defaults Unit)
          overflowing) := by
  refine ⟨by decide +kernel, refines_ideal 2 4 overflowing ?_⟩
  exact ⟨default_faithful (by decide), default_faithful (by decide),
    default_faithful (by decide), default_faithful (by decide),
    default_faithful (by decide), default_faithful (by decide),
    default_faithful (by decide), default_faithful (by decide), trivial⟩

end RadioTransport

end EspressioRadio
