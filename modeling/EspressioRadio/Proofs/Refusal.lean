/-
What a refused packet leaves behind.

A packet is refused for what its header says (`Refused`): it does not
decode, the transport turns its source, destination or identity away, or
its chunks do not fit the message bound. The first two are tested before
a slot is looked for and leave no trace. The size is tested after: the
slot of the packet's own message is reset for the other geometry, and a
full table has already given up its least recently touched slot. So a
refused packet leaves the transport as it was exactly when it does not
get to the slots, or finds one free and none of its message's
(`refused_unchanged_iff`).
-/
import EspressioRadio.Proofs.Bounds

namespace EspressioRadio

variable {b : Bounds} {ρ : Type}

namespace RadioTransport

variable {t t' : RadioTransport b ρ} {packet : List UInt8}
  {taken : Option (Fin b.maxReassemblies)}

/-- The fragments of the header's message, counted in full chunks, do not
fit the bound. -/
def Oversize (b : Bounds) (h : WireHeader) : Prop :=
  b.maxMessageBytes < h.fragmentCount.toNat * h.chunkBytes.toNat

/-- The packet is one `ProcessInboundPacket` has no use for: undecodable,
not for reassembly here, or too large. -/
def Refused (t : RadioTransport b ρ) (packet : List UInt8) : Prop :=
  ∀ h, decodeHeader packet = some h → t.refuses h = true ∨ Oversize b h

/-- The packet has its slot looked for, and a slot in use gives way: its
own message's, or any, for want of a free one. -/
def Displaces (t : RadioTransport b ρ) (packet : List UInt8) : Prop :=
  ∃ h, decodeHeader packet = some h ∧ t.refuses h = false
    ∧ ((∃ i, (t.reassemblies i).holds h = true)
      ∨ ∀ i, (t.reassemblies i).used = true)

/-- A header that agrees with a slot in use on count and chunk size is
within the bound, for the slot is. -/
theorem not_oversize_of_fits {s : ReassemblyRecord} {h : WireHeader}
    (hw : s.WellFormed b) (hf : s.Fits h) : ¬ Oversize b h := by
  have hlen := hw.buffer_length
  have hle := hw.buffer_le
  rw [hf.fragmentCount_eq, hf.chunkBytes_eq] at hlen
  unfold Oversize
  omega

/-- Resetting a slot that is in use leaves a transport different from the
one before. -/
theorem setSlot_empty_ne {i : Fin b.maxReassemblies}
    (hu : (t.reassemblies i).used = true) : t.setSlot i {} ≠ t := by
  intro heq
  have hslot := congrArg (fun t' => (t'.reassemblies i).used) heq
  simp only [setSlot_self, hu] at hslot
  cases hslot

/-- What a refused packet can do: nothing, or reset one slot. -/
theorem Refused.cases (hx : t.Refused packet) (hs : t.Sound)
    (hin : Inbound t packet t' taken) :
    taken = none
      ∧ ((t' = t ∧ ¬ ∃ h, decodeHeader packet = some h ∧ t.refuses h = false)
        ∨ ∃ h, decodeHeader packet = some h ∧ t.refuses h = false
          ∧ ((∃ i, (t.reassemblies i).holds h = true ∧ t' = t.setSlot i {})
            ∨ (∀ i, (t.reassemblies i).holds h = false)
              ∧ t' = t.setSlot t.victim {})) := by
  cases hin with
  | undecodable hd =>
      refine ⟨rfl, Or.inl ⟨rfl, ?_⟩⟩
      rintro ⟨h, hd', -⟩
      rw [hd] at hd'
      cases hd'
  | refused hd hr =>
      refine ⟨rfl, Or.inl ⟨rfl, ?_⟩⟩
      rintro ⟨h, hd', hr'⟩
      rw [hd] at hd'
      cases hd'
      rw [hr] at hr'
      cases hr'
  | tooLarge hd hr hn ha => exact ⟨rfl, Or.inr ⟨_, hd, hr, Or.inr ⟨hn, rfl⟩⟩⟩
  | mismatched hd hr hi hf =>
      exact ⟨rfl, Or.inr ⟨_, hd, hr, Or.inl ⟨_, hi, rfl⟩⟩⟩
  | @stored h i hd hr hi hf =>
      rcases hx h hd with hr' | hover
      · rw [hr] at hr'
        cases hr'
      · have hu := (ReassemblyRecord.holds_iff.mp hi).1
        exact absurd hover (not_oversize_of_fits (hs.slot i hu) hf)
  | @opened h hd hr hn ha =>
      rcases hx h hd with hr' | hover
      · rw [hr] at hr'
        cases hr'
      · exact absurd hover (Nat.not_lt.mpr ha)

/-- A refused packet's fragment goes into no slot. -/
theorem Refused.takes_none (hx : t.Refused packet) (hs : t.Sound) :
    t.takes packet = none :=
  (hx.cases hs (receiveFragment_inbound hs packet)).1

/-- A packet that is refused, in any reachable state, leaves the transport
as it was exactly when no slot in use gives way to it. -/
theorem refused_unchanged_iff [DecidableEq ρ] (hr : t.Reachable)
    (radios : Radios ρ) (hx : t.Refused packet) :
    (t.processInboundPacket radios packet).1 = t ↔ ¬ t.Displaces packet := by
  have hs := hr.stable.toSound
  have hstate : (t.processInboundPacket radios packet).1
      = (t.receiveFragment packet).1 := by
    rcases processInboundPacket_cases hs radios packet with
      ⟨heq, -⟩ | ⟨i, htake, -, -⟩
    · rw [heq]
    · rw [hx.takes_none hs] at htake
      cases htake
  rw [hstate]
  obtain ⟨-, ⟨hsame, hnot⟩ | ⟨h, hd, hrf, hreset⟩⟩ :=
    hx.cases hs (receiveFragment_inbound hs packet)
  · -- refused before any slot is looked for
    refine iff_of_true hsame ?_
    rintro ⟨h, hd, hrf, -⟩
    exact hnot ⟨h, hd, hrf⟩
  · rcases hreset with ⟨i, hi, heq⟩ | ⟨hn, heq⟩
    · rw [heq]
      have hu := (ReassemblyRecord.holds_iff.mp hi).1
      exact iff_of_false (setSlot_empty_ne hu)
        fun hnot => hnot ⟨h, hd, hrf, Or.inl ⟨i, hi⟩⟩
    · rw [heq]
      rcases victim_cases t with hfree | ⟨hall, -⟩
      · -- a free slot is empty already
        refine iff_of_true (setSlot_eq_self t t.victim {} (hs.unused _ hfree)) ?_
        rintro ⟨h', hd', -, ⟨i, hi⟩ | hall⟩
        · rw [hd] at hd'
          cases hd'
          rw [hn i] at hi
          cases hi
        · rw [hall t.victim] at hfree
          cases hfree
      · exact iff_of_false (setSlot_empty_ne (hall _))
          fun hnot => hnot ⟨h, hd, hrf, Or.inr hall⟩

-- ==================================================== at a full table

/-- An empty fragment of a message of 255 chunks of 255 bytes. -/
def vastFragment : List UInt8 :=
  encodeHeader
    { channel := 7, source := 6, destination := 2, messageId := 1
      fragmentIndex := 0, fragmentCount := 255, chunkBytes := 255
      payloadBytes := 0, hopLimit := 3 }

/-- The fragment's message is too large whatever the state it arrives in. -/
theorem vastFragment_refused (t : RadioTransport .defaults ρ) :
    t.Refused vastFragment := by
  intro h hd
  have hdecoded : decodeHeader vastFragment = some
      { channel := 7, source := 6, destination := 2, messageId := 1
        fragmentIndex := 0, fragmentCount := 255, chunkBytes := 255
        payloadBytes := 0, hopLimit := 3 } := by decide
  rw [hdecoded] at hd
  obtain rfl := Option.some.inj hd
  exact Or.inr (by unfold Oversize; decide)

/-- At the full table the fragment would leave the transport as it was
exactly if it displaced nothing. -/
theorem fullTable_vastFragment :
    (fullTable.processInboundPacket openRadios vastFragment).1 = fullTable
      ↔ ¬ fullTable.Displaces vastFragment :=
  refused_unchanged_iff fullTable_reachable openRadios (vastFragment_refused _)

/-- The fragment is refused for its message's size, and the reassembly of
another message is gone all the same. -/
theorem refused_evicts :
    fullTable.Reachable ∧ fullTable.Refused vastFragment
      ∧ (fullTable.reassemblies 0).used = true
      ∧ (fullTable.reassemblies 0).identity = ⟨5, 2, 7, 1⟩
      ∧ ((fullTable.processInboundPacket openRadios
          vastFragment).1.reassemblies 0).used = false := by
  refine ⟨fullTable_reachable, vastFragment_refused _, ?_, ?_, ?_⟩
  · decide
  · decide
  · decide

end RadioTransport

end EspressioRadio
