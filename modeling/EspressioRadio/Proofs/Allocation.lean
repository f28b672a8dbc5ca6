/-
What an allocation failure leaves behind.

A slot is `Used`, with the geometry of its message, before either of its
vectors has a size. If one of them cannot be grown the exception leaves
the slot that way, and the next fragment of the message finds it: its
index is tested against nothing but the geometry. So the vectors keep
the sizes every access relies on exactly when a packet that opens a slot
has both grown for it (`growth_safe_iff`); until then the calls are
those of a transport whose allocations succeed (`attempt_eq_after`).
-/
import EspressioRadio.Proofs.Bounds
import EspressioRadio.Proofs.Refusal
import EspressioRadio.Transport.Allocation

namespace EspressioRadio

variable {b : Bounds} {ρ : Type}

namespace RadioTransport

variable {t : RadioTransport b ρ} {packet : List UInt8} {h : WireHeader}
  {growth : Growth}

/-- Both vectors of every slot in use have the sizes that its count and
chunk size ask for. -/
def Sized (t : RadioTransport b ρ) : Prop :=
  ∀ i, (t.reassemblies i).used = true →
    (t.reassemblies i).received.length = (t.reassemblies i).fragmentCount.toNat
      ∧ (t.reassemblies i).buffer.length
        = (t.reassemblies i).fragmentCount.toNat * (t.reassemblies i).chunkBytes.toNat

/-- The vectors have the right sizes, and every later packet is processed
inside them. -/
def GrowthSafe (t : RadioTransport b ρ) : Prop :=
  t.Sized ∧ ∀ packet, t.InBounds packet

/-- The packet has a slot opened for its message. -/
def OpensSlot (t : RadioTransport b ρ) (packet : List UInt8) : Prop :=
  ∃ h, decodeHeader packet = some h ∧ t.refuses h = false
    ∧ (∀ i, (t.reassemblies i).holds h = false) ∧ ¬ Oversize b h

/-- No growth fails that the call asks for. -/
def Grows (t : RadioTransport b ρ) (a : Attempt ρ) : Prop :=
  a.growth = .succeeds
    ∨ ∀ packet, a.input.call = .processInboundPacket packet → ¬ t.OpensSlot packet

theorem Stable.sized (hs : t.Stable) : t.Sized := fun i hi =>
  ⟨(hs.slot i hi).received_length, (hs.slot i hi).buffer_length⟩

theorem Stable.growthSafe (hs : t.Stable) : t.GrowthSafe :=
  ⟨hs.sized, hs.inBounds⟩

-- ====================================================== without failure

/-- Opening a slot is three steps: the plain assignments, `Buffer.resize`
and `Received.assign`. -/
theorem opened_eq (s : ReassemblyRecord) (h : WireHeader) (touch : UInt32) :
    s.opened h touch
      = ((s.claimed h touch).resized
          (h.fragmentCount.toNat * h.chunkBytes.toNat)).assigned h := rfl

theorem findOrCreateReassemblyGrowing_eq
    (hgrows : growth = .succeeds
      ∨ ((∀ i, (t.reassemblies i).holds h = false) → Oversize b h)) :
    t.findOrCreateReassemblyGrowing growth h
      = ((t.findOrCreateReassembly h).1, .ok (t.findOrCreateReassembly h).2) := by
  unfold findOrCreateReassemblyGrowing findOrCreateReassembly
  cases hfind : Fin.find? fun i => (t.reassemblies i).holds h with
  | some i => rfl
  | none =>
      dsimp only
      split
      · rfl
      · next hsize =>
        rcases hgrows with rfl | hno
        · rw [opened_eq]
        · have hnone : ∀ i, (t.reassemblies i).holds h = false := fun i => by
            simpa using Fin.find?_eq_none_iff.mp hfind i
          exact absurd (hno hnone) hsize

/-- Where no growth fails, processing is what it is without failures. -/
theorem processInboundPacketGrowing_eq (radios : Radios ρ)
    (hgrows : growth = .succeeds ∨ ¬ t.OpensSlot packet) :
    t.processInboundPacketGrowing growth radios packet
      = ((t.processInboundPacket radios packet).1,
        .ok (t.processInboundPacket radios packet).2) := by
  have hreceive : t.receiveFragmentGrowing growth packet
      = ((t.receiveFragment packet).1, .ok (t.receiveFragment packet).2) := by
    unfold receiveFragmentGrowing receiveFragment
    cases hd : decodeHeader packet with
    | none => rfl
    | some h =>
        dsimp only
        split
        · rfl
        · next hr =>
          have hfound : t.findOrCreateReassemblyGrowing growth h
              = ((t.findOrCreateReassembly h).1,
                .ok (t.findOrCreateReassembly h).2) := by
            refine findOrCreateReassemblyGrowing_eq (hgrows.imp_right fun hno hn => ?_)
            by_contra hsize
            exact hno ⟨h, hd, by simpa using hr, hn, hsize⟩
          rw [hfound]
          generalize t.findOrCreateReassembly h = r
          obtain ⟨t', found⟩ := r
          cases found with
          | none => rfl
          | some i => rfl
  unfold processInboundPacketGrowing processInboundPacket
  rw [hreceive]
  generalize t.receiveFragment packet = r
  obtain ⟨t', taken⟩ := r
  cases taken with
  | none => rfl
  | some i =>
      dsimp only
      split
      · rfl
      · rfl

-- ========================================================= with failure

/-- A slot whose growth failed: in use, with its geometry, and without
one of its vectors. -/
theorem processInboundPacketGrowing_failed (hs : t.Sound) (radios : Radios ρ)
    (hfails : growth ≠ .succeeds) (hopens : t.OpensSlot packet) :
    ∃ h, decodeHeader packet = some h
      ∧ (t.processInboundPacketGrowing growth radios packet).2 = .error .badAlloc
      ∧ ∃ i, ((t.processInboundPacketGrowing growth radios packet).1.reassemblies i).used
            = true
        ∧ ((t.processInboundPacketGrowing growth radios packet).1.reassemblies i).received
            = []
        ∧ ((t.processInboundPacketGrowing growth radios
            packet).1.reassemblies i).fragmentCount = h.fragmentCount := by
  obtain ⟨h, hd, hr, hn, hsize⟩ := hopens
  have hfind : (Fin.find? fun i => (t.reassemblies i).holds h) = none :=
    Fin.find?_eq_none_iff.mpr fun i => by simpa using hn i
  refine ⟨h, hd, ?_⟩
  -- `Reset` has emptied both vectors of the candidate before either grows
  have hempty : (t.candidate.1.reassemblies t.candidate.2).received = [] := by
    rw [candidate_eq hs]
    dsimp only
    rw [setSlot_self]
  unfold processInboundPacketGrowing receiveFragmentGrowing
    findOrCreateReassemblyGrowing
  rw [hd]
  dsimp only
  rw [if_neg (by simp [hr]), hfind]
  dsimp only
  generalize t.candidate = r at hempty ⊢
  obtain ⟨t', i⟩ := r
  have hfits : ¬ h.fragmentCount.toNat * h.chunkBytes.toNat > b.maxMessageBytes := hsize
  rw [if_neg hfits]
  cases growth with
  | succeeds => exact absurd rfl hfails
  | resizeThrows =>
      refine ⟨rfl, i, ?_, ?_, ?_⟩
      · exact congrArg ReassemblyRecord.used (setSlot_self _ i _)
      · exact (congrArg ReassemblyRecord.received (setSlot_self _ i _)).trans hempty
      · exact congrArg ReassemblyRecord.fragmentCount (setSlot_self _ i _)
  | assignThrows =>
      refine ⟨rfl, i, ?_, ?_, ?_⟩
      · exact congrArg ReassemblyRecord.used (setSlot_self _ i _)
      · exact (congrArg ReassemblyRecord.received (setSlot_self _ i _)).trans hempty
      · exact congrArg ReassemblyRecord.fragmentCount (setSlot_self _ i _)

/-- A growth that fails while a packet opens a slot leaves that slot in use
with a vector of the wrong size. -/
theorem not_sized_of_failed (hs : t.Sound) (radios : Radios ρ)
    (hfails : growth ≠ .succeeds) (hopens : t.OpensSlot packet) :
    ¬ (t.processInboundPacketGrowing growth radios packet).1.Sized := by
  obtain ⟨h, hd, -, i, hu, hreceived, hcount⟩ :=
    processInboundPacketGrowing_failed hs radios hfails hopens
  intro hsized
  have hlen := (hsized i hu).1
  have hpos := (decodeHeader_wellFormed hd).count_pos
  rw [hreceived, hcount, List.length_nil] at hlen
  omega

-- ================================================================== runs

variable [DecidableEq ρ]

/-- A call whose growths succeed is the call itself. -/
theorem attempt_eq_after {a : Attempt ρ} (hgrows : t.Grows a) :
    t.attempt a = t.after a.input := by
  obtain ⟨⟨radios, call⟩, growth⟩ := a
  cases call with
  | processInboundPacket packet =>
      have heq := processInboundPacketGrowing_eq radios
        (hgrows.imp_right fun hno => hno packet rfl)
      exact congrArg Prod.fst heq
  | _ => rfl

/-- In a run none of whose growths failed, the state the next call
leaves is safe exactly when none of its growths fails. -/
theorem growth_safe_iff (localNode : RadioNodeId) (defaultHopLimit : UInt8)
    (attempts : List (Attempt ρ))
    (hrun : Observed.Along attempt Grows
      (create localNode defaultHopLimit : RadioTransport b ρ) attempts) (a : Attempt ρ) :
    ((Observed.run attempt (create localNode defaultHopLimit : RadioTransport b ρ)
        attempts).attempt a).GrowthSafe
      ↔ (Observed.run attempt (create localNode defaultHopLimit : RadioTransport b ρ)
        attempts).Grows a := by
  have hs := Observed.invariant_along (P := fun t : RadioTransport b ρ => t.Stable)
    (fun t a hgrows hs => attempt_eq_after hgrows ▸ hs.after a.input)
    (stable_of_empty fun _ => rfl) hrun
  constructor
  · intro hsafe
    by_contra hnot
    unfold Grows at hnot
    push Not at hnot
    obtain ⟨hfails, packet, hcall, hopens⟩ := hnot
    unfold attempt at hsafe
    rw [hcall] at hsafe
    exact not_sized_of_failed hs.toSound a.input.radios hfails hopens hsafe.1
  · intro hgrows
    rw [attempt_eq_after hgrows]
    exact (hs.after a.input).growthSafe

-- ======================================================== out of bounds

/-- Memory runs out for `Received` of message 1's slot. -/
def failedAttempt : Attempt Unit where
  input := ⟨openRadios, .processInboundPacket (firstOfTwo 1)⟩
  growth := .assignThrows

/-- The equivalence at a fresh node 2 and that attempt: the state left is
safe if and only if the growths asked for succeeded. -/
theorem failedAttempt_safe_iff :
    ((Observed.run attempt (create 2 4 : RadioTransport .defaults Unit) []).attempt
        failedAttempt).GrowthSafe
      ↔ (Observed.run attempt (create 2 4 : RadioTransport .defaults Unit) []).Grows
        failedAttempt :=
  growth_safe_iff 2 4 [] trivial failedAttempt

/-- The fragment, sent once more after that, reads and writes `Received[0]`
of an empty vector: the slot was in use before its vector had a size. -/
theorem received_out_of_bounds :
    ¬ ((create 2 4 : RadioTransport .defaults Unit).attempt failedAttempt).Sized
      ∧ ¬ ((create 2 4 : RadioTransport .defaults Unit).attempt
        failedAttempt).InBounds (firstOfTwo 1) := by
  constructor
  · intro hsized
    have hlen := (hsized 0 (by decide)).1
    revert hlen
    decide
  · intro hin
    have hindex := hin.received_access _ _ 0 (firstOfTwo_decodes 1) (by decide)
      rfl (by decide) (by decide)
    revert hindex
    decide

end RadioTransport

end EspressioRadio
