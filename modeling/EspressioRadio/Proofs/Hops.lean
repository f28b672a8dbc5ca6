/-
The hop a forward uses up.

A slot keeps the hop limit of the packet that opened it, whatever the
limits of the fragments that come in later (`opened_with_rule`). The
forward is sent with one hop less than that (`forward_hops`): fewer than
every fragment stored came with, as long as none of them came with fewer
than the opener. A fragment that did, over a longer way, is carried on
all the same: `later_fragment_gains_hops` forwards one that had none
left.
-/
import EspressioRadio.Proofs.Provenance

namespace EspressioRadio

open Chunks

variable {b : Bounds} {ρ : Type}

/-- The fragment's bytes are what the slot stores for its index. -/
def TakenFragment.Kept (taken : List TakenFragment) (f : TakenFragment) : Prop :=
  taken.find? (fun g => g.index == f.index) = some f

/-- The slot has the hop limit of the first fragment that was taken into it. -/
def ReassemblyRecord.OpenedWith (s : ReassemblyRecord) (taken : List TakenFragment) :
    Prop :=
  ∃ opener rest, taken = opener :: rest ∧ s.hopLimit = opener.header.hopLimit

namespace Recorded

/-- Storing later fragments leaves the hop limit as the first one set it. -/
theorem opened_with_rule : LedgerRule b ReassemblyRecord.OpenedWith where
  opened := fun {packet h touch} _ _ => by
    refine ⟨⟨h, packetBody packet⟩, [], rfl, ?_⟩
    rw [RadioTransport.firstStore, ReassemblyRecord.store_hopLimit]
    rfl
  stored := fun {s taken packet h touch} hR _ _ _ => by
    obtain ⟨opener, rest, rfl, hhop⟩ := hR
    refine ⟨opener, rest ++ [⟨h, packetBody packet⟩], rfl, ?_⟩
    rw [ReassemblyRecord.store_hopLimit]
    exact hhop

variable [DecidableEq ρ] {r : Recorded b ρ} {packet : List UInt8}
  {j : Fin b.maxReassemblies}

/-- Some run of calls from construction ends in this state, with these
ledgers. -/
def Reached (r : Recorded b ρ) : Prop :=
  ∃ localNode defaultHopLimit inputs,
    r = Observed.run after (create localNode defaultHopLimit) inputs

/-- In every state reached, every slot in use has the hop limit it was
opened with. -/
theorem Reached.opened_with (hr : r.Reached) :
    r.transport.Stable ∧ ∀ j, (r.transport.reassemblies j).used = true →
      (r.transport.reassemblies j).OpenedWith (r.ledger j) := by
  obtain ⟨localNode, defaultHopLimit, inputs, rfl⟩ := hr
  refine Observed.invariant_run (P := fun r : Recorded b ρ => r.transport.Stable
    ∧ ∀ j, (r.transport.reassemblies j).used = true →
      (r.transport.reassemblies j).OpenedWith (r.ledger j)) ?_ ?_ inputs
  · rintro r input ⟨hs, hall⟩
    exact ⟨hs.after input, fun _ hu => opened_with_rule.after hs hall input hu⟩
  · exact ⟨RadioTransport.stable_of_empty fun _ => rfl, fun _ hu => by cases hu⟩

omit [DecidableEq ρ] in
/-- What a completed slot is sent on with: one hop less than the slot has. -/
theorem dispatch_hops {t : RadioTransport b ρ} {radios : Radios ρ}
    {s : ReassemblyRecord} {frame : List UInt8}
    (hframe : frame ∈ sentFrames (t.dispatch radios s)) :
    ∃ h, decodeHeader frame = some h ∧ h.hopLimit.toNat + 1 = s.hopLimit.toNat := by
  obtain ⟨hpos, c, i, hs, hi, rfl⟩ := RadioTransport.dispatch_sentFrames hframe
  have hone : (1 : UInt8) ≤ s.hopLimit := by
    rw [UInt8.le_iff_toNat_le]
    exact UInt8.lt_iff_toNat_lt.mp hpos
  have hless : (s.forwarded).hopLimit = s.hopLimit - 1 := rfl
  refine ⟨_, (frame_fragmentOf hs hi).decodes, ?_⟩
  rw [(frameHeader_spec hs hi).2.1, hless, UInt8.toNat_sub_of_le _ _ hone]
  exact Nat.sub_add_cancel (UInt8.le_iff_toNat_le.mp hone)

omit [DecidableEq ρ] in
/-- A slot with no hops left is not forwarded: nothing is sent, and no
observer is told of a forward. -/
theorem dispatch_no_hops {t : RadioTransport b ρ} {radios : Radios ρ}
    {s : ReassemblyRecord} (hhops : s.hopLimit = 0) :
    sentFrames (t.dispatch radios s) = []
      ∧ ∀ message result, .messageForwarded message result ∉ t.dispatch radios s := by
  have hnot : ¬ s.hopLimit > 0 := by
    rw [hhops]
    decide
  by_cases hto : s.destination = t.localNode ∨ s.destination = broadcastNode
  · rw [RadioTransport.dispatch_local hto]
    refine ⟨?_, fun message result hmem => ?_⟩
    · split <;> rfl
    · split at hmem <;> simp at hmem
  · rw [RadioTransport.dispatch_exhausted hto hnot]
    exact ⟨rfl, fun _ _ => List.not_mem_nil⟩

/-- After any run: of a packet taken into slot `j`, every frame sent on
has one hop less than the packet that opened the slot, which is fewer
than every stored fragment came with exactly if none came with fewer
than the opener; and if the opener had none, nothing is forwarded. -/
theorem forward_hops (hr : r.Reached) (radios : Radios ρ)
    (htake : r.transport.takes packet = some j) :
    ∃ opener rest, r.entered packet j = opener :: rest
      ∧ (∀ frame ∈ sentFrames (r.transport.processInboundPacket radios packet).2,
        ∃ h, decodeHeader frame = some h
          ∧ h.hopLimit.toNat + 1 = opener.header.hopLimit.toNat
          ∧ ((∀ f, TakenFragment.Kept (opener :: rest) f →
              h.hopLimit < f.header.hopLimit)
            ↔ ∀ f, TakenFragment.Kept (opener :: rest) f →
              opener.header.hopLimit ≤ f.header.hopLimit))
      ∧ (opener.header.hopLimit = 0 →
        sentFrames (r.transport.processInboundPacket radios packet).2 = []
          ∧ ∀ message result, .messageForwarded message result ∉
            (r.transport.processInboundPacket radios packet).2) := by
  obtain ⟨hs, hall⟩ := hr.opened_with
  have hin := RadioTransport.receiveFragment_inbound hs.toSound packet
  rw [show (r.transport.receiveFragment packet).2 = some j from htake] at hin
  obtain ⟨opener, rest, hledger, hhop⟩ :=
    opened_with_rule.entered hs hall hin.taken_used
  refine ⟨opener, rest, hledger, ?_⟩
  rcases RadioTransport.processInboundPacket_cases hs.toSound radios packet with
    ⟨heq, -⟩ | ⟨i, hi, -, heq⟩
  · rw [heq]
    refine ⟨fun frame hframe => ?_, fun _ => ⟨rfl, fun _ _ => List.not_mem_nil⟩⟩
    exact absurd hframe List.not_mem_nil
  · obtain rfl := Option.some.inj (htake.symm.trans hi)
    rw [heq]
    refine ⟨fun frame hframe => ?_, fun hnone => dispatch_no_hops (hhop.trans hnone)⟩
    obtain ⟨h, hd, hless⟩ := dispatch_hops hframe
    rw [hhop] at hless
    refine ⟨h, hd, hless, forall_congr' fun f => imp_congr_right fun _ => ?_⟩
    rw [UInt8.lt_iff_toNat_lt, UInt8.le_iff_toNat_le]
    omega

-- ======================================================= over a longer way

/-- Two bytes from node 1 to node 3. -/
def onward : Outbound :=
  { source := 1, destination := 3, channel := 7, messageId := 1, hopLimit := 3
    payload := [0xA1, 0xA2] }

/-- Node 2, which sends everything out on one interface, has the first
byte, with three hops left. -/
def onwardHalf : Recorded .defaults Unit :=
  Observed.run after (create 2 4)
    [⟨openRadios, .addInterface () true⟩,
      ⟨openRadios, .processInboundPacket (frame onward 1 0)⟩]

theorem onwardHalf_reached : onwardHalf.Reached := ⟨2, 4, _, rfl⟩

/-- The second byte, of a copy with no hops left. -/
def exhaustedSecond : List UInt8 := frame (onward.withHops 0) 1 1

/-- The copy's second byte goes into the slot that waits for it. -/
theorem exhaustedSecond_taken : onwardHalf.transport.takes exhaustedSecond = some 0 := by
  decide

/-- What is sent on then has one hop less than the first byte came
with. -/
theorem exhaustedSecond_hops :
    ∃ opener rest, onwardHalf.entered exhaustedSecond 0 = opener :: rest
      ∧ (∀ frame ∈ sentFrames
          (onwardHalf.transport.processInboundPacket openRadios exhaustedSecond).2,
        ∃ h, decodeHeader frame = some h
          ∧ h.hopLimit.toNat + 1 = opener.header.hopLimit.toNat
          ∧ ((∀ f, TakenFragment.Kept (opener :: rest) f →
              h.hopLimit < f.header.hopLimit)
            ↔ ∀ f, TakenFragment.Kept (opener :: rest) f →
              opener.header.hopLimit ≤ f.header.hopLimit))
      ∧ (opener.header.hopLimit = 0 →
        sentFrames
            (onwardHalf.transport.processInboundPacket openRadios exhaustedSecond).2 = []
          ∧ ∀ message result, .messageForwarded message result ∉
            (onwardHalf.transport.processInboundPacket openRadios exhaustedSecond).2) :=
  forward_hops onwardHalf_reached openRadios exhaustedSecond_taken

/-- A fragment that is stored with no hops left is sent on with two: the
slot has the hop limit of the first. -/
theorem later_fragment_gains_hops :
    (∃ f, TakenFragment.Kept (onwardHalf.entered exhaustedSecond 0) f
        ∧ f.header.hopLimit = 0)
      ∧ sentFrames
          (onwardHalf.transport.processInboundPacket openRadios exhaustedSecond).2
        = frames (onward.withHops 2) 17 1 := by
  constructor
  · refine ⟨⟨frameHeader (onward.withHops 0) 1 1, [0xA2]⟩, ?_, rfl⟩
    unfold TakenFragment.Kept
    decide
  · rcases RadioTransport.processInboundPacket_cases
        onwardHalf_reached.opened_with.1.toSound openRadios exhaustedSecond with
      ⟨-, hmore⟩ | ⟨i, hi, -, heq⟩
    · have := hmore 0 exhaustedSecond_taken
      revert this
      decide
    · obtain rfl := Option.some.inj (exhaustedSecond_taken.symm.trans hi)
      have hforwarded : ((onwardHalf.transport.receiveFragment
          exhaustedSecond).1.reassemblies 0).forwarded = onward.withHops 2 := rfl
      have hguard : SendViaGuard .defaults openRadios () (onward.withHops 2).payload :=
        ⟨rfl, by decide, by decide, by decide, by decide⟩
      have hsend : (onwardHalf.transport.receiveFragment exhaustedSecond).1.sendFramed
            openRadios (onward.withHops 2)
          = sendVia .defaults openRadios () (RadioAddress.broadcast 5)
            (onward.withHops 2) :=
        RadioTransport.sendFramed_default (by decide) rfl rfl rfl
      rw [heq, RadioTransport.dispatch_forward (by decide) (by decide), sentFrames_append,
        sentFrames_map_radioSend, hforwarded, hsend,
        (sendVia_frames (sendVia_ok hguard fun _ => rfl)).2]
      rfl

end Recorded

end EspressioRadio
