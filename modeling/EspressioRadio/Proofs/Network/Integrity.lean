/-
Payload integrity across a network: whatever a node hands its receiver
is what some public `Send` passed in, byte for byte.

The invariant `Intact` speaks of contents where `Accounted` speaks of
identities. Its one delicate step is a fragment stored next to others
(`Intact.slot_receive`): the fragments may come from copies forwarded
along different paths and cut at different times, and they agree because
they carry one identity and no two messages do. That last point is
`Accounted.unique`, and it is where the bound on the number of sends is
used: past 65535 a sender's message numbers repeat.
-/
import EspressioRadio.Proofs.Arrival
import EspressioRadio.Proofs.Network.Accounts

namespace EspressioRadio

variable {b : Bounds} {ρ ν : Type}

namespace Network

variable {localNode : ν → RadioNodeId} {defaultHopLimit : ν → UInt8}
  {net : Network b ρ ν}

/-- Short of 65536 sends a node, an identity belongs to one message. -/
theorem Accounted.unique (hacc : net.Accounted localNode defaultHopLimit)
    (hinj : Function.Injective localNode)
    (hfew : ∀ s, (net.sends s).length ≤ 65535) {s s' : ν} {m m' : Outbound}
    (hm : m ∈ net.sends s) (hm' : m' ∈ net.sends s')
    (hid : m.identity = m'.identity) : m = m' := by
  obtain ⟨k, hk, rfl⟩ := List.getElem_of_mem hm
  obtain ⟨k', hk', rfl⟩ := List.getElem_of_mem hm'
  have h1 := hacc.sent s k _ (List.getElem?_eq_getElem hk)
  have h2 := hacc.sent s' k' _ (List.getElem?_eq_getElem hk')
  unfold Outbound.identity at hid
  injection hid with hsrc _ _ hmid
  have hs : s = s' := hinj (h1.1.symm.trans (hsrc.trans h2.1))
  subst hs
  have hnum := h1.2.1.symm.trans ((congrArg UInt16.toNat hmid).trans h2.2.1)
  have hbound := hfew s
  have hkk : k = k' := by omega
  subst hkk
  rfl

-- ========================================================== the invariant

/-- The message was passed to a public `Send` of node `s`. -/
structure Intact (net : Network b ρ ν) : Prop where
  air : ∀ flight ∈ net.air, ∃ s, ∃ m ∈ net.sends s, ∃ h,
    FragmentOf m.identity m.payload flight.frame h
  slot : ∀ n i, ((net.node n).reassemblies i).used = true →
    ∃ s, ∃ m ∈ net.sends s, ((net.node n).reassemblies i).identity = m.identity
      ∧ ((net.node n).reassemblies i).Carries m.payload
  delivered : ∀ d ∈ net.delivered, ∃ s, ∃ m ∈ net.sends s, d.2 = m.view

theorem intact_create :
    (create localNode defaultHopLimit : Network b ρ ν).Intact where
  air := fun _ hf => by cases hf
  slot := fun _ _ hu => by cases hu
  delivered := fun _ hd => by cases hd

-- ============================================================= receiving

section Incoming

variable {n : ν} {radios : Radios ρ} {flight : Flight}
  (hacc : net.Accounted localNode defaultHopLimit)
  (hinj : Function.Injective localNode)
  (hfew : ∀ s, (net.sends s).length ≤ 65535)
  (hint : net.Intact) (hair : flight ∈ net.air)

include hacc hinj hfew hint hair

/-- The slots of the receiving node, before the completion test. -/
theorem Intact.slot_receive {j : Fin b.maxReassemblies}
    (hu : (((net.node n).receiveFragment flight.frame).1.reassemblies j).used
      = true) :
    ∃ s, ∃ m ∈ net.sends s,
      (((net.node n).receiveFragment flight.frame).1.reassemblies j).identity
        = m.identity
      ∧ (((net.node n).receiveFragment flight.frame).1.reassemblies j).Carries
        m.payload := by
  have hs := (hacc.stable n).toSound
  obtain ⟨s, m, hm, h, hf⟩ := hint.air flight hair
  have hdec : ∀ h', decodeHeader flight.frame = some h' → h' = h := fun h' hd => by
    rw [hf.decodes] at hd
    injection hd with hd
    exact hd.symm
  have hin := RadioTransport.receiveFragment_inbound hs flight.frame
  rcases hin.slot_cases hu with ⟨-, heq⟩ | ⟨h', hd, -, hi, hfit, -, heq⟩ |
    ⟨h', hd, -, -, ha, -, heq⟩
  · rw [heq] at hu ⊢
    exact hint.slot n j hu
  · -- stored beside what was there: one identity, so one message of one sender
    obtain rfl := hdec h' hd
    obtain ⟨hused, hid⟩ := ReassemblyRecord.holds_iff.mp hi
    -- stored beside what was there: one identity is one message of one sender
    obtain ⟨s', m', hm', hid', hcar⟩ := hint.slot n j hused
    have hmm : m' = m :=
      hacc.unique hinj hfew hm' hm (hid'.symm.trans (hid.trans hf.identity))
    subst hmm
    refine ⟨s', m', hm', ?_, ?_⟩
    · rw [heq, ReassemblyRecord.store_identity]
      exact hid'
    · rw [heq]
      have hw := hs.slot j hused
      exact ReassemblyRecord.carries_store (hw.touched _) (hcar.touched _)
        ⟨hfit.fragmentCount_eq, hfit.chunkBytes_eq⟩ hf
  · obtain rfl := hdec h' hd
    refine ⟨s, m, hm, ?_, ?_⟩
    · rw [heq, RadioTransport.firstStore_identity]
      exact hf.identity
    · rw [heq]
      exact ReassemblyRecord.carries_store (b := b)
        (ReassemblyRecord.opened_wellFormed (decodeHeader_wellFormed hd) ha)
        (ReassemblyRecord.carries_opened hf) ⟨rfl, rfl⟩ hf

/-- A slot that a fragment from the air completes holds a message some node
sent, byte for byte. -/
theorem Intact.completed {i : Fin b.maxReassemblies}
    (htake : (net.node n).takes flight.frame = some i)
    (hc : (((net.node n).receiveFragment flight.frame).1.reassemblies i).isComplete
      = true) :
    ∃ s, ∃ m ∈ net.sends s,
      (((net.node n).receiveFragment flight.frame).1.reassemblies i).identity
        = m.identity
      ∧ (((net.node n).receiveFragment flight.frame).1.reassemblies i).message
        = m.view := by
  have hs := (hacc.stable n).toSound
  have hin := RadioTransport.receiveFragment_inbound hs flight.frame
  have hsound := hin.sound hs
  unfold RadioTransport.takes at htake
  rw [htake] at hin
  obtain ⟨s, m, hm, hid, hcar⟩ :=
    Intact.slot_receive hacc hinj hfew hint hair hin.taken_used
  have hpay := hcar.message_payload (hsound.slot i hin.taken_used) hc
  exact ⟨s, m, hm, hid, ReassemblyRecord.message_eq_view hid hpay⟩

end Incoming

variable [DecidableEq ν]

/-- A receiving step keeps the contents, while no node has sent more
messages than there are ids. -/
theorem Intact.receive {n : ν} {radios : Radios ρ} {flight : Flight}
    (hint : net.Intact) (hacc : net.Accounted localNode defaultHopLimit)
    (hinj : Function.Injective localNode)
    (hfew : ∀ s, (net.sends s).length ≤ 65535) (hair : flight ∈ net.air) :
    (net.receive n radios flight).Intact := by
  have hs := (hacc.stable n).toSound
  refine ⟨?_, ?_, ?_⟩
  · intro f hf
    rcases List.mem_append.mp hf with hold | hnew
    · exact hint.air f hold
    · -- what is put on the air are fragments of the message completed
      obtain ⟨packet, hp, rfl⟩ := List.mem_map.mp hnew
      rcases RadioTransport.processInboundPacket_cases hs radios flight.frame with
        ⟨heq, -⟩ | ⟨i, htake, hc, heq⟩
      · rw [heq] at hp
        cases hp
      · rw [heq] at hp
        obtain ⟨-, c, k, hsend, hk, rfl⟩ := RadioTransport.dispatch_sentFrames hp
        obtain ⟨s, m, hm, hid, hview⟩ :=
          Intact.completed hacc hinj hfew hint hair htake hc
        have hfrag := frame_fragmentOf hsend hk
        rw [ReassemblyRecord.forwarded_identity, hid,
          ReassemblyRecord.forwarded_payload, hview] at hfrag
        exact ⟨s, m, hm, _, hfrag⟩
  · intro k j hu
    by_cases hk : k = n
    · subst hk
      rw [receive_node_self] at hu ⊢
      have heq := RadioTransport.processInboundPacket_slot hs radios hu
      rw [heq] at hu ⊢
      exact Intact.slot_receive hacc hinj hfew hint hair hu
    · rw [receive_node_ne hk] at hu ⊢
      exact hint.slot k j hu
  · intro d hd
    rcases List.mem_append.mp hd with hold | hnew
    · exact hint.delivered d hold
    · obtain ⟨message, hmsg, rfl⟩ := List.mem_map.mp hnew
      rcases RadioTransport.processInboundPacket_cases hs radios flight.frame with
        ⟨heq, -⟩ | ⟨i, htake, hc, heq⟩
      · rw [heq] at hmsg
        cases hmsg
      · rw [heq] at hmsg
        obtain ⟨s, m, hm, -, hview⟩ :=
          Intact.completed hacc hinj hfew hint hair htake hc
        exact ⟨s, m, hm, (RadioTransport.dispatch_receiverMessages hmsg).trans hview⟩

variable [DecidableEq ρ]

/-- A public call only adds to the messages sent. -/
theorem mem_sends_call {n : ν} {input : Input ρ} {s : ν} {m : Outbound}
    (hm : m ∈ net.sends s) : m ∈ (net.call n input).sends s := by
  by_cases hk : s = n
  · subst hk
    rw [call_sends_self]
    exact List.mem_append_left _ hm
  · rw [call_sends_ne hk]
    exact hm

/-- A public call keeps the contents of slots and frames. -/
theorem Intact.call {n : ν} {input : Input ρ} (hint : net.Intact)
    (hcall : ∀ packet, input.call ≠ .processInboundPacket packet) :
    (net.call n input).Intact := by
  refine ⟨?_, ?_, ?_⟩
  · intro f hf
    rcases List.mem_append.mp hf with hold | hnew
    · obtain ⟨s, m, hm, hfrag⟩ := hint.air f hold
      exact ⟨s, m, mem_sends_call hm, hfrag⟩
    · obtain ⟨packet, hp, rfl⟩ := List.mem_map.mp hnew
      obtain ⟨m, -, hmem, h, hfrag, -⟩ := call_sentFrames hcall hp
      exact ⟨n, m, hmem, h, hfrag⟩
  · intro k j hu
    have hkept := call_slot hcall hu
    rw [hkept] at hu ⊢
    obtain ⟨s, m, hm, hid, hcar⟩ := hint.slot k j hu
    exact ⟨s, m, mem_sends_call hm, hid, hcar⟩
  · intro d hd
    rcases List.mem_append.mp hd with hold | hnew
    · obtain ⟨s, m, hm, hview⟩ := hint.delivered d hold
      exact ⟨s, m, mem_sends_call hm, hview⟩
    · rw [RadioTransport.effects_receiverMessages hcall] at hnew
      cases hnew

/-- A step adds to the messages sent and takes none away. -/
theorem Step.sends_le {net' : Network b ρ ν} (hstep : Step net net') (s : ν) :
    (net.sends s).length ≤ (net'.sends s).length := by
  cases hstep with
  | receive n radios hair => exact Nat.le_refl _
  | call n input hcall =>
      by_cases hk : s = n
      · subst hk
        rw [call_sends_self, List.length_append]
        omega
      · rw [call_sends_ne hk]

/-- Every reachable network with few enough sends is intact. -/
theorem Reachable.intact (hr : Reachable localNode defaultHopLimit net)
    (hinj : Function.Injective localNode)
    (hfew : ∀ s, (net.sends s).length ≤ 65535) : net.Intact := by
  induction hr with
  | create => exact intact_create
  | step hr hstep ih =>
      have hfew' := fun s => Nat.le_trans (hstep.sends_le s) (hfew s)
      cases hstep with
      | receive n radios hair =>
          exact (ih hfew').receive hr.accounted hinj hfew' hair
      | call n input hcall => exact (ih hfew').call hcall

/-- Each message of `sends` is one a call of `Send` asked for, with the
message's destination, channel and payload as its arguments. -/
theorem Reachable.called (hr : Reachable localNode defaultHopLimit net) {s : ν}
    {m : Outbound} (hm : m ∈ net.sends s) :
    net.Called localNode defaultHopLimit s m.destination m.channel m.payload := by
  induction hr with
  | create => cases hm
  | @step net net' hr hstep ih =>
      have hlater : m ∈ net.sends s →
          net'.Called localNode defaultHopLimit s m.destination m.channel m.payload := by
        intro hold
        obtain ⟨before, radios, payload, hbefore, hrun, hbytes⟩ := ih hold
        exact ⟨before, radios, payload, hbefore, hrun.tail hstep, hbytes⟩
      cases hstep with
      | receive n radios hair => exact hlater hm
      | call n input hcall =>
          by_cases hs : s = n
          · subst hs
            rw [call_sends_self] at hm
            rcases List.mem_append.mp hm with hold | hnew
            · exact hlater hold
            · obtain ⟨radios, call⟩ := input
              obtain ⟨destination, channel, payload, bytes, rfl, hbytes, rfl, -⟩ :=
                RadioTransport.framing_send (Option.mem_toList.mp hnew)
              exact ⟨net, radios, payload, hr, .refl, hbytes⟩
          · rw [call_sends_ne hs] at hm
            exact hlater hm

/-- The pair, once node 2 has received the fragment. -/
def pairDelivered : Network .defaults Unit Bool :=
  pairSent.receive true openRadios ⟨frame pairMessage 17 0, 0⟩

theorem pairDelivered_reachable :
    Reachable pairNode (fun _ => 4) pairDelivered :=
  pairSent_reachable.step (.receive _ _ pairSent_air)

/-- Whatever a node hands its receiver is the payload of a public `Send`
that the message's source called on the way, to the same destination on
the same channel, however often and however cut it was forwarded. The
message is one of the `sends`, of which there are few enough for the
numbers not to repeat. -/
theorem delivered_payload_sent (hr : Reachable localNode defaultHopLimit net)
    (hinj : Function.Injective localNode)
    (hfew : ∀ s, (net.sends s).length ≤ 65535) {n : ν}
    {message : RadioTransportMessageView} (hd : (n, message) ∈ net.delivered) :
    ∃ s, localNode s = message.sourceNode
      ∧ net.Called localNode defaultHopLimit s message.destinationNode message.channel
        message.payload
      ∧ ∃ m ∈ net.sends s, m.destination = message.destinationNode
        ∧ m.channel = message.channel ∧ m.payload = message.payload := by
  obtain ⟨s, m, hm, hview⟩ := (hr.intact hinj hfew).delivered _ hd
  have hview' : message = m.view := hview
  subst hview'
  exact ⟨s, (hr.accounted.sent_mem hm).1.symm, hr.called hm, m, hm, rfl, rfl, rfl⟩

/-- What node 3 was handed after a forward by node 2, two duplicates and a
fragment come back to its sender is what node 1 sent. -/
theorem lineDelivered_payload_sent :
    ∃ s, lineNode s = 1
      ∧ lineDelivered.Called lineNode (fun _ => 4) s 3 7 [0xAA, 0xBB]
      ∧ ∃ m ∈ lineDelivered.sends s, m.destination = 3 ∧ m.channel = 7
        ∧ m.payload = [0xAA, 0xBB] :=
  delivered_payload_sent lineDelivered_reachable lineNode_injective (by decide +kernel)
    (show (2, (⟨1, 3, 7, 1, [0xAA, 0xBB]⟩ : RadioTransportMessageView))
        ∈ lineDelivered.delivered by
      rw [lineDelivered_delivered]
      exact List.mem_cons_self)

end Network

end EspressioRadio
