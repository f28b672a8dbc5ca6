/-
A message number used again.

Numbers repeat after 65535 sends, and nothing at a receiver ages: its
ring and its slots keep an identity until other messages push it out.
So a new message is delivered unless the receiver still knows its
identity (`new_message_delivered`), and it knows it only from an older
message of the same sender, destination and channel, a multiple of 65535
sends back. `reused_identity_suppressed` is a run where that happens:
the older message is the only one node 2 ever saw, and the new one is
dropped as its duplicate.
-/
import EspressioRadio.Proofs.Network.Integrity

namespace EspressioRadio

open Chunks

variable {b : Bounds} {ρ ν : Type}

namespace RadioTransport

variable {t : RadioTransport b ρ}

/-- An accepted unicast has sent its fragments in order. -/
theorem send_frames {radios : Radios ρ} {destination : RadioNodeId}
    {channel : RadioChannel} {bytes : List UInt8}
    (hd : destination ≠ broadcastNode)
    (hok : (t.send radios destination channel (.data bytes)).2.1.ok = true) :
    ∃ c, Sendable bytes c
      ∧ sentFrames (t.send radios destination channel (.data bytes)).2.2
        = frames (t.outbound destination channel bytes) c
          (chunkCount bytes.length c) := by
  by_cases hbad : destination = 0 ∨ destination = t.localNode
  · have : (t.send radios destination channel (.data bytes)).2.1.ok = false := by
      unfold send
      dsimp only
      rw [if_pos hbad]
      rfl
    rw [this] at hok
    cases hok
  · obtain ⟨-, heq⟩ := send_valid t radios channel hbad
      (show (PayloadArgument.data bytes).get? = some bytes from rfl)
    rw [heq] at hok ⊢
    obtain ⟨c, hs, hcalls⟩ := sendFramed_frames t hd hok
    refine ⟨c, hs, ?_⟩
    dsimp only
    rw [sentFrames_append, sentFrames_map_radioSend, hcalls]
    exact List.append_nil _

end RadioTransport

namespace Network

open RadioTransport

variable {localNode : ν → RadioNodeId}
  {defaultHopLimit : ν → UInt8} {net : Network b ρ ν}

/-- A node knows only identities some node sent, and of the next message
of `s` only one that an older message of `s` had. -/
theorem Accounted.knows_older (hacc : net.Accounted localNode defaultHopLimit)
    (hinj : Function.Injective localNode) {n s : ν} {destination : RadioNodeId}
    {channel : RadioChannel} {bytes : List UInt8}
    (hk : (net.node n).Knows ((net.node s).outbound destination channel bytes).identity) :
    ∃ k old, (net.sends s)[k]? = some old
      ∧ old.identity = ((net.node s).outbound destination channel bytes).identity
      ∧ 65535 ∣ (net.sends s).length - k := by
  have hsent : ∃ s', net.Sent s'
      ((net.node s).outbound destination channel bytes).identity := by
    rcases hk with hr | ⟨i, hu, hid⟩
    · exact hacc.recent n _ hr
    · obtain ⟨s', hs', -⟩ := hacc.slot n i hu
      exact ⟨s', hid ▸ hs'⟩
  obtain ⟨s', old, hold, hid⟩ := hsent
  obtain ⟨k, hlt, rfl⟩ := List.getElem_of_mem hold
  have hget := List.getElem?_eq_getElem hlt
  obtain ⟨hsrc, hmid, -⟩ := hacc.sent s' k _ hget
  have hid' := hid
  unfold Outbound.identity at hid'
  injection hid' with hsrc' _ _ hmid'
  have hss : s' = s := hinj (hsrc.symm.trans (hsrc'.trans (hacc.localNode_eq s)))
  subst hss
  refine ⟨k, _, hget, hid, ?_⟩
  have hnum := hmid.symm.trans ((congrArg UInt16.toNat hmid').trans (hacc.next_eq s'))
  omega

variable [DecidableEq ρ] [DecidableEq ν]

/-- The identity of the message node `s` sends next with these arguments:
the arguments, its own id and the number it is at. -/
def nextIdentity (localNode : ν → RadioNodeId) (net : Network b ρ ν) (s : ν)
    (destination : RadioNodeId) (channel : RadioChannel) : MessageIdentity where
  source := localNode s
  destination := destination
  channel := channel
  messageId := (net.node s).nextMessageId

/-- A message sent now by node `s` to node `n`, whose fragments reach
node `n` in order with nothing in between. `others` is what node `n` does
before they arrive. Unless node `n` knows the message's identity when it
is sent, the receiver is called once, with exactly the bytes, the channel
and the two ids of that `Send`; and it knows the identity only from an
older message of `s` to `n` on this channel, a multiple of 65535 sends
back. -/
theorem new_message_delivered (hr : Reachable localNode defaultHopLimit net)
    (hinj : Function.Injective localNode) {s n : ν}
    (hs0 : localNode s ≠ 0) (hn0 : localNode n ≠ 0)
    (hn1 : localNode n ≠ broadcastNode) (hsn : s ≠ n) {radios : Radios ρ}
    {channel : RadioChannel} {bytes : List UInt8}
    (hok : ((net.node s).send radios (localNode n) channel
      (.data bytes)).2.1.ok = true)
    (hroom : ∀ packet ∈ sentFrames ((net.node s).send radios (localNode n)
        channel (.data bytes)).2.2,
      ∀ h, decodeHeader packet = some h →
        h.fragmentCount.toNat * h.chunkBytes.toNat ≤ b.maxMessageBytes)
    {others : List (Input ρ)}
    (hothers : ∀ input ∈ others,
      Avoids (nextIdentity localNode net s (localNode n) channel) input)
    (hreceiver : (Observed.run after (net.node n) others).receiver = true)
    (arriving : Nat → Radios ρ) :
    (¬ (net.node n).Knows (nextIdentity localNode net s (localNode n) channel) →
      receiverMessages (Observed.trace after effects
          (Observed.run after (net.node n) others)
          (arrivals arriving (sentFrames ((net.node s).send radios (localNode n)
            channel (.data bytes)).2.2)))
        = [{ sourceNode := localNode s
             destinationNode := localNode n
             channel := channel
             messageId := (net.node s).nextMessageId
             payload := bytes }])
      ∧ ((net.node n).Knows (nextIdentity localNode net s (localNode n) channel) →
        ∃ k old, (net.sends s)[k]? = some old
          ∧ old.identity = nextIdentity localNode net s (localNode n) channel
          ∧ 65535 ∣ (net.sends s).length - k) := by
  have hacc := hr.accounted
  have hidentity : nextIdentity localNode net s (localNode n) channel
      = ((net.node s).outbound (localNode n) channel bytes).identity := by
    unfold nextIdentity outbound Outbound.identity
    rw [hacc.localNode_eq]
  have hview : (⟨localNode s, localNode n, channel, (net.node s).nextMessageId, bytes⟩ :
      RadioTransportMessageView)
      = ((net.node s).outbound (localNode n) channel bytes).view := by
    unfold outbound Outbound.view
    rw [hacc.localNode_eq]
  rw [hidentity] at hothers ⊢
  rw [hview]
  refine ⟨fun hnew => ?_, fun hk => hacc.knows_older hinj hk⟩
  obtain ⟨c, hsend, hframes⟩ := send_frames hn1 hok
  rw [hframes] at hroom ⊢
  generalize hm : (net.node s).outbound (localNode n) channel bytes = m
    at hnew hothers hroom ⊢
  have hpay : m.payload = bytes := by rw [← hm]; rfl
  have hsrc : m.source = localNode s := by rw [← hm]; exact hacc.localNode_eq s
  have hdst : m.destination = localNode n := by rw [← hm]; rfl
  rw [← hpay] at hsend hroom ⊢
  -- the state the first fragment finds
  obtain ⟨hstable, hlocal, hold⟩ :=
    Observed.invariant_along
      (P := fun t : RadioTransport b ρ =>
        t.Stable ∧ t.localNode = localNode n ∧ ¬ t.Knows m.identity)
      (fun t input havoid ⟨hst, hl, hk⟩ =>
        ⟨hst.after input, (after_localNode _ input).trans hl,
          fun hk' => hk (knows_after hst havoid hk')⟩)
      ⟨hacc.stable n, hacc.localNode_eq n, hnew⟩
      (Observed.along_of_forall hothers (net.node n))
  have hsize : chunkCount m.payload.length c * c ≤ b.maxMessageBytes := by
    have hpos := chunkCount_pos (n := m.payload.length) hsend.chunk_pos
    obtain ⟨-, -, -, hcount, hchunk, -⟩ := frameHeader_spec hsend hpos
    have := hroom (frame m c 0)
      (List.mem_map.mpr ⟨0, List.mem_range.mpr hpos, rfl⟩) _
      (frame_fragmentOf hsend hpos).decodes
    rwa [hcount, hchunk] at this
  exact in_order_delivered hstable
    ⟨hsend, hsize, by rw [hsrc]; exact hs0,
      by rw [hsrc, hlocal]; exact fun h => hsn (hinj h), by rw [hdst]; exact hn0⟩
    (fun hr => hold (Or.inl hr)) (fun i hu hid => hold (Or.inr ⟨i, hu, hid⟩))
    arriving (Or.inl (hdst.trans hlocal.symm)) hreceiver

/-- Node 1 has sent node 2 three messages. Of the first only the first
fragment came in, of the second only the second, the third came in
whole. -/
def pairLossy : Network .defaults Unit Bool :=
  let net := pairReady.call false ⟨narrowRadios, .send 2 7 (.data [0x11, 0x22])⟩
  let net := net.call false ⟨narrowRadios, .send 2 7 (.data [0x33, 0x44])⟩
  let net := (net.receiveNth true openRadios 0).receiveNth true openRadios 3
  let net := net.call false ⟨openRadios, .send 2 7 (.data [0x55])⟩
  net.receiveNth true openRadios 4

theorem pairLossy_reachable : Reachable pairNode (fun _ => 4) pairLossy := by
  have hsent := (pairReady_reachable.send false narrowRadios 2 7
    (.data [0x11, 0x22])).send false narrowRadios 2 7 (.data [0x33, 0x44])
  have hheard := (hsent.receiveNth true openRadios 0).receiveNth true openRadios 3
  exact (hheard.send false openRadios 2 7 (.data [0x55])).receiveNth true openRadios 4

/-- The first fragment of the first message once more. -/
def pairLossyAgain : List (Input Unit) :=
  [⟨openRadios, .processInboundPacket
    (frame { pairMessage with payload := [0x11, 0x22] } 1 0)⟩]

/-- Node 2 has two reassemblies that will stay open and one entry in its
ring: the fourth message, in two fragments, gets through, though a copy of
the first message's fragment comes in before it. -/
theorem pairLossy_message_delivered :
    ¬ (pairLossy.node true).Knows ⟨1, 2, 7, 4⟩
      ∧ receiverMessages (Observed.trace after effects
          (Observed.run after (pairLossy.node true) pairLossyAgain)
          (arrivals (fun _ => openRadios) (sentFrames ((pairLossy.node false).send
            narrowRadios 2 7 (.data [0xAB, 0xCD])).2.2)))
        = [⟨1, 2, 7, 4, [0xAB, 0xCD]⟩] := by
  have hunknown : ¬ (pairLossy.node true).Knows ⟨1, 2, 7, 4⟩ := by
    unfold Knows Remembers
    decide +kernel
  have hidentity : nextIdentity pairNode pairLossy false 2 7 = ⟨1, 2, 7, 4⟩ := by
    decide +kernel
  have hok : ((pairLossy.node false).send narrowRadios (pairNode true) 7
      (.data [0xAB, 0xCD])).2.1.ok = true := by decide +kernel
  have hreceiver : (Observed.run after (pairLossy.node true) pairLossyAgain).receiver
      = true := by decide +kernel
  have hnew := (new_message_delivered (s := false) (n := true) pairLossy_reachable
    pairNode_injective (by decide) (by decide) (by decide) (by decide) hok ?_ ?_ hreceiver
    fun _ => openRadios).1 (hidentity ▸ hunknown)
  · refine ⟨hunknown, hnew.trans ?_⟩
    decide +kernel
  · have hall : ∀ packet ∈ sentFrames ((pairLossy.node false).send
        narrowRadios 2 7 (.data [0xAB, 0xCD])).2.2, ∀ h ∈ decodeHeader packet,
          h.fragmentCount.toNat * h.chunkBytes.toNat ≤ 4096 := by
      decide +kernel
    exact fun packet hpacket h hd => hall packet hpacket h hd
  · intro input hinput packet h hcall hd hid
    obtain rfl := List.mem_singleton.mp hinput
    cases hcall
    have hfirst : (decodeHeader (frame { pairMessage with payload := [0x11, 0x22] } 1 0)).map
        WireHeader.identity = some ⟨1, 2, 7, 1⟩ := by decide
    rw [hd, Option.map_some, hid] at hfirst
    exact absurd (Option.some.inj hfirst) (hidentity ▸ by decide)

-- =================================================== a number used again

/-- Node 1 sends an empty message to some third node. -/
def idle (net : Network .defaults Unit Bool) : Network .defaults Unit Bool :=
  net.call false ⟨openRadios, .send 3 7 (.data [])⟩

/-- Node 2 has received message 1 of node 1, which has sent elsewhere
since, until its message numbers start over. -/
def reusedNet : Network .defaults Unit Bool := idle^[65534] pairDelivered

/-- What the idle sends change: node 1's message number. -/
theorem idle_iterate (k : Nat) :
    Reachable pairNode (fun _ => 4) (idle^[k] pairDelivered)
      ∧ (idle^[k] pairDelivered).node true = pairDelivered.node true
      ∧ PairSender ((idle^[k] pairDelivered).node false)
      ∧ ((idle^[k] pairDelivered).sends false).length = k + 1 := by
  induction k with
  | zero => exact ⟨pairDelivered_reachable, rfl, pairReady_sender.advance, rfl⟩
  | succ k ih =>
      rw [Function.iterate_succ_apply']
      obtain ⟨hreach, hnode, hsender, hlen⟩ := ih
      generalize idle^[k] pairDelivered = net at hreach hnode hsender hlen ⊢
      have hcall : ∀ packet, (Call.send 3 7 (.data []) : Call Unit)
          ≠ .processInboundPacket packet := fun _ h => by cases h
      have hsent : ((net.node false).send openRadios 3 7 (.data [])).1
          = (net.node false).advanceMessageId :=
        (hsender.send (by decide) (by decide) (by decide) (by decide)
          ⟨by decide, by decide, by decide⟩).1
      refine ⟨hreach.step (.call _ _ hcall), ?_, ?_, ?_⟩
      · rw [← hnode]
        exact call_node_ne (by decide)
      · unfold idle
        rw [call_node_self]
        show PairSender (net.node false |>.send openRadios 3 7 (.data [])).1
        rw [hsent]
        exact hsender.advance
      · unfold idle
        rw [call_sends_self, List.length_append, hlen]
        dsimp only [framing]
        rw [if_neg (by rw [hsender.localNode_eq]; decide)]
        rfl

theorem reusedNet_spec :
    Reachable pairNode (fun _ => 4) reusedNet
      ∧ reusedNet.node true = pairDelivered.node true
      ∧ PairSender (reusedNet.node false)
      ∧ (reusedNet.sends false).length = 65535 := by
  obtain ⟨hreach, hnode, hsender, hlen⟩ := idle_iterate 65534
  unfold reusedNet
  exact ⟨hreach, hnode, hsender, hlen.trans (by norm_num)⟩

/-- Node 2 still remembers the message it received. -/
theorem pairDelivered_remembers :
    (pairDelivered.node true).Remembers pairMessage.identity := by
  have hadm : (pairSent.node true).Admits pairMessage 17 :=
    ⟨pairMessage_sendable, by decide, by decide, by decide, by decide⟩
  exact in_order_remembers (pairSent_reachable.accounted.stable true) hadm
    (by rintro ⟨i, hi, -⟩; cases hi) (by intro j hj; cases hj)
    (fun _ => openRadios)

/-- With its message numbers used up once, node 1's next message for node
2 is taken for the first one. -/
theorem reused_suppressed {net : Network .defaults Unit Bool}
    (hreach : Reachable pairNode (fun _ => 4) net)
    (hnode : net.node true = pairDelivered.node true)
    (hsender : PairSender (net.node false))
    (hlen : (net.sends false).length = 65535) :
    ((net.node false).send openRadios 2 7 (.data [0xCD])).2.1.ok = true
      ∧ (∀ packet ∈ sentFrames
          ((net.node false).send openRadios 2 7 (.data [0xCD])).2.2,
        ∀ h, decodeHeader packet = some h →
          h.fragmentCount.toNat * h.chunkBytes.toNat ≤ 4096)
      ∧ receiverMessages (Observed.trace after effects (net.node true)
          (arrivals (fun _ => openRadios) (sentFrames
            ((net.node false).send openRadios 2 7 (.data [0xCD])).2.2)))
        = [] := by
  have hid : (net.node false).nextMessageId = 1 := by
    rw [← UInt16.toNat_inj, hreach.accounted.next_eq false, hlen]
    rfl
  have hsendable : Sendable [0xCD] 17 := ⟨by decide, by decide, by decide⟩
  have hpos : 0 < chunkCount [(0xCD : UInt8)].length 17 := by decide
  obtain ⟨hok, hframes⟩ : ((net.node false).send openRadios 2 7
        (.data [0xCD])).2.1.ok = true
      ∧ sentFrames ((net.node false).send openRadios 2 7 (.data [0xCD])).2.2
        = frames ((net.node false).outbound 2 7 [0xCD]) 17 1 :=
    (hsender.send (by decide) (by decide) (by decide) (by decide) hsendable).2
  -- 65535 sends later the counter is back at 1, so the identity is the first
  -- message's
  have hidentity : ((net.node false).outbound 2 7 [0xCD]).identity
      = pairMessage.identity := by
    unfold outbound
    rw [hid, hsender.localNode_eq]
    rfl
  refine ⟨hok, ?_, ?_⟩
  · intro packet hp h hd
    rw [hframes] at hp
    obtain rfl := List.mem_singleton.mp hp
    rw [(frame_fragmentOf (m := (net.node false).outbound 2 7 [0xCD]) hsendable
      hpos).decodes] at hd
    obtain rfl := Option.some.inj hd
    obtain ⟨-, -, -, hcount, hchunk, -⟩ := frameHeader_spec
      (m := (net.node false).outbound 2 7 [0xCD]) hsendable hpos
    rw [hcount, hchunk]
    show chunkCount [(0xCD : UInt8)].length 17 * 17 ≤ 4096
    decide
  · rw [hframes, (remembered_ignored (fun _ => openRadios)
      (m := (net.node false).outbound 2 7 [0xCD]) hsendable
      (by rw [hnode, hidentity]; exact pairDelivered_remembers)
      (show 1 ≤ chunkCount [(0xCD : UInt8)].length 17 from hpos)).2]
    rfl

/-- Not every new message gets through: message 1 used again, for
another payload, is accepted by its sender, arrives whole and in order,
and never reaches the receiver. -/
theorem reused_identity_suppressed :
    Reachable pairNode (fun _ => 4) reusedNet
      ∧ (reusedNet.node true).receiver = true
      ∧ ((reusedNet.node false).send openRadios 2 7 (.data [0xCD])).2.1.ok = true
      ∧ (∀ packet ∈ sentFrames
          ((reusedNet.node false).send openRadios 2 7 (.data [0xCD])).2.2,
        ∀ h, decodeHeader packet = some h →
          h.fragmentCount.toNat * h.chunkBytes.toNat ≤ 4096)
      ∧ receiverMessages (Observed.trace after effects (reusedNet.node true)
          (arrivals (fun _ => openRadios) (sentFrames
            ((reusedNet.node false).send openRadios 2 7 (.data [0xCD])).2.2)))
        ≠ [{ sourceNode := 1
             destinationNode := 2
             channel := 7
             messageId := (reusedNet.node false).nextMessageId
             payload := [0xCD] }] := by
  obtain ⟨hreach, hnode, hsender, hlen⟩ := reusedNet_spec
  obtain ⟨hok, hsize, hnone⟩ := reused_suppressed hreach hnode hsender hlen
  refine ⟨hreach, ?_, hok, hsize, ?_⟩
  · rw [hnode]
    rfl
  · rw [hnone]
    exact (List.cons_ne_nil _ _).symm

end Network

end EspressioRadio
