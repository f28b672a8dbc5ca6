/-
Where everything in a network comes from: identities, message numbers
and hops.

`Accounted` holds of every reachable network, however long the run. It
says whose every frame, slot and remembered identity is: some public
`Send`'s. And it keeps the hop account: what a frame or slot has left
plus the forwards behind it is the sender's default. Payloads are not
part of it, since message numbers repeat in long runs; `Integrity` adds
them where they do not.
-/
import EspressioRadio.Proofs.Outside

namespace EspressioRadio

variable {b : Bounds} {ρ ν : Type}

-- ====================================================== message numbers

/-- The message numbers run through 1 to 65535 and start over. -/
theorem RadioTransport.advanceMessageId_toNat {t : RadioTransport b ρ} {k : Nat}
    (ht : t.nextMessageId.toNat = k % 65535 + 1) :
    t.advanceMessageId.nextMessageId.toNat = (k + 1) % 65535 + 1 := by
  have hlt := t.nextMessageId.toNat_lt
  have hadd : (t.nextMessageId + 1).toNat = (k % 65535 + 2) % 65536 := by
    rw [UInt16.toNat_add, ht]
    rfl
  unfold advanceMessageId
  dsimp only
  split
  · next hz =>
    rw [hz] at hadd
    have hadd' : (0 : Nat) = (k % 65535 + 2) % 65536 := hadd
    show 1 = _
    omega
  · next hz =>
    have hne : (t.nextMessageId + 1).toNat ≠ 0 := fun h0 =>
      hz (UInt16.toNat_inj.mp h0)
    rw [hadd] at hne ⊢
    omega

namespace Network

-- ========================================================== the invariant

/-- Some public `Send` of node `s` framed a message of this identity. -/
def Sent (net : Network b ρ ν) (s : ν) (id : MessageIdentity) : Prop :=
  ∃ m ∈ net.sends s, m.identity = id

/-- Where everything in the network comes from: whatever is on the air, in a
slot or remembered names a message sent, ids are counted off by their
sender, and hops and forwards add up to its default hop limit. -/
structure Accounted (localNode : ν → RadioNodeId) (defaultHopLimit : ν → UInt8)
    (net : Network b ρ ν) : Prop where
  stable : ∀ n, (net.node n).Stable
  localNode_eq : ∀ n, (net.node n).localNode = localNode n
  hop_eq : ∀ n, (net.node n).defaultHopLimit = defaultHopLimit n
  next_eq : ∀ n, (net.node n).nextMessageId.toNat = (net.sends n).length % 65535 + 1
  sent : ∀ n k m, (net.sends n)[k]? = some m →
    m.source = localNode n ∧ m.messageId.toNat = k % 65535 + 1
      ∧ m.hopLimit = defaultHopLimit n
  air : ∀ flight ∈ net.air, ∃ s h, decodeHeader flight.frame = some h
    ∧ net.Sent s h.identity
    ∧ h.hopLimit.toNat + flight.depth = (defaultHopLimit s).toNat
  slot : ∀ n i, ((net.node n).reassemblies i).used = true →
    ∃ s, net.Sent s ((net.node n).reassemblies i).identity
      ∧ ((net.node n).reassemblies i).hopLimit.toNat + net.origin n i
        = (defaultHopLimit s).toNat
  recent : ∀ n id, (net.node n).Remembers id → ∃ s, net.Sent s id

variable {localNode : ν → RadioNodeId} {defaultHopLimit : ν → UInt8}
  {net : Network b ρ ν}

/-- In a network just constructed nothing is in flight and no slot is in
use, so there is nothing to account for. -/
theorem accounted_create [DecidableEq ν] :
    (create localNode defaultHopLimit : Network b ρ ν).Accounted localNode
      defaultHopLimit where
  stable := fun _ => RadioTransport.stable_of_empty fun _ => rfl
  localNode_eq := fun _ => rfl
  hop_eq := fun _ => rfl
  next_eq := fun _ => rfl
  sent := fun _ _ _ hm => by cases hm
  air := fun _ hf => by cases hf
  slot := fun _ _ hu => by cases hu
  recent := fun _ _ hr => by
    obtain ⟨_, hu, -⟩ := hr
    cases hu

/-- The messages of the sender, looked up by value. -/
theorem Accounted.sent_mem (hacc : net.Accounted localNode defaultHopLimit)
    {s : ν} {m : Outbound} (hm : m ∈ net.sends s) :
    m.source = localNode s ∧ m.hopLimit = defaultHopLimit s := by
  obtain ⟨k, hk, rfl⟩ := List.getElem_of_mem hm
  have := hacc.sent s k _ (List.getElem?_eq_getElem hk)
  exact ⟨this.1, this.2.2⟩

-- ========================================================= slots' origins

section Origin

variable {n : ν} {flight : Flight} {j : Fin b.maxReassemblies}

/-- The origins of the slots the flight is not taken into stay. -/
theorem originAfter_kept (h : (net.node n).takes flight.frame ≠ some j) :
    net.originAfter n flight j = net.origin n j := by
  unfold originAfter
  cases htake : (net.node n).takes flight.frame with
  | none => rfl
  | some i =>
      dsimp only
      split
      · exact Function.update_of_ne (fun hj : j = i => h (hj ▸ htake)) ..
      · rfl

/-- A fragment stored in a slot that is in use leaves the depth of its
message as it was. -/
theorem originAfter_stored {h : WireHeader}
    (hd : decodeHeader flight.frame = some h)
    (hj : ((net.node n).reassemblies j).holds h = true) :
    net.originAfter n flight = net.origin n := by
  unfold originAfter
  rw [RadioTransport.opens_eq_false hd hj]
  split <;> rfl

/-- A slot that a fragment opens takes over the depth of the flight the
fragment came on. -/
theorem originAfter_opened {h : WireHeader}
    (hd : decodeHeader flight.frame = some h)
    (hn : ∀ i, ((net.node n).reassemblies i).holds h = false)
    (htake : (net.node n).takes flight.frame = some j) :
    net.originAfter n flight j = flight.depth := by
  unfold originAfter
  rw [htake, RadioTransport.opens_eq_true hd hn]
  exact Function.update_self ..

end Origin

-- ============================================================= receiving

section Incoming

variable {n : ν} {radios : Radios ρ} {flight : Flight}
  (hacc : net.Accounted localNode defaultHopLimit) (hair : flight ∈ net.air)

include hacc hair

/-- The slots of the receiving node, before the completion test. -/
theorem Accounted.slot_receive {j : Fin b.maxReassemblies}
    (hu : (((net.node n).receiveFragment flight.frame).1.reassemblies j).used
      = true) :
    ∃ s, net.Sent s
        (((net.node n).receiveFragment flight.frame).1.reassemblies j).identity
      ∧ (((net.node n).receiveFragment flight.frame).1.reassemblies j).hopLimit.toNat
        + net.originAfter n flight j = (defaultHopLimit s).toNat := by
  have hin := RadioTransport.receiveFragment_inbound (hacc.stable n).toSound
    flight.frame
  rcases hin.slot_cases hu with ⟨htake, heq⟩ | ⟨h, hd, -, hi, -, -, heq⟩ |
    ⟨h, hd, -, hn, -, htake, heq⟩
  · rw [originAfter_kept htake, heq]
    rw [heq] at hu
    exact hacc.slot n j hu
  · rw [originAfter_stored hd hi, heq, ReassemblyRecord.store_identity,
      ReassemblyRecord.store_hopLimit]
    exact hacc.slot n j (ReassemblyRecord.holds_iff.mp hi).1
  · obtain ⟨s, h', hd', hs, hhop⟩ := hacc.air flight hair
    rw [hd] at hd'
    injection hd' with hd'
    subst hd'
    rw [originAfter_opened hd hn htake, heq, RadioTransport.firstStore_identity]
    refine ⟨s, hs, ?_⟩
    rw [RadioTransport.firstStore, ReassemblyRecord.store_hopLimit]
    exact hhop

/-- Every frame the receiving node puts on the air names a message sent, and
its hops and forwards add up. -/
theorem Accounted.air_receive {packet : List UInt8}
    (hp : packet ∈ sentFrames
      ((net.node n).processInboundPacket radios flight.frame).2) :
    ∃ s h, decodeHeader packet = some h ∧ net.Sent s h.identity
      ∧ h.hopLimit.toNat + net.forwardDepth n flight
        = (defaultHopLimit s).toNat := by
  have hs := (hacc.stable n).toSound
  rcases RadioTransport.processInboundPacket_cases hs radios flight.frame with
    ⟨heq, -⟩ | ⟨i, htake, -, heq⟩
  · rw [heq] at hp
    cases hp
  · rw [heq] at hp
    obtain ⟨hhop, c, k, hsend, hk, rfl⟩ := RadioTransport.dispatch_sentFrames hp
    have hin := RadioTransport.receiveFragment_inbound hs flight.frame
    have hused : (((net.node n).receiveFragment flight.frame).1.reassemblies i).used
        = true := by
      unfold RadioTransport.takes at htake
      rw [htake] at hin
      exact hin.taken_used
    obtain ⟨s, hsent, hsum⟩ := hacc.slot_receive hair hused
    obtain ⟨hid, hlim, -⟩ := frameHeader_spec hsend hk
    refine ⟨s, _, (frame_fragmentOf hsend hk).decodes, ?_, ?_⟩
    · rw [hid]
      exact hsent
    · rw [hlim]
      have hone : (1 : UInt8)
          ≤ (((net.node n).receiveFragment flight.frame).1.reassemblies i).hopLimit := by
        rw [UInt8.le_iff_toNat_le]
        exact UInt8.lt_iff_toNat_lt.mp hhop
      show (_ - 1 : UInt8).toNat + _ = _
      rw [UInt8.toNat_sub_of_le _ _ hone]
      unfold forwardDepth
      rw [htake]
      have hpos := UInt8.lt_iff_toNat_lt.mp hhop
      have h1 : (1 : UInt8).toNat = 1 := rfl
      have h0 : (0 : UInt8).toNat = 0 := rfl
      dsimp only
      omega

/-- Every identity the receiving node remembers afterwards is that of a
message sent. -/
theorem Accounted.recent_receive {id : MessageIdentity}
    (hr : ((net.node n).processInboundPacket radios flight.frame).1.Remembers id) :
    ∃ s, net.Sent s id := by
  have hs := (hacc.stable n).toSound
  have hin := RadioTransport.receiveFragment_inbound hs flight.frame
  have hold : ((net.node n).receiveFragment flight.frame).1.Remembers id →
      ∃ s, net.Sent s id := by
    intro h
    unfold RadioTransport.Remembers at h
    rw [hin.recent_eq] at h
    exact hacc.recent n id h
  rcases RadioTransport.processInboundPacket_cases hs radios flight.frame with
    ⟨heq, -⟩ | ⟨i, htake, -, heq⟩
  · rw [heq] at hr
    exact hold hr
  · rw [heq] at hr
    rcases RadioTransport.remembers_remember hr with hr' | rfl
    · exact hold hr'
    · unfold RadioTransport.takes at htake
      rw [htake] at hin
      obtain ⟨s, hsent, -⟩ := hacc.slot_receive hair hin.taken_used
      exact ⟨s, hsent⟩

end Incoming

section Receive

variable [DecidableEq ν] {n : ν} {radios : Radios ρ} {flight : Flight}

@[simp] theorem receive_node_self :
    (net.receive n radios flight).node n
      = ((net.node n).processInboundPacket radios flight.frame).1 :=
  Function.update_self ..

theorem receive_node_ne {k : ν} (hk : k ≠ n) :
    (net.receive n radios flight).node k = net.node k :=
  Function.update_of_ne hk ..

@[simp] theorem receive_origin_self :
    (net.receive n radios flight).origin n = net.originAfter n flight :=
  Function.update_self ..

theorem receive_origin_ne {k : ν} (hk : k ≠ n) :
    (net.receive n radios flight).origin k = net.origin k :=
  Function.update_of_ne hk ..

/-- Only the receiving node moves: what holds of every node, and of that one
afterwards, holds of all. -/
theorem receive_nodes {P : ν → RadioTransport b ρ → Prop} (hold : ∀ k, P k (net.node k))
    (hnew : P n ((net.node n).processInboundPacket radios flight.frame).1) (k : ν) :
    P k ((net.receive n radios flight).node k) :=
  (Function.forall_update_iff net.node P).mpr ⟨hnew, fun k _ => hold k⟩ k

variable (hacc : net.Accounted localNode defaultHopLimit) (hair : flight ∈ net.air)

include hacc hair

/-- When a node hears a frame in flight, the network stays accounted for:
what the node stores or passes on stems from that frame. -/
theorem Accounted.receive :
    (net.receive n radios flight).Accounted localNode defaultHopLimit := by
  have hs := (hacc.stable n).toSound
  obtain ⟨hlocal, hhop, hnext, -⟩ :=
    RadioTransport.processInboundPacket_frame (net.node n) radios flight.frame
  refine ⟨?_, ?_, ?_, ?_, hacc.sent, ?_, ?_, ?_⟩
  · apply receive_nodes (P := fun _ t => t.Stable) hacc.stable
    exact (RadioTransport.processInboundPacket_processed hs radios _).stable
      (hacc.stable n)
  · apply receive_nodes (P := fun k t => t.localNode = localNode k) hacc.localNode_eq
    rw [hlocal]
    exact hacc.localNode_eq n
  · apply receive_nodes (P := fun k t => t.defaultHopLimit = defaultHopLimit k)
      hacc.hop_eq
    rw [hhop]
    exact hacc.hop_eq n
  · apply receive_nodes (P := fun k t =>
      t.nextMessageId.toNat = (net.sends k).length % 65535 + 1) hacc.next_eq
    rw [hnext]
    exact hacc.next_eq n
  · intro f hf
    rcases List.mem_append.mp hf with hold | hnew
    · exact hacc.air f hold
    · obtain ⟨packet, hp, rfl⟩ := List.mem_map.mp hnew
      exact hacc.air_receive hair hp
  · intro k j hu
    by_cases hk : k = n
    · subst hk
      rw [receive_node_self] at hu ⊢
      rw [receive_origin_self]
      have heq := RadioTransport.processInboundPacket_slot hs radios hu
      rw [heq] at hu ⊢
      exact hacc.slot_receive hair hu
    · rw [receive_node_ne hk] at hu ⊢
      rw [receive_origin_ne hk]
      exact hacc.slot k j hu
  · apply receive_nodes (P := fun _ t => ∀ id, t.Remembers id → ∃ s, net.Sent s id)
      hacc.recent
    exact fun id => hacc.recent_receive hair

end Receive

-- =============================================================== calling

section Call

variable [DecidableEq ρ] [DecidableEq ν] {n : ν} {input : Input ρ}

@[simp] theorem call_node_self :
    (net.call n input).node n = (net.node n).after input :=
  Function.update_self ..

theorem call_node_ne {k : ν} (hk : k ≠ n) :
    (net.call n input).node k = net.node k :=
  Function.update_of_ne hk ..

@[simp] theorem call_sends_self :
    (net.call n input).sends n
      = net.sends n ++ ((net.node n).framing input.call).toList :=
  Function.update_self ..

theorem call_sends_ne {k : ν} (hk : k ≠ n) :
    (net.call n input).sends k = net.sends k :=
  Function.update_of_ne hk ..

/-- A message that was sent before a call has been sent after it. -/
theorem Sent.call {s : ν} {id : MessageIdentity} (hs : net.Sent s id) :
    (net.call n input).Sent s id := by
  obtain ⟨m, hm, hid⟩ := hs
  refine ⟨m, ?_, hid⟩
  by_cases hk : s = n
  · subst hk
    rw [call_sends_self]
    exact List.mem_append_left _ hm
  · rw [call_sends_ne hk]
    exact hm

/-- Only the calling node moves: what holds of every node, and of that one
afterwards, holds of all. -/
theorem call_nodes {P : ν → RadioTransport b ρ → Prop} (hold : ∀ k, P k (net.node k))
    (hnew : P n ((net.node n).after input)) (k : ν) : P k ((net.call n input).node k) :=
  (Function.forall_update_iff net.node P).mpr ⟨hnew, fun k _ => hold k⟩ k

/-- A slot in use after a public call is as it was. -/
theorem call_slot (hcall : ∀ packet, input.call ≠ .processInboundPacket packet) {k : ν}
    {j : Fin b.maxReassemblies}
    (hu : (((net.call n input).node k).reassemblies j).used = true) :
    ((net.call n input).node k).reassemblies j = (net.node k).reassemblies j := by
  obtain ⟨-, -, hslots⟩ := RadioTransport.after_tables (net.node n) input hcall
  by_cases hk : k = n
  · subst hk
    rw [call_node_self] at hu ⊢
    rcases hslots with hsame | hempty
    · rw [hsame]
    · rw [hempty j] at hu
      cases hu
  · rw [call_node_ne hk]

/-- The message a public `Send` frames is numbered in turn. -/
theorem Accounted.sent_call (hacc : net.Accounted localNode defaultHopLimit) {k : Nat}
    {m : Outbound} (hm : ((net.call n input).sends n)[k]? = some m) :
    m.source = localNode n ∧ m.messageId.toNat = k % 65535 + 1
      ∧ m.hopLimit = defaultHopLimit n := by
  rw [call_sends_self] at hm
  by_cases hj : k < (net.sends n).length
  · rw [List.getElem?_append_left hj] at hm
    exact hacc.sent n k m hm
  · rw [List.getElem?_append_right (by omega)] at hm
    cases hf : (net.node n).framing input.call with
    | none =>
        rw [hf] at hm
        cases hm
    | some m' =>
        rw [hf, Option.toList_some] at hm
        obtain ⟨hlen, heq⟩ := List.getElem?_eq_some_iff.mp hm
        rw [List.length_singleton] at hlen
        have hk : k = (net.sends n).length := by omega
        subst hk
        simp only [Nat.sub_self, List.getElem_cons_zero] at heq
        subst heq
        obtain ⟨hsrc, hmid, hlim, -⟩ := RadioTransport.framing_eq_some hf
        refine ⟨hsrc.trans (hacc.localNode_eq n), ?_, hlim.trans (hacc.hop_eq n)⟩
        rw [hmid]
        exact hacc.next_eq n

/-- What a public call puts on the air is a fragment of the message it
framed. -/
theorem call_sentFrames (hcall : ∀ packet, input.call ≠ .processInboundPacket packet)
    {packet : List UInt8} (hp : packet ∈ sentFrames ((net.node n).effects input)) :
    ∃ m, (net.node n).framing input.call = some m ∧ m ∈ (net.call n input).sends n
      ∧ ∃ h, FragmentOf m.identity m.payload packet h ∧ h.hopLimit = m.hopLimit := by
  obtain ⟨m, hm, c, i, hsend, hi, rfl⟩ := RadioTransport.effects_sentFrames hcall hp
  refine ⟨m, hm, ?_, _, frame_fragmentOf hsend hi, (frameHeader_spec hsend hi).2.1⟩
  rw [call_sends_self, hm]
  exact List.mem_append_right _ (List.mem_singleton.mpr rfl)

/-- When a node makes a call of its own, the network stays accounted for:
the frames it puts on the air start at depth zero. -/
theorem Accounted.call (hacc : net.Accounted localNode defaultHopLimit)
    (hcall : ∀ packet, input.call ≠ .processInboundPacket packet) :
    (net.call n input).Accounted localNode defaultHopLimit := by
  obtain ⟨hlocal, hhop, -, hnext⟩ :=
    RadioTransport.after_sender (t := net.node n) hcall
  refine ⟨?_, ?_, ?_, ?_, ?_, ?_, ?_, ?_⟩
  · apply call_nodes (P := fun _ t => t.Stable) hacc.stable
    exact (hacc.stable n).after input
  · apply call_nodes (P := fun k t => t.localNode = localNode k) hacc.localNode_eq
    rw [hlocal]
    exact hacc.localNode_eq n
  · apply call_nodes (P := fun k t => t.defaultHopLimit = defaultHopLimit k) hacc.hop_eq
    rw [hhop]
    exact hacc.hop_eq n
  · -- ids are counted off: a message framed takes the next one
    intro k
    by_cases hk : k = n
    · subst hk
      rw [call_node_self, call_sends_self, hnext]
      cases (net.node k).framing input.call with
      | none =>
          rw [Option.toList_none, List.append_nil]
          exact hacc.next_eq k
      | some m =>
          rw [Option.toList_some, List.length_append, List.length_singleton]
          exact RadioTransport.advanceMessageId_toNat (hacc.next_eq k)
    · rw [call_node_ne hk, call_sends_ne hk]
      exact hacc.next_eq k
  · -- the messages sent: the calling node may have one more
    intro k j m hm
    by_cases hk : k = n
    · subst hk
      exact hacc.sent_call hm
    · rw [call_sends_ne hk] at hm
      exact hacc.sent k j m hm
  · -- the frames: new ones are the calling node's, with no forward behind them
    intro f hf
    rcases List.mem_append.mp hf with hold | hnew
    · obtain ⟨s, h, hd, hs, hsum⟩ := hacc.air f hold
      exact ⟨s, h, hd, hs.call, hsum⟩
    · obtain ⟨packet, hp, rfl⟩ := List.mem_map.mp hnew
      obtain ⟨m, hm, hmem, h, hfrag, hlim⟩ := call_sentFrames hcall hp
      refine ⟨n, h, hfrag.decodes, ⟨m, hmem, hfrag.identity.symm⟩, ?_⟩
      rw [hlim, (RadioTransport.framing_eq_some hm).2.2.1, hacc.hop_eq n]
      rfl
  · -- the slots: a call but a packet fills none
    intro k j hu
    have hkept := call_slot hcall hu
    rw [hkept] at hu ⊢
    obtain ⟨s, hs, hsum⟩ := hacc.slot k j hu
    exact ⟨s, hs.call, hsum⟩
  · obtain ⟨hrecent, -, -⟩ := RadioTransport.after_tables (net.node n) input hcall
    have hold : ∀ k id, ((net.call n input).node k).Remembers id →
        (net.node k).Remembers id := by
      apply call_nodes (P := fun k t => ∀ id, t.Remembers id → (net.node k).Remembers id)
        (fun _ _ h => h)
      intro id h
      unfold RadioTransport.Remembers at h ⊢
      rwa [hrecent] at h
    intro k id hr
    obtain ⟨s, hs⟩ := hacc.recent k id (hold k id hr)
    exact ⟨s, hs.call⟩

end Call

variable [DecidableEq ρ] [DecidableEq ν]

/-- Every network reached by a run is accounted for. -/
theorem Reachable.accounted (hr : Reachable localNode defaultHopLimit net) :
    net.Accounted localNode defaultHopLimit := by
  induction hr with
  | create => exact accounted_create
  | step _ hstep ih =>
      cases hstep with
      | receive n radios hair => exact ih.receive hair
      | call n input hcall => exact ih.call hcall

-- ============================================================ two nodes

/-- The node ids of the two nodes, 1 and 2. -/
def pairNode : Bool → RadioNodeId := fun n => if n then 2 else 1

theorem pairNode_injective : Function.Injective pairNode := by
  intro x y h
  revert h
  cases x <;> cases y <;> decide

/-- Node 1 has a default interface, node 2 a receiver. -/
def pairReady : Network .defaults Unit Bool :=
  ((create pairNode fun _ => 4).call false ⟨openRadios, .addInterface () true⟩).call
    true ⟨openRadios, .setReceiver true⟩

theorem pairReady_reachable : Reachable pairNode (fun _ => 4) pairReady :=
  (Reachable.create.step (.call _ _ fun _ h => by cases h)).step
    (.call _ _ fun _ h => by cases h)

/-- A transport that sends as node 1 does. -/
structure PairSender (t : RadioTransport .defaults Unit) : Prop where
  localNode_eq : t.localNode = 1
  route_eq : ∀ destination, t.findRoute destination = none
  default_eq : t.findDefaultInterface
    = some { radio := some (), defaultRoute := true }

theorem pairReady_sender : PairSender (pairReady.node false) :=
  ⟨rfl, fun _ => Option.map_eq_none_iff.mpr
    (Fin.find?_eq_none_iff.mpr fun _ => rfl), rfl⟩

theorem PairSender.advance {t : RadioTransport .defaults Unit} (ht : PairSender t) :
    PairSender t.advanceMessageId :=
  ⟨ht.localNode_eq, ht.route_eq, ht.default_eq⟩

/-- A `Send` at node 1 is accepted and puts all fragments of its message on
the air. -/
theorem PairSender.send {t : RadioTransport .defaults Unit} (ht : PairSender t)
    {destination : RadioNodeId} {channel : RadioChannel} {bytes : List UInt8}
    (h0 : destination ≠ 0) (h1 : destination ≠ 1)
    (hb : destination ≠ broadcastNode) (hsize : bytes.length ≤ 4096)
    (hs : Sendable bytes 17) :
    (t.send openRadios destination channel (.data bytes)).1 = t.advanceMessageId
      ∧ (t.send openRadios destination channel (.data bytes)).2.1.ok = true
      ∧ sentFrames (t.send openRadios destination channel (.data bytes)).2.2
        = frames (t.outbound destination channel bytes) 17
          (Chunks.chunkCount bytes.length 17) := by
  have hvia : t.sendFramed openRadios (t.outbound destination channel bytes)
      = sendVia .defaults openRadios () (RadioAddress.broadcast 5)
        (t.outbound destination channel bytes) :=
    RadioTransport.sendFramed_default hb (ht.route_eq destination) ht.default_eq rfl
  have hok : (sendVia .defaults openRadios () (RadioAddress.broadcast 5)
      (t.outbound destination channel bytes)).1.ok = true :=
    sendVia_ok ⟨rfl, hsize, hs⟩ fun _ => rfl
  rw [(RadioTransport.send_valid t openRadios channel
    (by rw [ht.localNode_eq]; exact fun h => h.elim h0 h1) rfl).2]
  refine ⟨rfl, ?_, ?_⟩
  · rw [hvia]
    exact hok
  · dsimp only
    rw [sentFrames_append, sentFrames_map_radioSend, hvia, (sendVia_frames hok).2]
    exact List.append_nil _

/-- Node 1 has sent one byte to node 2. -/
def pairSent : Network .defaults Unit Bool :=
  pairReady.call false ⟨openRadios, .send 2 7 (.data [0xAB])⟩

/-- The message of that byte, as node 1 sends it. -/
def pairMessage : Outbound :=
  { source := 1, destination := 2, channel := 7, messageId := 1, hopLimit := 4,
    payload := [0xAB] }

theorem pairSent_reachable : Reachable pairNode (fun _ => 4) pairSent :=
  pairReady_reachable.step (.call _ _ fun _ h => by cases h)

theorem pairMessage_sendable : Sendable pairMessage.payload 17 :=
  ⟨by decide, by decide, by decide⟩

/-- What node 1 puts on the air with that `Send`: the one fragment of its
message. -/
theorem pairReady_frames :
    sentFrames ((pairReady.node false).send openRadios 2 7 (.data [0xAB])).2.2
      = [frame pairMessage 17 0] :=
  (pairReady_sender.send (by decide) (by decide) (by decide) (by decide)
    pairMessage_sendable).2.2

/-- After that `Send` the message's one fragment is on the air. -/
theorem pairSent_air : ⟨frame pairMessage 17 0, 0⟩ ∈ pairSent.air := by
  refine List.mem_append_right _ (List.mem_map.mpr ⟨_, ?_, rfl⟩)
  show frame pairMessage 17 0 ∈ sentFrames
    ((pairReady.node false).send openRadios 2 7 (.data [0xAB])).2.2
  rw [pairReady_frames]
  exact List.mem_singleton.mpr rfl

-- =========================================================== three nodes

/-- Node `n` receives the `k`-th frame ever put on the air. -/
def receiveNth (net : Network b ρ ν) (n : ν) (radios : Radios ρ) (k : Nat) :
    Network b ρ ν :=
  match net.air[k]? with
  | some flight => net.receive n radios flight
  | none => net

theorem Reachable.receiveNth (hr : Reachable localNode defaultHopLimit net) (n : ν)
    (radios : Radios ρ) (k : Nat) :
    Reachable localNode defaultHopLimit (net.receiveNth n radios k) := by
  unfold Network.receiveNth
  split
  · next hk => exact hr.step (.receive n radios (List.mem_of_getElem? hk))
  · exact hr

theorem Reachable.send (hr : Reachable localNode defaultHopLimit net) (n : ν)
    (radios : Radios ρ) (destination : RadioNodeId) (channel : RadioChannel)
    (payload : PayloadArgument) :
    Reachable localNode defaultHopLimit
      (net.call n ⟨radios, .send destination channel payload⟩) :=
  hr.step (.call n _ fun _ h => by cases h)

/-- The node ids of the three nodes, 1, 2 and 3. -/
def lineNode : Fin 3 → RadioNodeId := fun n => UInt16.ofNat (n.val + 1)

theorem lineNode_injective : Function.Injective lineNode := by
  show ∀ m n : Fin 3, lineNode m = lineNode n → m = n
  decide

/-- The first two with a default interface, the last with a receiver. -/
def lineReady : Network .defaults Unit (Fin 3) :=
  ((create lineNode fun _ => 4).call 0 ⟨openRadios, .addInterface () true⟩
    |>.call 1 ⟨openRadios, .addInterface () true⟩).call 2 ⟨openRadios, .setReceiver true⟩

/-- Node 1 has sent two bytes to node 3, in two fragments, and node 2 has
received and forwarded both. -/
def lineForwarded : Network .defaults Unit (Fin 3) :=
  ((lineReady.call 0 ⟨narrowRadios, .send 3 7 (.data [0xAA, 0xBB])⟩).receiveNth
    1 narrowRadios 0).receiveNth 1 narrowRadios 1

/-- The message of those two bytes, in a copy with this hop limit. -/
def lineMessage (hopLimit : UInt8) : Outbound :=
  { source := 1, destination := 3, channel := 7, messageId := 1, hopLimit := hopLimit,
    payload := [0xAA, 0xBB] }

theorem lineForwarded_reachable : Reachable lineNode (fun _ => 4) lineForwarded := by
  have hready : Reachable lineNode (fun _ => 4) lineReady :=
    ((Reachable.create.step (.call _ _ fun _ h => by cases h)).step
      (.call _ _ fun _ h => by cases h)).step (.call _ _ fun _ h => by cases h)
  exact ((hready.send 0 narrowRadios 3 7 (.data [0xAA, 0xBB])).receiveNth
    1 narrowRadios 0).receiveNth 1 narrowRadios 1

/-- Node 2's copies have one hop less and one forward behind them. -/
theorem lineForwarded_air :
    lineForwarded.air =
      [⟨frame (lineMessage 4) 1 0, 0⟩, ⟨frame (lineMessage 4) 1 1, 0⟩,
        ⟨frame (lineMessage 3) 1 0, 1⟩, ⟨frame (lineMessage 3) 1 1, 1⟩] := by
  decide +kernel

/-- After that, node 3 has received node 2's copies out of order and the
first of them twice, node 2 a duplicate, node 1 its own message back; and
node 3 one more message of node 1's, directly. -/
def lineDelivered : Network .defaults Unit (Fin 3) :=
  let net := lineForwarded.receiveNth 2 openRadios 3
  let net := net.receiveNth 2 openRadios 2
  let net := net.receiveNth 2 openRadios 2
  let net := net.receiveNth 1 narrowRadios 0
  let net := net.receiveNth 0 narrowRadios 2
  let net := net.call 0 ⟨narrowRadios, .send 3 7 (.data [0xCC])⟩
  net.receiveNth 2 openRadios 4

theorem lineDelivered_reachable : Reachable lineNode (fun _ => 4) lineDelivered := by
  have hheard := ((((lineForwarded_reachable.receiveNth 2 openRadios 3).receiveNth
    2 openRadios 2).receiveNth 2 openRadios 2).receiveNth 1 narrowRadios 0).receiveNth
    0 narrowRadios 2
  exact (hheard.send 0 narrowRadios 3 7 (.data [0xCC])).receiveNth 2 openRadios 4

theorem lineDelivered_delivered :
    lineDelivered.delivered =
      [(2, ⟨1, 3, 7, 1, [0xAA, 0xBB]⟩), (2, ⟨1, 3, 7, 2, [0xCC]⟩)] := by
  decide +kernel

-- ================================================================= hops

/-- Every frame on the air has the sender's default hop limit, less one
for each forward behind it: no forwarding chain is longer than that. -/
theorem hop_account (hr : Reachable localNode defaultHopLimit net)
    (hinj : Function.Injective localNode) {flight : Flight}
    (hf : flight ∈ net.air) :
    ∃ h, decodeHeader flight.frame = some h
      ∧ (∃ s, h.source = localNode s)
      ∧ ∀ s, h.source = localNode s →
        h.hopLimit.toNat + flight.depth = (defaultHopLimit s).toNat
          ∧ flight.depth ≤ (defaultHopLimit s).toNat := by
  obtain ⟨s, h, hd, ⟨m, hm, hid⟩, hsum⟩ := hr.accounted.air flight hf
  have hsrc : h.source = localNode s :=
    (congrArg MessageIdentity.source hid).symm.trans
      (hr.accounted.sent_mem hm).1
  refine ⟨h, hd, ⟨s, hsrc⟩, fun s' hs' => ?_⟩
  have hss : s' = s := hinj (hs'.symm.trans hsrc)
  subst hss
  exact ⟨hsum, by omega⟩

/-- The account of a fragment that node 2 put on the air in forwarding: one
hop less than node 1's limit, and one forward behind it. -/
theorem lineForwarded_hop_account :
    ∃ h, decodeHeader (frame (lineMessage 3) 1 0) = some h
      ∧ (∃ s, h.source = lineNode s)
      ∧ ∀ s, h.source = lineNode s → h.hopLimit.toNat + 1 = 4 ∧ 1 ≤ 4 :=
  hop_account lineForwarded_reachable lineNode_injective
    (show ⟨frame (lineMessage 3) 1 0, 1⟩ ∈ lineForwarded.air by
      rw [lineForwarded_air]
      exact List.mem_of_getElem? (show _[2]? = some _ from rfl))

end Network

end EspressioRadio
