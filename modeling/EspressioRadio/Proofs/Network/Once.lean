/-
Duplicate suppression across a whole network.

As long as no more messages were sent than the recent ring has entries,
nothing a node completed is ever pushed out of its ring again. Then a
node completes a message at most once, whatever the links duplicate,
delay or send in circles (`Logged`): it delivers it at most once
(`delivered_once`), and it forwards it at most once, so a flood runs dry
(`air_bounded`): the frames ever on the air are bounded by the messages
sent and the nodes, and neither the hop limits nor the topology has a
say in it.
-/
import EspressioRadio.Proofs.Network.Integrity
import EspressioRadio.Proofs.Recent
import Mathlib.Algebra.BigOperators.Group.Finset.Piecewise
import Mathlib.Algebra.Order.BigOperators.Group.Finset

namespace EspressioRadio

variable {b : Bounds} {ρ ν : Type}

-- ================================================== the frames of one call

/-- One `SendVia` makes 255 calls of the radio at most. -/
theorem sendVia_length_le (radios : Radios ρ) (radio : ρ) (nextHop : RadioAddress)
    (m : Outbound) : (sendVia b radios radio nextHop m).2.length ≤ 255 := by
  by_cases hg : SendViaGuard b radios radio m.payload
  · rw [sendVia_eq hg, sendFragments_tried.1]
    refine Nat.le_trans (Attempts.tried_isPrefixOf _).length_le ?_
    rw [List.length_map, List.length_range']
    exact Nat.le_trans (Nat.sub_le ..) (Nat.le_of_lt_succ (UInt8.toNat_lt _))
  · rw [(sendVia_refused hg).1]
    exact Nat.zero_le _

/-- A broadcast makes one of each interface at most. -/
theorem sendBroadcast_length_le (radios : Radios ρ) (m : Outbound)
    (records : List (InterfaceRecord ρ)) (sent : Bool) (last : RadioTransportSendResult) :
    (RadioTransport.sendBroadcast (b := b) radios m records sent last).2.length
      ≤ 255 * records.length := by
  induction records generalizing sent last with
  | nil => exact Nat.zero_le _
  | cons record records ih =>
      have hskip : ∀ sent last, (RadioTransport.sendBroadcast (b := b) radios m records
          sent last).2.length ≤ 255 * (record :: records).length := fun sent last => by
        rw [List.length_cons]
        have := ih sent last
        omega
      unfold RadioTransport.sendBroadcast
      split
      · exact hskip sent last
      · split
        · exact hskip sent last
        · next radio _ _ =>
          have hvia := sendVia_length_le (b := b) radios radio
            (RadioAddress.broadcast (radios.capabilities radio).addressBytes) m
          dsimp only
          rw [List.length_append, List.length_cons]
          split
          · have := ih true last
            omega
          · have := ih sent (sendVia b radios radio
              (RadioAddress.broadcast (radios.capabilities radio).addressBytes) m).1
            omega

namespace RadioTransport

variable {t : RadioTransport b ρ} {radios : Radios ρ}

/-- A message for a single node goes over one radio, in 255 frames at most. -/
theorem sendFramed_unicast_length_le {m : Outbound} (hm : m.destination ≠ broadcastNode) :
    (t.sendFramed radios m).2.length ≤ 255 := by
  unfold sendFramed
  rw [if_neg hm]
  split
  · exact sendVia_length_le ..
  · split
    · exact sendVia_length_le ..
    · exact Nat.zero_le _

theorem sendFramed_length_le (m : Outbound) :
    (t.sendFramed radios m).2.length ≤ 255 * max 1 b.maxInterfaces := by
  by_cases hm : m.destination = broadcastNode
  · unfold sendFramed
    rw [if_pos hm]
    refine Nat.le_trans (sendBroadcast_length_le ..) ?_
    rw [List.length_ofFn]
    exact Nat.mul_le_mul_left _ (Nat.le_max_right ..)
  · have hone : (t.sendFramed radios m).2.length ≤ 255 := sendFramed_unicast_length_le hm
    omega

/-- A completed message is passed on over one radio. -/
theorem dispatch_length_le (slot : ReassemblyRecord) :
    (sentFrames (t.dispatch radios slot)).length ≤ 255 := by
  by_cases hd : slot.destination = t.localNode ∨ slot.destination = broadcastNode
  · rw [dispatch_local hd]
    cases t.receiver <;> exact Nat.zero_le _
  · by_cases hh : slot.hopLimit > 0
    · rw [dispatch_forward hd hh, sentFrames_append, sentFrames_map_radioSend]
      rw [List.length_append, List.length_map]
      exact sendFramed_unicast_length_le fun hb => hd (Or.inr hb)
    · rw [dispatch_exhausted hd hh]
      exact Nat.zero_le _

/-- A packet has 255 frames at most sent for each message it completes. -/
theorem inbound_length_le (hs : t.Stable) (packet : List UInt8) :
    (sentFrames (t.processInboundPacket radios packet).2).length
      ≤ 255 * (t.completion packet).toList.length := by
  rcases completion_cases hs.toSound radios packet with
    ⟨hnone, -, heq, -⟩ | ⟨i, id, -, -, -, hsome, -, -, heq⟩
  · rw [heq]
    exact Nat.zero_le _
  · rw [heq, hsome]
    exact dispatch_length_le ..

/-- A call that brings in no packet sends frames only for a message it
frames, 255 over each interface at most. -/
theorem effects_length_le [DecidableEq ρ] {input : Input ρ}
    (hnot : ∀ packet, input.call ≠ .processInboundPacket packet) :
    (sentFrames (t.effects input)).length
      ≤ 255 * max 1 b.maxInterfaces * (t.framing input.call).toList.length := by
  cases hf : t.framing input.call with
  | none =>
      have hnil : sentFrames (t.effects input) = [] := by
        apply List.eq_nil_iff_forall_not_mem.mpr
        intro packet hp
        obtain ⟨m, hm, -⟩ := effects_sentFrames hnot hp
        rw [hf] at hm
        cases hm
      rw [hnil]
      exact Nat.zero_le _
  | some m =>
      obtain ⟨radios, call⟩ := input
      cases call with
      | send destination channel payload =>
          rcases t.send_cases radios destination channel payload with
            ⟨hnone, -, -⟩ | ⟨bytes, -, -, hframes⟩
          · rw [hnone] at hf
            cases hf
          · show (sentFrames (t.send radios destination channel payload).2.2).length ≤ _
            rw [hframes, List.length_map]
            simpa using sendFramed_length_le _
      | _ => cases hf

end RadioTransport

/-- What the receiver gets is among what is delivered or passed on. -/
theorem receiverMessages_sublist (events : List (Event ρ)) :
    ((receiverMessages events).map RadioTransportMessageView.identity).Sublist
      (handledIdentities events) := by
  induction events with
  | nil => exact List.Sublist.refl _
  | cons e events ih =>
      cases e with
      | receiverMessage message => exact ih.cons_cons _
      | messageForwarded message result => exact ih.cons _
      | _ => exact ih

-- ============================================================ the network

/-- The lengths of all nodes' lists, added up. -/
def total [Fintype ν] {α : Type _} (lists : ν → List α) : Nat := ∑ n, (lists n).length

theorem total_append [Fintype ν] [DecidableEq ν] {α : Type _} (lists : ν → List α) (n : ν)
    (more : List α) :
    total (Function.update lists n (lists n ++ more)) = total lists + more.length := by
  unfold total
  have hupdate : (fun k => (Function.update lists n (lists n ++ more) k).length)
      = Function.update (fun k => (lists k).length) n
        ((lists n).length + more.length) := by
    funext k
    by_cases hk : k = n
    · subst hk
      simp
    · simp [hk]
  rw [hupdate, Finset.sum_update_of_mem (Finset.mem_univ n),
    Finset.sdiff_singleton_eq_erase,
    ← Finset.add_sum_erase Finset.univ (fun k => (lists k).length) (Finset.mem_univ n)]
  omega

namespace Network

/-- The identities of the messages node `n` handed its receiver, in order. -/
def deliveredAt [DecidableEq ν] (net : Network b ρ ν) (n : ν) : List MessageIdentity :=
  net.delivered.filterMap fun d => if d.1 = n then some d.2.identity else none

/-- The messages of one node's step, told apart by node. -/
theorem deliveredAt_append [DecidableEq ν] (net : Network b ρ ν) (n k : ν)
    (messages : List RadioTransportMessageView) :
    ({ net with delivered := net.delivered ++ messages.map fun m => (n, m) } :
        Network b ρ ν).deliveredAt k
      = net.deliveredAt k
        ++ if n = k then messages.map RadioTransportMessageView.identity else [] := by
  show (net.delivered ++ messages.map fun m => (n, m)).filterMap _ = _
  rw [List.filterMap_append]
  congr 1
  by_cases hk : n = k
  · rw [if_pos hk, List.filterMap_map, ← List.filterMap_eq_map]
    apply List.filterMap_congr
    intro m _
    exact if_pos hk
  · rw [if_neg hk, List.filterMap_map]
    apply List.filterMap_eq_nil_iff.mpr
    intro m _
    exact if_neg hk

/-- What each node completed, in order: each message once, each one sent
by some node, and the ring has room for more of them. -/
structure Logged [Fintype ν] [DecidableEq ν] (net : Network b ρ ν)
    (completed : ν → List MessageIdentity) : Prop where
  ring : ∀ n, (net.node n).RingTracks (completed n)
  nodup : ∀ n, (completed n).Nodup
  sent : ∀ n, ∀ id ∈ completed n, ∃ s, net.Sent s id
  delivered : ∀ n, (net.deliveredAt n).Sublist (completed n)
  air_le : net.air.length
    ≤ 255 * max 1 b.maxInterfaces * total net.sends + 255 * total completed

variable [Fintype ν] [DecidableEq ν] {localNode : ν → RadioNodeId}
  {defaultHopLimit : ν → UInt8} {net : Network b ρ ν}
  {completed : ν → List MessageIdentity}

theorem logged_create :
    (create localNode defaultHopLimit : Network b ρ ν).Logged fun _ => [] where
  ring := fun n => RadioTransport.ringTracks_create (localNode n) (defaultHopLimit n)
  nodup := fun _ => List.nodup_nil
  sent := by
    intro n id hid
    cases hid
  delivered := fun _ => List.Sublist.refl _
  air_le := Nat.zero_le _

omit [DecidableEq ν] in
/-- Different messages, each sent by some node, are no more than were
sent. -/
theorem length_le_total {ids : List MessageIdentity} (hnodup : ids.Nodup)
    (hsent : ∀ id ∈ ids, ∃ s, net.Sent s id) : ids.length ≤ total net.sends := by
  have hsub : ids.toFinset
      ⊆ Finset.univ.biUnion fun s => ((net.sends s).map Outbound.identity).toFinset := by
    intro id hid
    obtain ⟨s, m, hm, rfl⟩ := hsent id (List.mem_toFinset.mp hid)
    apply Finset.mem_biUnion.mpr
    exact ⟨s, Finset.mem_univ s, List.mem_toFinset.mpr (List.mem_map_of_mem hm)⟩
  calc ids.length = ids.toFinset.card := (List.toFinset_card_of_nodup hnodup).symm
    _ ≤ (Finset.univ.biUnion fun s =>
          ((net.sends s).map Outbound.identity).toFinset).card := Finset.card_le_card hsub
    _ ≤ ∑ s, ((net.sends s).map Outbound.identity).toFinset.card := Finset.card_biUnion_le
    _ ≤ total net.sends := Finset.sum_le_sum fun s _ => by
        refine Nat.le_trans (List.toFinset_card_le _) ?_
        rw [List.length_map]

-- ============================================================= receiving

section Receive

variable {n : ν} {flight : Flight}

/-- The identity the flight lets node `n` complete, if it does. -/
def completionOf (net : Network b ρ ν) (n : ν) (flight : Flight) : List MessageIdentity :=
  ((net.node n).completion flight.frame).toList

/-- The nodes' logs of completions, with what the flight lets node `n`
complete added to its own. -/
def logAfter (net : Network b ρ ν) (completed : ν → List MessageIdentity) (n : ν)
    (flight : Flight) : ν → List MessageIdentity :=
  Function.update completed n (completed n ++ net.completionOf n flight)

variable (hlog : net.Logged completed) (hacc : net.Accounted localNode defaultHopLimit)
  (hair : flight ∈ net.air) (hfew : total net.sends ≤ b.maxRecentMessages)

include hlog hacc hair hfew

/-- A message completed was sent, and not completed before. -/
theorem Logged.completion_new (radios : Radios ρ) :
    (completed n ++ net.completionOf n flight).Nodup
      ∧ ∀ id ∈ net.completionOf n flight, ∃ s, net.Sent s id := by
  unfold completionOf
  rcases RadioTransport.completion_cases (hacc.stable n).toSound radios flight.frame with
    ⟨hnone, -⟩ | ⟨i, id, htakes, hid, -, hsome, hnew, -⟩
  · rw [hnone]
    exact ⟨by simpa using hlog.nodup n, fun id hid => by cases hid⟩
  · rw [hsome]
    have hall : Ring.Cells.last b.maxRecentMessages (completed n)
      = (completed n).reverse := by
      apply List.take_of_length_le
      rw [List.length_reverse]
      exact Nat.le_trans (length_le_total (hlog.nodup n) (hlog.sent n)) hfew
    have hout : id ∉ completed n := by
      intro hmem
      apply hnew
      rw [← RadioTransport.ring_has_iff, (hlog.ring n).tracks.has_iff_mem_last, hall]
      exact List.mem_reverse.mpr hmem
    have hin := RadioTransport.receiveFragment_inbound
      (hacc.stable n).toSound flight.frame
    rw [show ((net.node n).receiveFragment flight.frame).2 = some i from htakes] at hin
    obtain ⟨s, hsent, -⟩ := hacc.slot_receive hair hin.taken_used
    refine ⟨?_, fun id' hid' => ?_⟩
    · apply List.Nodup.append (hlog.nodup n) (List.nodup_singleton id)
      intro x hx hx'
      rw [List.mem_singleton.mp hx'] at hx
      exact hout hx
    · rw [List.mem_singleton.mp hid', ← hid]
      exact ⟨s, hsent⟩

/-- The ring's cursor has not come round: there are at most as many
completions as places. -/
theorem Logged.ringExact (radios : Radios ρ)
    (hring : b.maxRecentMessages ∣ 2 ^ b.sizeBits
      ∨ b.maxRecentMessages < 2 ^ b.sizeBits) :
    (net.node n).RingExact ⟨radios, .processInboundPacket flight.frame⟩ := by
  intro hsome
  refine hring.imp_right fun hlt => ?_
  obtain ⟨hnodup, hsent⟩ := hlog.completion_new (n := n) hacc hair hfew radios
  have hlen := length_le_total hnodup fun id hid => by
    rcases List.mem_append.mp hid with hold | hnew
    · exact hlog.sent n id hold
    · exact hsent id hnew
  have hone : 0 < (net.completionOf n flight).length := List.length_pos_iff.mpr hsome
  have hcursor : (net.node n).recentCursor = (completed n).length % 2 ^ b.sizeBits :=
    (hlog.ring n).tracks.cursor_eq
  rw [hcursor]
  rw [List.length_append] at hlen
  have := Nat.mod_le (completed n).length (2 ^ b.sizeBits)
  omega

variable [DecidableEq ρ]

/-- A receiving step keeps the log: what it completes is new to the node,
and adds so many frames at most. -/
theorem Logged.receive (radios : Radios ρ)
    (hring : b.maxRecentMessages ∣ 2 ^ b.sizeBits
      ∨ b.maxRecentMessages < 2 ^ b.sizeBits) :
    (net.receive n radios flight).Logged (net.logAfter completed n flight) := by
  obtain ⟨hnodup, hsent⟩ := hlog.completion_new (n := n) hacc hair hfew radios
  have hself : net.logAfter completed n flight n
      = completed n ++ net.completionOf n flight := Function.update_self ..
  have hother : ∀ k, k ≠ n → net.logAfter completed n flight k = completed k :=
    fun k hk => Function.update_of_ne hk ..
  refine ⟨fun k => ?_, fun k => ?_, fun k => ?_, fun k => ?_, ?_⟩
  · by_cases hk : k = n
    · subst hk
      rw [hself, receive_node_self]
      exact (hlog.ring k).after (hlog.ringExact hacc hair hfew radios hring)
    · rw [hother k hk, receive_node_ne hk]
      exact hlog.ring k
  · by_cases hk : k = n
    · subst hk
      rw [hself]
      exact hnodup
    · rw [hother k hk]
      exact hlog.nodup k
  · by_cases hk : k = n
    · subst hk
      rw [hself]
      intro id hid
      rcases List.mem_append.mp hid with hold | hnew
      · exact hlog.sent k id hold
      · exact hsent id hnew
    · rw [hother k hk]
      exact hlog.sent k
  · -- what is handed over in the step is among what it completes
    have hsplit := net.deliveredAt_append n k (receiverMessages
      ((net.node n).processInboundPacket radios flight.frame).2)
    rw [show (net.receive n radios flight).deliveredAt k = _ from hsplit]
    by_cases hk : n = k
    · subst hk
      rw [if_pos rfl, hself]
      refine (hlog.delivered n).append ?_
      exact (receiverMessages_sublist _).trans (RadioTransport.handled_sublist
        (hacc.stable n) ⟨radios, .processInboundPacket flight.frame⟩)
    · rw [if_neg hk, List.append_nil, hother k (Ne.symm hk)]
      exact hlog.delivered k
  · -- 255 frames at most for each completion, and as many more in the bound
    show (net.air ++ _).length ≤ _
    rw [List.length_append, List.length_map, logAfter, total_append]
    have hframes : (sentFrames
        ((net.node n).processInboundPacket radios flight.frame).2).length
          ≤ 255 * ((net.node n).completion flight.frame).toList.length :=
      RadioTransport.inbound_length_le (hacc.stable n) flight.frame
    have hold := hlog.air_le
    show _ ≤ 255 * max 1 b.maxInterfaces * total net.sends + _
    unfold completionOf
    omega

end Receive

-- ========================================================= public calls

variable [DecidableEq ρ]

/-- A public call completes nothing and leaves the log as it is. -/
theorem Logged.call {n : ν} {input : Input ρ} (hlog : net.Logged completed)
    (hcall : ∀ packet, input.call ≠ .processInboundPacket packet) :
    (net.call n input).Logged completed := by
  refine ⟨?_, hlog.nodup, ?_, fun k => ?_, ?_⟩
  · apply call_nodes (P := fun k t => t.RingTracks (completed k)) hlog.ring
    have hquiet := (RadioTransport.quiet_ring (t := net.node n) hcall).1
    have hafter := (hlog.ring n).after fun h => absurd hquiet h
    rw [hquiet, List.append_nil] at hafter
    exact hafter
  · intro k id hid
    obtain ⟨s, hs⟩ := hlog.sent k id hid
    exact ⟨s, hs.call⟩
  · have hsplit := net.deliveredAt_append n k
      (receiverMessages ((net.node n).effects input))
    rw [show (net.call n input).deliveredAt k = _ from hsplit]
    rw [RadioTransport.effects_receiverMessages hcall]
    simpa using hlog.delivered k
  · show (net.air ++ _).length
      ≤ 255 * max 1 b.maxInterfaces * total (Function.update net.sends n _) + _
    rw [List.length_append, List.length_map, total_append]
    have hframes := RadioTransport.effects_length_le (t := net.node n) hcall
    have hold := hlog.air_le
    rw [Nat.mul_add]
    omega

theorem Step.total_sends_le {net' : Network b ρ ν} (hstep : Step net net') :
    total net.sends ≤ total net'.sends :=
  Finset.sum_le_sum fun s _ => hstep.sends_le s

/-- Every reachable network with few enough sends has a log. -/
theorem Reachable.logged (hr : Reachable localNode defaultHopLimit net)
    (hring : b.maxRecentMessages ∣ 2 ^ b.sizeBits ∨ b.maxRecentMessages < 2 ^ b.sizeBits)
    (hfew : total net.sends ≤ b.maxRecentMessages) :
    ∃ completed, net.Logged completed := by
  induction hr with
  | create => exact ⟨_, logged_create⟩
  | step hr hstep ih =>
      have hfew' := Nat.le_trans hstep.total_sends_le hfew
      obtain ⟨completed, hlog⟩ := ih hfew'
      cases hstep with
      | receive n radios hair =>
          exact ⟨_, hlog.receive hr.accounted hair hfew' radios hring⟩
      | call n input hcall => exact ⟨_, hlog.call hcall⟩

/-- With no more messages sent than the ring has entries, no node hands
its receiver one message twice. -/
theorem delivered_once (hr : Reachable localNode defaultHopLimit net)
    (hring : b.maxRecentMessages ∣ 2 ^ b.sizeBits ∨ b.maxRecentMessages < 2 ^ b.sizeBits)
    (hfew : total net.sends ≤ b.maxRecentMessages) (n : ν) :
    (net.deliveredAt n).Nodup := by
  obtain ⟨completed, hlog⟩ := hr.logged hring hfew
  exact (hlog.nodup n).sublist (hlog.delivered n)

/-- Node 3 handed over both messages once, for all the duplicates on the
air. -/
theorem lineDelivered_once :
    lineDelivered.deliveredAt 2 = [⟨1, 3, 7, 1⟩, ⟨1, 3, 7, 2⟩]
      ∧ (lineDelivered.deliveredAt 2).Nodup :=
  ⟨by decide +kernel,
    delivered_once lineDelivered_reachable (Or.inl ⟨2 ^ 27, by decide⟩)
      (by decide +kernel) 2⟩

/-- All frames ever put on the air are at most so many for each message
sent, whatever goes in circles. -/
theorem air_bounded (hr : Reachable localNode defaultHopLimit net)
    (hring : b.maxRecentMessages ∣ 2 ^ b.sizeBits ∨ b.maxRecentMessages < 2 ^ b.sizeBits)
    (hfew : total net.sends ≤ b.maxRecentMessages) :
    net.air.length
      ≤ 255 * (max 1 b.maxInterfaces + Fintype.card ν) * total net.sends := by
  obtain ⟨completed, hlog⟩ := hr.logged hring hfew
  have hcompleted : total completed ≤ Fintype.card ν * total net.sends := by
    unfold total
    refine Nat.le_trans (Finset.sum_le_card_nsmul _ _ (total net.sends) fun n _ => ?_) ?_
    · exact length_le_total (hlog.nodup n) (hlog.sent n)
    · exact Nat.le_of_eq rfl
  calc net.air.length
      ≤ 255 * max 1 b.maxInterfaces * total net.sends + 255 * total completed := hlog.air_le
    _ ≤ 255 * max 1 b.maxInterfaces * total net.sends
          + 255 * (Fintype.card ν * total net.sends) := by omega
    _ = 255 * (max 1 b.maxInterfaces + Fintype.card ν) * total net.sends := by ring

/-- Two messages between three nodes: the first on the air in two
fragments and forwarded in two more, the second in one. -/
theorem lineDelivered_air_bounded :
    lineDelivered.air.length = 5
      ∧ lineDelivered.air.length ≤ 255 * (4 + 3) * total lineDelivered.sends :=
  ⟨by decide +kernel,
    air_bounded lineDelivered_reachable (Or.inl ⟨2 ^ 27, by decide⟩) (by decide +kernel)⟩

end Network

end EspressioRadio
