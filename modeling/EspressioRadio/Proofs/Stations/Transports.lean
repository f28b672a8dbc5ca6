/-
The transports of stations on one medium, as a network of their own.

A packet with the transport's magic is on the air of the transports, and
any other a transport passes over. So each step of the stations is one of
`Transport.Network`, or none.
-/
import EspressioRadio.Proofs.Stations.Frames

namespace EspressioRadio

variable {b : Bounds} {ρ ν : Type} {n : Nat}

/-- The messages node `k` handed its receiver, in order. -/
def Network.messagesAt [DecidableEq ν] (tn : Network b ρ ν) (k : ν) :
    List RadioTransportMessageView :=
  tn.delivered.filterMap fun d => if d.1 = k then some d.2 else none

/-- The messages of one node's step, told apart by node. -/
theorem Network.messagesAt_append [DecidableEq ν] {tn tn' : Network b ρ ν} {m : ν}
    {messages : List RadioTransportMessageView}
    (h : tn'.delivered = tn.delivered ++ messages.map fun message => (m, message))
    (k : ν) :
    tn'.messagesAt k = tn.messagesAt k ++ if k = m then messages else [] := by
  unfold messagesAt
  rw [h, List.filterMap_append, List.filterMap_map]
  congr 1
  split
  · next hk =>
    subst hk
    simp
  · next hk =>
    simp [Ne.symm hk]

namespace StationNetwork

variable {net net' : StationNetwork b ρ ν n} {m : ν}
  {r : Station b ρ n × List (StationEvent ρ n)} {made : List Outbound}
  {localNode : ν → RadioNodeId} {defaultHopLimit : ν → UInt8} {radioOf : ν → Fin n → ρ}
  {address : ν → ρ → RadioAddress} {tn tn' : Network b ρ ν}

variable [DecidableEq ν]

/-- The transports of the stations, as a network of their own. -/
structure Transports (net : StationNetwork b ρ ν n) (tn : Network b ρ ν) : Prop where
  node : ∀ k, tn.node k = (net.station k).worker.transport
  sends : tn.sends = net.sends
  air : ∀ frame, (∃ flight ∈ tn.air, flight.frame = frame)
    ↔ ∃ k, frame ∈ sentFrames (transportEvents (net.shown k))
  messages : ∀ k, tn.messagesAt k = receiverMessages (transportEvents (net.shown k))

/-- A station's step that does to its transport what a step of the network
does to the node keeps the two in line. -/
theorem Transports.act (h : net.Transports tn) (depth : Nat)
    (hnode : tn'.node = Function.update tn.node m r.1.worker.transport)
    (hsends : tn'.sends = Function.update tn.sends m (tn.sends m ++ made))
    (hair : tn'.air = tn.air ++ (sentFrames (transportEvents r.2)).map fun frame =>
      ⟨frame, depth⟩)
    (hdelivered : tn'.delivered = tn.delivered
      ++ (receiverMessages (transportEvents r.2)).map fun message => (m, message)) :
    (net.act m r made).Transports tn' := by
  refine ⟨fun k => ?_, ?_, fun frame => ?_, fun k => ?_⟩
  · rw [hnode]
    rcases eq_or_ne k m with rfl | hne
    · simp [StationNetwork.act]
    · simp [StationNetwork.act, hne, h.node k]
  · rw [hsends, h.sends]
    rfl
  · rw [hair]
    -- a frame is on the air there exactly if the transports have sent it, before or
    -- in this step
    constructor
    · intro hflights
      obtain ⟨flight, hflight, rfl⟩ := hflights
      rcases List.mem_append.mp hflight with hold | hnew
      · obtain ⟨k, hk⟩ := (h.air _).mp ⟨flight, hold, rfl⟩
        refine ⟨k, ?_⟩
        rw [act_transportEvents, sentFrames_append]
        exact List.mem_append_left _ hk
      · obtain ⟨frame, hframe, rfl⟩ := List.mem_map.mp hnew
        refine ⟨m, ?_⟩
        rw [act_transportEvents, sentFrames_append, if_pos rfl]
        exact List.mem_append_right _ hframe
    · intro hsent
      obtain ⟨k, hk⟩ := hsent
      rw [act_transportEvents, sentFrames_append] at hk
      rcases List.mem_append.mp hk with hold | hnew
      · obtain ⟨flight, hflight, hframe⟩ := (h.air frame).mpr ⟨k, hold⟩
        exact ⟨flight, List.mem_append_left _ hflight, hframe⟩
      · split at hnew
        · exact ⟨_, List.mem_append_right _ (List.mem_map.mpr ⟨frame, hnew, rfl⟩), rfl⟩
        · cases hnew
  · rw [Network.messagesAt_append hdelivered, h.messages, act_transportEvents,
      receiverMessages_append]
    congr 1
    split <;> rfl

/-- A station's step that leaves its transport alone keeps the two in line. -/
theorem Transports.quiet (h : net.Transports tn)
    (hworker : r.1.worker.transport = (net.station m).worker.transport)
    (hevents : transportEvents r.2 = []) : (net.act m r []).Transports tn := by
  apply h.act 0
  · rw [hworker, ← h.node m, Function.update_eq_self]
  · rw [List.append_nil, Function.update_eq_self]
  · rw [hevents]
    exact (List.append_nil _).symm
  · rw [hevents]
    exact (List.append_nil _).symm

theorem transports_create :
    (create localNode defaultHopLimit radioOf : StationNetwork b ρ ν n).Transports
      (Network.create localNode defaultHopLimit) :=
  ⟨fun _ => rfl, rfl, fun _ => ⟨nofun, nofun⟩, fun _ => rfl⟩

variable [DecidableEq ρ]

/-- Each step is one of the transports, or none. -/
theorem Transports.step (h : net.Transports tn) (hframed : net.Framed)
    (hstep : Step address net net') :
    net'.Transports tn ∨ ∃ tn', tn.Step tn' ∧ net'.Transports tn' := by
  cases hstep with
  | worker m call hcall =>
      have hevents := Station.transportEvents_worker (n := n)
        ((net.station m).worker.effects call)
      rcases (net.station m).worker.after_cases hcall with
        ⟨input, hinput, hstate, heffects, hframing⟩ | ⟨hstate, heffects, hframing⟩
      · rw [heffects, ← h.node m] at hevents
        refine Or.inr ⟨_, .call m input hinput, h.act 0 ?_ ?_ ?_ ?_⟩
        · show Function.update tn.node m ((tn.node m).after input) = _
          rw [h.node m, ← hstate]
          rfl
        · rw [hframing, ← h.node m]
          rfl
        · show tn.air ++ _ = tn.air ++ (sentFrames (transportEvents
            (((net.station m).worker.effects call).map .worker))).map _
          rw [hevents]
        · show tn.delivered ++ _ = tn.delivered ++ (receiverMessages (transportEvents
            (((net.station m).worker.effects call).map .worker))).map _
          rw [hevents]
      · rw [hframing]
        exact Or.inl (h.quiet hstate (hevents.trans heffects))
  | clock m i call hcall =>
      exact Or.inl (h.quiet rfl (Station.transportEvents_clock i _))
  | receive m radio arrival hair =>
      have hevents := (net.station m).transportEvents_onRadioPacket radio arrival
      cases hframe : isTransportFrame arrival.packet.payload with
      | false =>
          -- a clock frame
          have hquiet := (net.station m).worker.transport.processInboundPacket_foreign
            arrival.radios hframe
          refine Or.inl (h.quiet ?_ ?_)
          · exact congrArg Prod.fst hquiet
          · rw [hevents, hquiet]
      | true =>
          obtain ⟨flight, hflight, hpayload⟩ :=
            (h.air _).mpr (hframed.sent_by_transport hair hframe)
          rw [← hpayload, ← h.node m] at hevents
          refine Or.inr ⟨_, .receive m arrival.radios hflight,
            h.act (tn.forwardDepth m flight) ?_ ?_ ?_ ?_⟩
          · show Function.update tn.node m
              ((tn.node m).processInboundPacket arrival.radios flight.frame).1 = _
            rw [h.node m, hpayload]
            rfl
          · rw [List.append_nil, Function.update_eq_self]
            rfl
          · rw [hevents]
            rfl
          · rw [hevents]
            rfl

/-- Every run of stations is one of their transports. -/
theorem Reachable.transports
    (hr : Reachable localNode defaultHopLimit radioOf address net) :
    ∃ tn : Network b ρ ν, Network.Reachable localNode defaultHopLimit tn
      ∧ net.Transports tn := by
  induction hr with
  | create => exact ⟨_, .create, transports_create⟩
  | step hr hstep ih =>
      obtain ⟨tn, hreach, htn⟩ := ih
      rcases htn.step hr.framed hstep with hkept | ⟨tn', hstep', htn'⟩
      · exact ⟨tn, hreach, hkept⟩
      · exact ⟨tn', hreach.step hstep', htn'⟩

end StationNetwork

end EspressioRadio
