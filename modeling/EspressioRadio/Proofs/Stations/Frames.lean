/-
Frames of two protocols on one medium.

A radio hands a packet to the transport and to the synchronizers alike.
What a transport sends bears the transport's magic and what a
synchronizer sends the clock's, from whatever state (`Framed`): so a
frame on the air that either protocol reacts to is one it put there
itself.
-/
import EspressioRadio.Proofs.Clock.Frames
import EspressioRadio.Proofs.Clock.Outcomes
import EspressioRadio.Proofs.Outside
import EspressioRadio.Proofs.Station
import EspressioRadio.StationNetwork

namespace EspressioRadio

variable {b : Bounds} {ρ ν : Type} {n : Nat}

-- ======================================================= own frames only

theorem isTransportFrame_of_decodes {payload : List UInt8} {h : WireHeader}
    (hd : decodeHeader payload = some h) : isTransportFrame payload = true := by
  cases hframe : isTransportFrame payload with
  | true => rfl
  | false =>
      rw [decodeHeader_of_not_transport hframe] at hd
      cases hd

theorem isClockFrame_of_decodes {payload : List UInt8}
    {r : RadioClockSynchronizer.MessageType × UInt32}
    (hd : RadioClockSynchronizer.decodeHeader payload = some r) :
    isClockFrame payload = true := by
  cases hframe : isClockFrame payload with
  | true => rfl
  | false =>
      rw [decodeHeader_of_not_clock hframe] at hd
      cases hd

/-- Whatever a transport does, it sends frames of its own. -/
theorem RadioTransport.effects_isTransportFrame [DecidableEq ρ] (t : RadioTransport b ρ)
    (input : Input ρ) {frame : List UInt8} (hf : frame ∈ sentFrames (t.effects input)) :
    isTransportFrame frame = true := by
  have hfragment : ∃ m, IsFragment m frame := by
    by_cases hcall : ∀ packet, input.call ≠ .processInboundPacket packet
    · obtain ⟨m, -, hm⟩ := effects_sentFrames hcall hf
      exact ⟨m, hm⟩
    · push Not at hcall
      obtain ⟨packet, hpacket⟩ := hcall
      obtain ⟨radios, call⟩ := input
      obtain rfl : call = .processInboundPacket packet := hpacket
      rw [show t.effects ⟨radios, .processInboundPacket packet⟩
        = (t.processInboundPacket radios packet).2 from rfl] at hf
      unfold processInboundPacket at hf
      split at hf
      · cases hf
      · split at hf
        · unfold complete at hf
          dsimp only at hf
          split at hf
          · cases hf
          · exact ⟨_, (dispatch_sentFrames hf).2⟩
        · cases hf
  obtain ⟨m, hm⟩ := hfragment
  obtain ⟨h, hd, -⟩ := hm.decodes
  exact isTransportFrame_of_decodes hd

namespace RadioClockSynchronizer

variable {s : RadioClockSynchronizer} {r : RadioClockSynchronizer × List ClockEvent}
  {destination : RadioAddress} {frame : List UInt8} {result : RadioSendResult}

theorem Requested.isClockFrame {address : RadioAddress} (hr : Requested s address r)
    (hf : .radioSend destination frame result ∈ r.2) : isClockFrame frame = true := by
  obtain ⟨t1, destination', result', hevents⟩ := hr.events
  rw [hevents] at hf
  simp only [List.mem_cons, ClockEvent.radioSend.injEq, reduceCtorEq, List.not_mem_nil,
    or_false, false_or] at hf
  rw [hf.2.1]
  exact isClockFrame_of_decodes (decodeHeader_encodeRequest s.takeSequence_ne_zero)

theorem Answered.isClockFrame {payload : List UInt8} (ha : Answered s payload r)
    (hf : .radioSend destination frame result ∈ r.2) : isClockFrame frame = true := by
  obtain ⟨sequence, t2, t3, destination', result', hd, -, hevents⟩ := ha.events
  rw [hevents] at hf
  simp only [List.mem_cons, ClockEvent.radioSend.injEq, reduceCtorEq, List.not_mem_nil,
    or_false, false_or] at hf
  rw [hf.2.1]
  exact isClockFrame_of_decodes (decodeHeader_encodeResponse (decodeHeader_ne_zero hd) ..)

theorem Quiet.not_sent (hq : Quiet s r) : .radioSend destination frame result ∉ r.2 := by
  rw [hq.events]
  exact List.not_mem_nil

theorem Submitted.not_sent {payload : List UInt8} (hs : Submitted s payload r) :
    .radioSend destination frame result ∉ r.2 := by
  obtain ⟨t4, adjustmentMode, hevents⟩ := hs.events
  rw [hevents]
  simp

end RadioClockSynchronizer

namespace ClockSession

open RadioClockSynchronizer

variable {c : ClockSession} {destination : RadioAddress} {frame : List UInt8}
  {result : RadioSendResult}

/-- What a synchronizer sends in a public call is a clock frame. -/
theorem public_isClockFrame {address : RadioAddress} {call : ClockCall}
    (hcall : call.IsPublic address)
    (hf : .radioSend destination frame result ∈ c.effects call) :
    isClockFrame frame = true := by
  cases call with
  | initializeWith config reads => cases hf
  | shutdown => cases hf
  | resetStatistics => cases hf
  | requestSynchronization reads =>
      rcases c.synchronizer.requestSynchronization_cases reads with hq | hr
      · exact absurd hf hq.not_sent
      · exact hr.isClockFrame hf
  | update now reads =>
      rcases c.synchronizer.update_cases now reads with hq | hr
      · exact absurd hf hq.not_sent
      · exact hr.isClockFrame hf
  | beginRequest reads => exact hcall.elim
  | beginUpdate now reads => exact hcall.elim
  | endRequest result => exact hcall.elim
  | onRadioPacketReceived packet reads => exact hcall.elim

/-- What a synchronizer sends in handling a packet is a clock frame. -/
theorem packet_isClockFrame {packet : RadioPacketView} {reads : ReceiveReads}
    (hf : .radioSend destination frame result
      ∈ c.effects (.onRadioPacketReceived packet reads)) : isClockFrame frame = true := by
  rcases c.synchronizer.onRadioPacketReceived_cases packet reads with hq | ha | hs
  · exact absurd hf hq.not_sent
  · exact ha.isClockFrame hf
  · exact absurd hf hs.not_sent

end ClockSession

-- ==================================================== reading the events

/-- What a worker's call does through the transport. -/
def WorkerEvent.transport? : WorkerEvent ρ → Option (Event ρ)
  | .transport event => some event
  | .setReceiver _ => none
  | .setWorkSignal _ => none

theorem filterMap_transport? (events : List (Event ρ)) :
    (events.map WorkerEvent.transport).filterMap WorkerEvent.transport? = events := by
  rw [List.filterMap_map]
  exact List.filterMap_some

/-- The transport's share of what a station did outside. -/
def transportEvents (events : List (StationEvent ρ n)) : List (Event ρ) :=
  (Station.workerEvents events).filterMap WorkerEvent.transport?

theorem transportEvents_append (xs ys : List (StationEvent ρ n)) :
    transportEvents (xs ++ ys) = transportEvents xs ++ transportEvents ys := by
  unfold transportEvents Station.workerEvents
  rw [List.filterMap_append, List.filterMap_append]

theorem clockEvents_append (i : Fin n) (xs ys : List (StationEvent ρ n)) :
    Station.clockEvents i (xs ++ ys)
      = Station.clockEvents i xs ++ Station.clockEvents i ys :=
  List.filterMap_append

theorem mem_transportEvents {event : Event ρ} {events : List (StationEvent ρ n)} :
    event ∈ transportEvents events ↔ .worker (.transport event) ∈ events := by
  unfold transportEvents Station.workerEvents
  rw [List.filterMap_filterMap, List.mem_filterMap]
  constructor
  · intro hread
    obtain ⟨e, he, heq⟩ := hread
    cases e with
    | clock i event => cases heq
    | worker event =>
        cases event with
        | transport event =>
            cases heq
            exact he
        | _ => cases heq
  · exact fun he => ⟨_, he, rfl⟩

theorem mem_clockEvents {i : Fin n} {event : ClockEvent}
    {events : List (StationEvent ρ n)} :
    event ∈ Station.clockEvents i events ↔ .clock i event ∈ events := by
  unfold Station.clockEvents
  rw [List.mem_filterMap]
  constructor
  · intro hread
    obtain ⟨e, he, heq⟩ := hread
    cases e with
    | worker event => cases heq
    | clock j event =>
        dsimp only at heq
        split at heq
        · next hj =>
          cases heq
          exact hj ▸ he
        · cases heq
  · exact fun he => ⟨_, he, if_pos rfl⟩

namespace Station

theorem transportEvents_worker (events : List (WorkerEvent ρ)) :
    transportEvents (n := n) (events.map .worker)
      = events.filterMap WorkerEvent.transport? := by
  unfold transportEvents
  rw [workerEvents_worker]

theorem transportEvents_clock (i : Fin n) (events : List ClockEvent) :
    transportEvents (ρ := ρ) (events.map (.clock i)) = [] := by
  unfold transportEvents
  rw [workerEvents_clock]
  rfl

/-- The transport's share of what a packet shows is what its public entry
shows. -/
theorem transportEvents_onRadioPacket [DecidableEq ρ] (s : Station b ρ n) (radio : ρ)
    (arrival : RadioArrival ρ n) :
    transportEvents (s.onRadioPacket radio arrival).2
      = (s.worker.transport.processInboundPacket arrival.radios
        arrival.packet.payload).2 := by
  unfold transportEvents
  rw [show (s.onRadioPacket radio arrival).2 = s.receiveEffects (radio, arrival) from rfl,
    s.workerEvents_receiveEffects (radio, arrival)]
  exact filterMap_transport? _

/-- What an observer does with a packet is done outside. -/
theorem clock_mem_onRadioPacket [DecidableEq ρ] (s : Station b ρ n) {i : Fin n}
    {radio : ρ} {arrival : RadioArrival ρ n} {event : ClockEvent}
    (hown : s.observes i radio = true)
    (he : event ∈ (s.sessions i).effects (arrival.clockCall i)) :
    .clock i event ∈ (s.onRadioPacket radio arrival).2 := by
  apply mem_clockEvents.mp
  rw [show (s.onRadioPacket radio arrival).2 = s.receiveEffects (radio, arrival) from rfl,
    clockEvents_receiveEffects, if_pos hown]
  exact he

end Station

namespace RadioWorker

variable [DecidableEq ρ] (w : RadioWorker b ρ)

/-- The worker's `AddInterface` makes the transport's call, or does nothing
for want of a place. -/
theorem addInterface_cases (radio : ρ) (defaultRoute : Bool) :
    (∃ attached, attached.filterMap WorkerEvent.transport? = []
        ∧ (w.addInterface radio defaultRoute).1.transport
          = (w.transport.addInterface radio defaultRoute).1
        ∧ (w.addInterface radio defaultRoute).2.2
          = (w.transport.addInterface radio defaultRoute).2.2.map .transport ++ attached)
      ∨ w.addInterface radio defaultRoute = (w, false, []) := by
  unfold addInterface
  dsimp only
  split
  · split
    · exact Or.inl ⟨[], rfl, rfl, (List.append_nil _).symm⟩
    · exact Or.inl ⟨_, rfl, rfl, rfl⟩
  · split
    · split
      · exact Or.inl ⟨[], rfl, rfl, (List.append_nil _).symm⟩
      · exact Or.inl ⟨_, rfl, rfl, rfl⟩
    · exact Or.inr rfl

/-- A public call is one of the transport, or leaves it alone. -/
theorem after_cases {call : WorkerCall ρ} (hcall : call.IsPublic) :
    (∃ input : Input ρ, (∀ packet, input.call ≠ .processInboundPacket packet)
        ∧ (w.after call).transport = w.transport.after input
        ∧ (w.effects call).filterMap WorkerEvent.transport? = w.transport.effects input
        ∧ w.framing call = w.transport.framing input.call)
      ∨ (w.after call).transport = w.transport
        ∧ (w.effects call).filterMap WorkerEvent.transport? = []
        ∧ w.framing call = none := by
  cases call with
  | transport input => exact Or.inl ⟨input, hcall, rfl, filterMap_transport? _, rfl⟩
  | addInterface radio defaultRoute =>
      rcases w.addInterface_cases radio defaultRoute with
        ⟨attached, hattached, hstate, hevents⟩ | hnone
      · -- the call does not look at the radios
        refine Or.inl ⟨⟨⟨fun _ => false, fun _ => false, fun _ => {}, fun _ _ => {}⟩,
          .addInterface radio defaultRoute⟩, ?_, hstate, ?_, rfl⟩
        · intro packet hpacket
          cases hpacket
        · show (w.addInterface radio defaultRoute).2.2.filterMap _ = _
          rw [hevents, List.filterMap_append, hattached, List.append_nil]
          exact filterMap_transport? _
      · refine Or.inr ⟨?_, ?_, rfl⟩
        · show (w.addInterface radio defaultRoute).1.transport = _
          rw [hnone]
        · show (w.addInterface radio defaultRoute).2.2.filterMap _ = _
          rw [hnone]
          rfl

end RadioWorker

namespace StationNetwork

variable {net net' : StationNetwork b ρ ν n} {m : ν}
  {r : Station b ρ n × List (StationEvent ρ n)} {made : List Outbound}
  {localNode : ν → RadioNodeId} {defaultHopLimit : ν → UInt8} {radioOf : ν → Fin n → ρ}
  {address : ν → ρ → RadioAddress}

-- ============================================================ own frames

/-- Every frame on the air bears its protocol's magic. -/
structure Framed (net : StationNetwork b ρ ν n) : Prop where
  transport : ∀ m, ∀ frame ∈ sentFrames (transportEvents (net.shown m)),
    isTransportFrame frame = true
  clock : ∀ m i destination frame result,
    .radioSend destination frame result ∈ Station.clockEvents i (net.shown m) →
    isClockFrame frame = true

/-- A frame on the air is a transport's, or a synchronizer's for this
address. -/
theorem OnAir.cases {a : RadioAddress} {frame : List UInt8} (hair : net.OnAir a frame) :
    (∃ m, frame ∈ sentFrames (transportEvents (net.shown m)))
      ∨ ∃ m i destination result, destination.same a = true
        ∧ .radioSend destination frame result ∈ Station.clockEvents i (net.shown m) := by
  obtain ⟨m, event, hevent, hcarries⟩ := hair
  cases event with
  | worker event =>
      cases event with
      | transport event =>
          cases event with
          | radioSend call =>
              obtain rfl : call.frame = frame := hcarries
              exact Or.inl ⟨m, List.mem_filterMap.mpr
                ⟨_, mem_transportEvents.mpr hevent, rfl⟩⟩
          | _ => exact hcarries.elim
      | _ => exact hcarries.elim
  | clock i event =>
      cases event with
      | radioSend destination sent result =>
          obtain ⟨rfl, hdest⟩ : sent = frame ∧ destination.same a = true := hcarries
          exact Or.inr ⟨m, i, destination, result, hdest, mem_clockEvents.mpr hevent⟩
      | _ => exact hcarries.elim

/-- A frame on the air that starts with the transport's magic bytes was sent
by some station's transport. -/
theorem Framed.sent_by_transport (h : net.Framed) {a : RadioAddress} {frame : List UInt8}
    (hair : net.OnAir a frame) (hframe : isTransportFrame frame = true) :
    ∃ m, frame ∈ sentFrames (transportEvents (net.shown m)) := by
  rcases hair.cases with hsent | ⟨m, i, destination, result, -, hsent⟩
  · exact hsent
  · have hclock := h.clock m i destination frame result hsent
    rw [not_both hframe] at hclock
    cases hclock

/-- A frame on the air that starts with the clock's magic bytes was sent by
some station's synchronizer. -/
theorem Framed.sent_by_clock (h : net.Framed) {a : RadioAddress} {frame : List UInt8}
    (hair : net.OnAir a frame) (hframe : isClockFrame frame = true) :
    ∃ m i destination result, destination.same a = true
      ∧ .radioSend destination frame result ∈ Station.clockEvents i (net.shown m) := by
  rcases hair.cases with ⟨m, hsent⟩ | hsent
  · rw [not_both (h.transport m frame hsent)] at hframe
    cases hframe
  · exact hsent

-- ============================================================== one step

variable [DecidableEq ν]

theorem act_shown (k : ν) :
    (net.act m r made).shown k = net.shown k ++ if k = m then r.2 else [] := by
  by_cases hk : k = m
  · subst hk
    simp [act]
  · simp [act, hk]

/-- A frame that was on the air before a step is on the air after it. -/
theorem OnAir.act {a : RadioAddress} {frame : List UInt8} (h : net.OnAir a frame) :
    (net.act m r made).OnAir a frame := by
  obtain ⟨k, event, hevent, hcarries⟩ := h
  refine ⟨k, event, ?_, hcarries⟩
  rw [act_shown]
  exact List.mem_append_left _ hevent

/-- A frame that a step sends is on the air after it. -/
theorem onAir_act {a : RadioAddress} {frame : List UInt8} {event : StationEvent ρ n}
    (hevent : event ∈ r.2) (hcarries : event.Carries a frame) :
    (net.act m r made).OnAir a frame := by
  refine ⟨m, event, ?_, hcarries⟩
  rw [act_shown, if_pos rfl]
  exact List.mem_append_right _ hevent

theorem act_transportEvents (k : ν) :
    transportEvents ((net.act m r made).shown k)
      = transportEvents (net.shown k) ++ if k = m then transportEvents r.2 else [] := by
  rw [act_shown, transportEvents_append]
  split <;> rfl

theorem act_clockEvents (k : ν) (i : Fin n) :
    Station.clockEvents i ((net.act m r made).shown k)
      = Station.clockEvents i (net.shown k)
        ++ if k = m then Station.clockEvents i r.2 else [] := by
  rw [act_shown, clockEvents_append]
  split <;> rfl

/-- A station that stays as it is and does nothing. -/
theorem act_self : net.act m (net.station m, []) [] = net := by
  obtain ⟨station, shown, sends⟩ := net
  simp [act]

/-- Two steps of one station that frame nothing are one. -/
theorem act_act {r' : Station b ρ n × List (StationEvent ρ n)} :
    (net.act m r []).act m r' [] = net.act m (r'.1, r.2 ++ r'.2) [] := by
  simp [act]

theorem act_station_self : (net.act m r made).station m = r.1 := by
  simp [act]

theorem act_radioOf (h : r.1.radioOf = (net.station m).radioOf) (k : ν) :
    ((net.act m r made).station k).radioOf = (net.station k).radioOf := by
  rcases eq_or_ne k m with rfl | hne
  · simpa [act] using h
  · simp [act, hne]

theorem Framed.act (h : net.Framed)
    (htransport : ∀ frame ∈ sentFrames (transportEvents r.2),
      isTransportFrame frame = true)
    (hclock : ∀ i destination frame result,
      .radioSend destination frame result ∈ Station.clockEvents i r.2 →
      isClockFrame frame = true) : (net.act m r made).Framed := by
  constructor
  · intro k frame hf
    rw [act_transportEvents, sentFrames_append] at hf
    rcases List.mem_append.mp hf with hold | hnew
    · exact h.transport k frame hold
    · split at hnew
      · exact htransport frame hnew
      · cases hnew
  · intro k i destination frame result hf
    rw [act_clockEvents] at hf
    rcases List.mem_append.mp hf with hold | hnew
    · exact h.clock k i destination frame result hold
    · split at hnew
      · exact hclock i destination frame result hnew
      · cases hnew

variable [DecidableEq ρ]

/-- In every network reached, the synchronizers observe the radios they were
constructed with. -/
theorem Reachable.radioOf_eq
    (hr : Reachable localNode defaultHopLimit radioOf address net)
    (m : ν) : (net.station m).radioOf = radioOf m := by
  induction hr with
  | create => rfl
  | step _ hstep ih => cases hstep <;> exact (act_radioOf rfl m).trans ih

/-- Packets drained one after another are steps one after another. -/
theorem Reachable.drained (hr : Reachable localNode defaultHopLimit radioOf address net)
    (m : ν) (packets : List (ρ × RadioArrival ρ n))
    (hair : ∀ d ∈ packets, net.OnAir (address m d.1) d.2.packet.payload) :
    Reachable localNode defaultHopLimit radioOf address
      (net.act m (Observed.run Station.receive (net.station m) packets,
        Observed.trace Station.receive Station.receiveEffects (net.station m)
          packets) []) := by
  induction packets generalizing net with
  | nil =>
      rw [Observed.run_nil, Observed.trace_nil, act_self]
      exact hr
  | cons d packets ih =>
      have hnext := ih (hr.step (.receive m d.1 d.2 (hair d List.mem_cons_self)))
        fun d' hd' => (hair d' (List.mem_cons_of_mem d hd')).act
      rw [act_act, act_station_self] at hnext
      exact hnext

/-- An iteration of a worker takes the network where a run of such steps
does, whichever packets on the air its radios drain. -/
theorem Reachable.iterate (hr : Reachable localNode defaultHopLimit radioOf address net)
    (m : ν) (inbound : ρ → RadioInbound ρ n)
    (hair : ∀ d ∈ (net.station m).drained inbound,
      net.OnAir (address m d.1) d.2.packet.payload) :
    Reachable localNode defaultHopLimit radioOf address
      (net.act m ((net.station m).perform (.iterate inbound)) []) :=
  hr.drained m _ hair

theorem Framed.step (h : net.Framed) (hstep : Step address net net') : net'.Framed := by
  cases hstep with
  | worker m call hcall =>
      -- a public call of the transport, or one that shows nothing of it
      apply h.act
      · intro frame hf
        rw [show ((net.station m).perform (.worker call)).2
          = ((net.station m).worker.effects call).map .worker from rfl,
          Station.transportEvents_worker] at hf
        rcases (net.station m).worker.after_cases hcall with
          ⟨input, -, -, hevents, -⟩ | ⟨-, hevents, -⟩
        · rw [hevents] at hf
          exact RadioTransport.effects_isTransportFrame _ _ hf
        · rw [hevents] at hf
          cases hf
      · intro i destination frame result hf
        rw [show Station.clockEvents i ((net.station m).perform (.worker call)).2 = []
          from Station.clockEvents_worker i _] at hf
        cases hf
  | clock m i call hcall =>
      apply h.act
      · intro frame hf
        rw [show transportEvents ((net.station m).perform (.clock i call)).2 = []
          from Station.transportEvents_clock i _] at hf
        cases hf
      · intro j destination frame result hf
        rw [show Station.clockEvents j ((net.station m).perform (.clock i call)).2
          = if i = j then _ else _ from Station.clockEvents_clock j i _] at hf
        split at hf
        · exact ClockSession.public_isClockFrame hcall hf
        · cases hf
  | receive m radio arrival hair =>
      apply h.act
      · intro frame hf
        rw [Station.transportEvents_onRadioPacket] at hf
        exact RadioTransport.effects_isTransportFrame (net.station m).worker.transport
          ⟨arrival.radios, .processInboundPacket arrival.packet.payload⟩ hf
      · intro i destination frame result hf
        rw [show Station.clockEvents i ((net.station m).onRadioPacket radio arrival).2
          = if (net.station m).observes i radio then _ else _
          from Station.clockEvents_receiveEffects i _ (radio, arrival)] at hf
        split at hf
        · exact ClockSession.packet_isClockFrame hf
        · cases hf

theorem Reachable.framed (hr : Reachable localNode defaultHopLimit radioOf address net) :
    net.Framed := by
  induction hr with
  | create => exact ⟨fun _ _ h => (nomatch h), fun _ _ _ _ _ h => (nomatch h)⟩
  | step _ hstep ih => exact ih.step hstep

end StationNetwork

end EspressioRadio
