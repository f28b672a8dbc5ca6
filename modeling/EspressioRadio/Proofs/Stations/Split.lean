/-
Stations on one medium are two networks.

Every run of the stations is at once one of `Transport.Network` and one
of `Clock.Network` (`splits`), so what is true of every run of either
protocol alone is true of both together. Two such facts, read off the
stations: what they hand on is genuine (`genuine`).
-/
import EspressioRadio.Proofs.Clock.Exchange
import EspressioRadio.Proofs.Network.Integrity
import EspressioRadio.Proofs.Stations.Clocks
import EspressioRadio.Proofs.Stations.Transports

namespace EspressioRadio

variable {b : Bounds} {ρ ν : Type} {n : Nat}

namespace StationNetwork

variable {net : StationNetwork b ρ ν n}
  {localNode : ν → RadioNodeId} {defaultHopLimit : ν → UInt8} {radioOf : ν → Fin n → ρ}
  {address : ν → ρ → RadioAddress}

variable [DecidableEq ρ] [DecidableEq ν]

/-- Stations on one medium are two networks: every run of theirs is one of
their transports and one of their synchronizers, each with its own frames
on the air. -/
theorem splits (hr : Reachable localNode defaultHopLimit radioOf address net) :
    (∃ tn : Network b ρ ν, Network.Reachable localNode defaultHopLimit tn
        ∧ net.Transports tn)
      ∧ ∃ cn : ClockNetwork (ν × Fin n),
        ClockNetwork.Reachable (clockAddress address radioOf) cn ∧ net.Clocks cn :=
  ⟨hr.transports, hr.clocks⟩

/-- What a receiver is handed some station sent, and a sample has its own
synchronizer's T1 and the T2 and T3 some synchronizer came to together,
whatever the two protocols make of each other's frames. -/
theorem genuine (hr : Reachable localNode defaultHopLimit radioOf address net)
    (hinj : Function.Injective localNode)
    (hdistinct : ∀ k k', (clockAddress address radioOf k).same
      (clockAddress address radioOf k') = true → k = k')
    (hsends : ∀ m, (net.sends m).length ≤ 65535)
    (hrequests : ∀ m i, ((Station.clockEvents i (net.shown m)).filterMap
      ClockEvent.captured).length < 2 ^ 32) :
    (∀ m, ∀ message ∈ receiverMessages (transportEvents (net.shown m)),
        ∃ s, localNode s = message.sourceNode
          ∧ ∃ sent ∈ net.sends s, sent.destination = message.destinationNode
            ∧ sent.channel = message.channel ∧ sent.payload = message.payload)
      ∧ ∀ m i, ∀ sample ∈ (Station.clockEvents i (net.shown m)).filterMap
          ClockEvent.submitted,
        sample.localRequestTransmitTime
            ∈ (Station.clockEvents i (net.shown m)).filterMap ClockEvent.captured
          ∧ ∃ sequence, net.Shows (.requestProcessed sequence
            sample.remoteRequestReceiveTime sample.remoteResponseTransmitTime) := by
  constructor
  · -- the message is handed over in a run of the transports alone
    obtain ⟨tn, hreach, htn⟩ := hr.transports
    rw [← htn.sends] at hsends ⊢
    intro m message hmessage
    rw [← htn.messages, Network.messagesAt, List.mem_filterMap] at hmessage
    obtain ⟨⟨k, handed⟩, hd, heq⟩ := hmessage
    dsimp only at heq
    split at heq
    · cases heq
      obtain ⟨s, sent, hsent, rfl⟩ := (hreach.intact hinj hsends).delivered _ hd
      exact ⟨s, (hreach.accounted.sent_mem hsent).1.symm, sent, hsent, rfl, rfl, rfl⟩
    · cases heq
  · -- the sample is submitted in a run of the clocks alone
    obtain ⟨cn, hreach, hcn⟩ := hr.clocks
    have hfew : ∀ k, (cn.requests k).length < 2 ^ 32 := fun ⟨m, i⟩ => by
      rw [hcn.requests]
      exact hrequests m i
    intro m i sample hsample
    rw [← hcn.samples, ClockNetwork.samplesAt, List.mem_filterMap] at hsample
    obtain ⟨s, hs, heq⟩ := hsample
    split at heq
    · next hclient =>
      cases heq
      obtain ⟨k, -, hmade, e, he, -, ht2, ht3⟩ :=
        (hreach.exchanged hdistinct hfew).samples s hs
      rw [hclient, hcn.requests] at hmade
      exact ⟨List.mem_of_getElem? hmade,
        (hcn.executed _ _).mp ⟨e, he, ht2.symm, ht3.symm⟩⟩
    · cases heq

-- ============================================================ two stations

section Pair

open ClockNetwork (pairAddress pairInitialize pairReceive pairRequest pairResponse)

/-- Station 1 (`false`) has a default interface and a reference clock,
station 2 a receiver and a client. -/
def pairReady : StationNetwork .defaults Unit Bool 1 :=
  let net := create Network.pairNode (fun _ => 4) (fun _ _ => ())
  let net := net.act false ((net.station false).perform
    (.worker (.transport ⟨openRadios, .addInterface () true⟩))) []
  let net := net.act true ((net.station true).perform
    (.worker (.transport ⟨openRadios, .setReceiver true⟩))) []
  let net := net.act true ((net.station true).perform
    (.clock 0 (.initializeWith { mode := .client, referencePeer := pairAddress false }
      (pairInitialize true)))) []
  net.act false ((net.station false).perform
    (.clock 0 (.initializeWith { mode := .reference } (pairInitialize false)))) []

/-- Station 1 has sent a message and station 2 a request. -/
def pairSent : StationNetwork .defaults Unit Bool 1 :=
  let call : WorkerCall Unit := .transport ⟨openRadios, .send 2 7 (.data [0xAB])⟩
  let net := pairReady.act false ((pairReady.station false).perform (.worker call))
    ((pairReady.station false).worker.framing call).toList
  net.act true ((net.station true).perform
    (.clock 0 (.requestSynchronization
      { isStarted := true, localAddress := pairAddress true, timestamp := 1000
        monotonic := 7, sent := .accepted }))) []

/-- A packet comes in from the air, at this time of the receiving node. -/
def pairArrival (payload : List UInt8) (timestamp : UInt64) : RadioArrival Unit 1 where
  packet := { payload := payload }
  radios := openRadios
  reads := fun _ => pairReceive timestamp

/-- Each has what the other sent, and the request its answer. -/
def pairServed : StationNetwork .defaults Unit Bool 1 :=
  let net := pairSent.act true ((pairSent.station true).onRadioPacket ()
    (pairArrival (frame Network.pairMessage 17 0) 1050)) []
  let net := net.act false ((net.station false).onRadioPacket ()
    (pairArrival pairRequest.frame 2000)) []
  net.act true ((net.station true).onRadioPacket ()
    (pairArrival pairResponse.frame 1100)) []

theorem pairSent_reachable :
    Reachable Network.pairNode (fun _ => 4) (fun _ _ => ()) (fun m _ => pairAddress m)
      pairSent := by
  have hready : Reachable Network.pairNode (fun _ => 4) (fun _ _ => ())
      (fun m _ => pairAddress m) pairReady := by
    refine (((Reachable.create.step (.worker false _ ?_)).step (.worker true _ ?_)).step
      (.clock true 0 _ ?_)).step (.clock false 0 _ ?_)
    · exact fun _ h => nomatch h
    · exact fun _ h => nomatch h
    · rfl
    · rfl
  refine (hready.step (.worker false _ ?_)).step (.clock true 0 _ ?_)
  · exact fun _ h => nomatch h
  · rfl

theorem pairServed_reachable :
    Reachable Network.pairNode (fun _ => 4) (fun _ _ => ()) (fun m _ => pairAddress m)
      pairServed := by
  have hmessage : ∀ a, pairSent.OnAir a (frame Network.pairMessage 17 0) := by
    intro a
    have hsent : frame Network.pairMessage 17 0
        ∈ sentFrames ((pairReady.station false).worker.transport.send openRadios 2 7
          (.data [0xAB])).2.2 := by
      rw [show (pairReady.station false).worker.transport = Network.pairReady.node false
        from rfl, Network.pairReady_frames]
      exact List.mem_singleton.mpr rfl
    obtain ⟨event, hevent, hframe⟩ := List.mem_filterMap.mp hsent
    cases event with
    | radioSend call =>
        refine (onAir_act (List.mem_map_of_mem (List.mem_map_of_mem hevent)) ?_).act
        exact Option.some.inj hframe
    | _ => cases hframe
  have hrequest : pairSent.OnAir (pairAddress false) pairRequest.frame := by
    refine onAir_act (List.mem_map_of_mem (List.mem_cons_of_mem _ List.mem_cons_self)) ?_
    exact ⟨rfl, by decide⟩
  refine ((pairSent_reachable.step (.receive true () _ (hmessage _))).step
    (.receive false () _ hrequest.act)).step (.receive true () _ ?_)
  -- the answer goes to the address in the request
  let destination := RadioClockSynchronizer.decodeRequestAddress pairRequest.frame
  let answer : StationEvent Unit 1 :=
    .clock 0 (.radioSend destination pairResponse.frame .accepted)
  have hcarries : answer.Carries (pairAddress true) pairResponse.frame :=
    ⟨rfl, by decide⟩
  refine onAir_act (Station.clock_mem_onRadioPacket _ rfl ?_) hcarries
  exact List.mem_cons_of_mem _ (List.mem_singleton.mpr rfl)

/-- The message was delivered and the sample submitted, and the run is a run
of each of the two networks. -/
theorem pairServed_splits :
    receiverMessages (transportEvents (pairServed.shown true))
        = [Network.pairMessage.view]
      ∧ (Station.clockEvents 0 (pairServed.shown true)).filterMap ClockEvent.submitted
        = [⟨1000, 2000, 2005, 1100⟩]
      ∧ (∃ tn : Network .defaults Unit Bool,
        Network.Reachable Network.pairNode (fun _ => 4) tn ∧ pairServed.Transports tn)
      ∧ ∃ cn : ClockNetwork (Bool × Fin 1),
        ClockNetwork.Reachable (clockAddress (fun m _ => pairAddress m) fun _ _ => ()) cn
          ∧ pairServed.Clocks cn := by
  refine ⟨?_, ?_, splits pairServed_reachable⟩
  · rfl
  · rfl

theorem pairServed_distinct (k k' : Bool × Fin 1)
    (h : (clockAddress (fun m (_ : Unit) => pairAddress m) (fun _ _ => ()) k).same
      (clockAddress (fun m (_ : Unit) => pairAddress m) (fun _ _ => ()) k') = true) :
    k = k' :=
  Prod.ext (ClockNetwork.pairAddress_distinct k.1 k'.1 h) (Subsingleton.elim _ _)

/-- The clock of the station that answers makes no request of its own. -/
theorem pairServed_captured_false :
    (Station.clockEvents 0 (pairServed.shown false)).filterMap ClockEvent.captured
      = [] := by
  have hshown : pairServed.shown false
      = (pairReady.shown false ++ ((pairReady.station false).worker.effects
          (.transport ⟨openRadios, .send 2 7 (.data [0xAB])⟩)).map .worker)
        ++ ((pairSent.station false).onRadioPacket ()
          (pairArrival pairRequest.frame 2000)).2 := rfl
  rw [hshown, clockEvents_append, clockEvents_append, Station.clockEvents_worker]
  rw [show Station.clockEvents 0 ((pairSent.station false).onRadioPacket ()
    (pairArrival pairRequest.frame 2000)).2 = _ from
    Station.clockEvents_receiveEffects 0 (pairSent.station false) ((), _)]
  rfl

/-- What station 2 was handed, station 1 sent; and the sample's remote
times are one answer's. -/
theorem pairServed_genuine :
    (∃ s, Network.pairNode s = 1 ∧ ∃ sent ∈ pairServed.sends s,
        sent.destination = 2 ∧ sent.channel = 7 ∧ sent.payload = [0xAB])
      ∧ 1000 ∈ (Station.clockEvents 0 (pairServed.shown true)).filterMap
        ClockEvent.captured
      ∧ ∃ sequence, pairServed.Shows (.requestProcessed sequence 2000 2005) := by
  have hsends : ∀ m, (pairServed.sends m).length ≤ 65535 := by
    intro m
    cases m <;> decide
  have hrequests : ∀ m (i : Fin 1),
      ((Station.clockEvents i (pairServed.shown m)).filterMap
        ClockEvent.captured).length < 2 ^ 32 := by
    intro m i
    obtain rfl : i = 0 := Subsingleton.elim i 0
    cases m with
    | false =>
        rw [pairServed_captured_false]
        decide
    | true => decide
  obtain ⟨hmessages, hsamples⟩ := genuine pairServed_reachable Network.pairNode_injective
    pairServed_distinct hsends hrequests
  exact ⟨hmessages true Network.pairMessage.view (List.mem_singleton.mpr rfl),
    hsamples true 0 ⟨1000, 2000, 2005, 1100⟩ (List.mem_singleton.mpr rfl)⟩

end Pair

end StationNetwork

end EspressioRadio
