/-
One node as its worker's thread runs it: `RadioWorker::Iterate` over the
radios it services, `RadioWorker::OnRadioPacket` for each packet they
drain, and the synchronizers that observe them.

# Draining

`DrainInbound` is a provider's. An iteration brings, for each radio,
whether it is started and the packets it drains (`RadioInbound`), and
with each packet what the transport and the synchronizers read while
they handle it (`RadioArrival`).

# Observers

`OnRadioPacket` hands a packet to the transport first and then to the
packet observers of its radio. Those in the model are the synchronizers,
each with the radio it was constructed with. One that is not initialized
has no subscription; it would ignore the packet, so it is handed one all
the same. The order in which the observers of one radio are called is
the Observable library's; no two of them share state.
-/
import EspressioRadio.Clock.Calls
import EspressioRadio.Transport.Worker

namespace EspressioRadio

variable {b : Bounds} {ρ : Type} {n : Nat}

/-- What a worker's call does outside, in order. -/
def RadioWorker.effects [DecidableEq ρ] (w : RadioWorker b ρ) :
    WorkerCall ρ → List (WorkerEvent ρ)
  | .transport input => (w.transport.effects input).map .transport
  | .addInterface radio defaultRoute => (w.addInterface radio defaultRoute).2.2

/-- A packet drained, and what is read while it is handled. -/
structure RadioArrival (ρ : Type) (n : Nat) where
  packet : RadioPacketView
  radios : Radios ρ
  reads : Fin n → ReceiveReads

/-- What an iteration finds of one radio. -/
structure RadioInbound (ρ : Type) (n : Nat) where
  isStarted : Bool
  packets : List (RadioArrival ρ n)

/-- A worker and `n` synchronizers, each for one of its radios. -/
structure Station (b : Bounds) (ρ : Type) (n : Nat) where
  worker : RadioWorker b ρ
  /-- The `_radio` each synchronizer was constructed with. -/
  radioOf : Fin n → ρ
  sessions : Fin n → ClockSession := fun _ => {}

inductive StationInput (ρ : Type) (n : Nat) where
  | worker (call : WorkerCall ρ)
  | clock (i : Fin n) (call : ClockCall)
  | iterate (inbound : ρ → RadioInbound ρ n)

inductive StationEvent (ρ : Type) (n : Nat) where
  | worker (event : WorkerEvent ρ)
  | clock (i : Fin n) (event : ClockEvent)

namespace RadioArrival

variable (arrival : RadioArrival ρ n)

/-- The transport's share of `OnRadioPacket`: the packet's bytes to its
public entry. -/
def workerCall : WorkerCall ρ :=
  .transport ⟨arrival.radios, .processInboundPacket arrival.packet.payload⟩

/-- An observer's share of `OnRadioPacket`: the packet with its addresses
and stamps, from the radio that is the observer's own. -/
def clockCall (i : Fin n) : ClockCall :=
  .onRadioPacketReceived arrival.packet { arrival.reads i with ownRadio := true }

end RadioArrival

namespace Station

variable [DecidableEq ρ] (s : Station b ρ n)

/-- Synchronizer `i` is an observer of this radio. -/
def observes (i : Fin n) (radio : ρ) : Bool := s.radioOf i == radio

/-- `OnRadioPacket`: the transport's path first, then the observers. -/
def onRadioPacket (radio : ρ) (arrival : RadioArrival ρ n) :
    Station b ρ n × List (StationEvent ρ n) :=
  ({ s with
      worker := s.worker.after arrival.workerCall
      sessions := fun i =>
        if s.observes i radio then (s.sessions i).step (arrival.clockCall i)
        else s.sessions i },
    (s.worker.effects arrival.workerCall).map .worker
      ++ (List.finRange n).flatMap fun i =>
        if s.observes i radio then
          ((s.sessions i).effects (arrival.clockCall i)).map (.clock i)
        else [])

/-- The packets of an iteration, in the order they are drained: radio by
radio, as in the worker's table, and none of a radio not started. -/
def drained (inbound : ρ → RadioInbound ρ n) : List (ρ × RadioArrival ρ n) :=
  ((List.ofFn s.worker.radios).filterMap id).flatMap fun radio =>
    if (inbound radio).isStarted then (inbound radio).packets.map (radio, ·) else []

/-- The state after one packet has been drained and handled. -/
def receive (drained : ρ × RadioArrival ρ n) : Station b ρ n :=
  (s.onRadioPacket drained.1 drained.2).1

/-- What handling one packet drained does outside. -/
def receiveEffects (drained : ρ × RadioArrival ρ n) : List (StationEvent ρ n) :=
  (s.onRadioPacket drained.1 drained.2).2

def perform : StationInput ρ n → Station b ρ n × List (StationEvent ρ n)
  | .worker call =>
      ({ s with worker := s.worker.after call }, (s.worker.effects call).map .worker)
  | .clock i call =>
      ({ s with sessions := Function.update s.sessions i ((s.sessions i).step call) },
        ((s.sessions i).effects call).map (.clock i))
  | .iterate inbound =>
      (Observed.run receive s (s.drained inbound),
        Observed.trace receive receiveEffects s (s.drained inbound))

/-- The state an input to the station leaves. -/
def after (s : Station b ρ n) (input : StationInput ρ n) : Station b ρ n :=
  (s.perform input).1

/-- What an input to the station does outside, in order. -/
def effects (s : Station b ρ n) (input : StationInput ρ n) : List (StationEvent ρ n) :=
  (s.perform input).2

end Station

end EspressioRadio
