/-
Stations on one medium.

A station's transport and its synchronizers share its radios, so frames
of both protocols share the air. `Transport.Network` and `Clock.Network`
have the protocols one at a time; here stations run them together.

# The medium

The air is every frame the stations ever handed to a radio (`shown`),
and nothing is taken off: frames are lost, repeated, delayed and
overtaken freely. A transport's frame may come to any radio, a clock
frame to the radios whose address it was sent to. Nobody is told which
protocol a packet is of.

# Steps

`receive` is one packet of an iteration. An iteration drains one packet
after another (`Station.perform`), and between two of them anything may
happen at another station. The public calls are those of the worker and
of its transport, and those of a synchronizer during which nothing comes
in. What a synchronizer reads as its radio's address is that address.

`sends` is the ghost it is in `Transport.Network`.
-/
import EspressioRadio.Station
import EspressioRadio.Transport.Network

namespace EspressioRadio

variable {b : Bounds} {ρ ν : Type} {n : Nat}

/-- The message a public `Send` passes on, if the call is one. -/
def RadioWorker.framing (w : RadioWorker b ρ) : WorkerCall ρ → Option Outbound
  | .transport input => w.transport.framing input.call
  | .addInterface _ _ => none

/-- The call is not the worker's own handling of a packet. -/
def WorkerCall.IsPublic : WorkerCall ρ → Prop
  | .transport input => ∀ packet, input.call ≠ .processInboundPacket packet
  | .addInterface _ _ => True

/-- A call from construction to destruction but for packets, whole, at a
radio of this address. -/
def ClockCall.IsPublic (address : RadioAddress) : ClockCall → Prop
  | .initializeWith _ reads => reads.localAddress = address
  | .shutdown => True
  | .resetStatistics => True
  | .requestSynchronization reads => reads.localAddress = address
  | .update _ reads => reads.localAddress = address
  | .beginRequest _ => False
  | .beginUpdate _ _ => False
  | .endRequest _ => False
  | .onRadioPacketReceived _ _ => False

/-- The event puts this frame on the air where radios of this address hear
it: any frame the transport sends, and a synchronizer's to that address. -/
def StationEvent.Carries (address : RadioAddress) (frame : List UInt8) :
    StationEvent ρ n → Prop
  | .worker (.transport (.radioSend call)) => call.frame = frame
  | .clock _ (.radioSend destination sent _) =>
      sent = frame ∧ destination.same address = true
  | _ => False

structure StationNetwork (b : Bounds) (ρ ν : Type) (n : Nat) where
  station : ν → Station b ρ n
  shown : ν → List (StationEvent ρ n) := fun _ => []
  sends : ν → List Outbound := fun _ => []

namespace StationNetwork

variable [DecidableEq ρ] [DecidableEq ν]

/-- Some station has put this frame on the air for radios of this address:
they may be handed it, any number of times. -/
def OnAir (net : StationNetwork b ρ ν n) (address : RadioAddress) (frame : List UInt8) :
    Prop :=
  ∃ m, ∃ event ∈ net.shown m, event.Carries address frame

/-- Station `m` goes to a state and shows these events; the messages it
passed on to be framed are noted. -/
def act (net : StationNetwork b ρ ν n) (m : ν)
    (result : Station b ρ n × List (StationEvent ρ n)) (framed : List Outbound) :
    StationNetwork b ρ ν n where
  station := Function.update net.station m result.1
  shown := Function.update net.shown m (net.shown m ++ result.2)
  sends := Function.update net.sends m (net.sends m ++ framed)

/-- One step of the network: a public call at some station, of its worker or
a synchronizer, or a packet from the air. -/
inductive Step (address : ν → ρ → RadioAddress) (net : StationNetwork b ρ ν n) :
    StationNetwork b ρ ν n → Prop where
  | worker (m : ν) (call : WorkerCall ρ) (hcall : call.IsPublic) :
      Step address net
        (net.act m ((net.station m).perform (.worker call))
          ((net.station m).worker.framing call).toList)
  | clock (m : ν) (i : Fin n) (call : ClockCall)
      (hcall : call.IsPublic (address m ((net.station m).radioOf i))) :
      Step address net (net.act m ((net.station m).perform (.clock i call)) [])
  | receive (m : ν) (radio : ρ) (arrival : RadioArrival ρ n)
      (hair : net.OnAir (address m radio) arrival.packet.payload) :
      Step address net (net.act m ((net.station m).onRadioPacket radio arrival) [])

/-- Freshly built stations and nothing on the air. -/
def create (localNode : ν → RadioNodeId) (defaultHopLimit : ν → UInt8)
    (radioOf : ν → Fin n → ρ) : StationNetwork b ρ ν n where
  station := fun m =>
    { worker := .create (localNode m) (defaultHopLimit m), radioOf := radioOf m }

/-- The networks some run from construction ends in. -/
inductive Reachable (localNode : ν → RadioNodeId) (defaultHopLimit : ν → UInt8)
    (radioOf : ν → Fin n → ρ) (address : ν → ρ → RadioAddress) :
    StationNetwork b ρ ν n → Prop where
  | create :
      Reachable localNode defaultHopLimit radioOf address
        (create localNode defaultHopLimit radioOf)
  | step {net net' : StationNetwork b ρ ν n} :
      Reachable localNode defaultHopLimit radioOf address net → Step address net net' →
      Reachable localNode defaultHopLimit radioOf address net'

end StationNetwork

end EspressioRadio
