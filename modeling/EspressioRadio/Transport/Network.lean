/-
A network of transports over links that lose, duplicate, delay and
reorder.

# The medium

`air` holds every frame ever handed to a radio, accepted or not, and
nothing is ever removed: a `receive` step hands any node any frame of
it, at any time, any number of times. Loss is never receiving a frame.
No topology is imposed, so every topology's runs are among these.

# Ghosts

Three parts of the state are read by no step. `sends` lists the messages
of each node's public `Send` calls, in order; `delivered` what was handed
to receivers. `Flight.depth` counts the forwards behind a frame, and
`origin n i` is the depth of the frame that opened slot `i` of node `n`:
a forward of that slot's message has depth one more.
-/
import EspressioRadio.Transport.Calls
import Mathlib.Logic.Relation

namespace EspressioRadio

variable {b : Bounds} {ρ ν : Type}

-- ========================================================== reading events

/-- The frames handed to radios, accepted or not, in order. -/
def sentFrames (events : List (Event ρ)) : List (List UInt8) :=
  events.filterMap fun
    | .radioSend call => some call.frame
    | _ => none

/-- The messages handed to the receiver, in order. -/
def receiverMessages (events : List (Event ρ)) : List RadioTransportMessageView :=
  events.filterMap fun
    | .receiverMessage message => some message
    | _ => none

namespace RadioTransport

/-- The message a public `Send` passes on, if its arguments are
valid. -/
def framing (t : RadioTransport b ρ) : Call ρ → Option Outbound
  | .send destination channel payload =>
      if destination = 0 ∨ destination = t.localNode then none
      else payload.get?.map (t.outbound destination channel)
  | _ => none

end RadioTransport

-- ============================================================ the network

/-- A frame on the air, and how many forwards are behind it. -/
structure Flight where
  frame : List UInt8
  depth : Nat
  deriving DecidableEq

structure Network (b : Bounds) (ρ ν : Type) where
  node : ν → RadioTransport b ρ
  air : List Flight := []
  origin : ν → Fin b.maxReassemblies → Nat := fun _ _ => 0
  sends : ν → List Outbound := fun _ => []
  delivered : List (ν × RadioTransportMessageView) := []

namespace Network

variable [DecidableEq ρ] [DecidableEq ν]

/-- The depths of node `n`'s slots once the flight is taken in. -/
def originAfter (net : Network b ρ ν) (n : ν) (flight : Flight) :
    Fin b.maxReassemblies → Nat :=
  match (net.node n).takes flight.frame with
  | none => net.origin n
  | some i =>
      if (net.node n).opens flight.frame then
        Function.update (net.origin n) i flight.depth
      else net.origin n

/-- The depth of what node `n` forwards on taking the flight in. -/
def forwardDepth (net : Network b ρ ν) (n : ν) (flight : Flight) : Nat :=
  match (net.node n).takes flight.frame with
  | none => 0
  | some i => net.originAfter n flight i + 1

/-- Node `n` receives the flight: what it sends meanwhile goes on the air
with one forward more behind it than the fragment that opened its slot. -/
def receive (net : Network b ρ ν) (n : ν) (radios : Radios ρ) (flight : Flight) :
    Network b ρ ν :=
  let r := (net.node n).processInboundPacket radios flight.frame
  { net with
    node := Function.update net.node n r.1
    air := net.air
      ++ (sentFrames r.2).map fun frame => ⟨frame, net.forwardDepth n flight⟩
    origin := Function.update net.origin n (net.originAfter n flight)
    delivered := net.delivered ++ (receiverMessages r.2).map fun m => (n, m) }

/-- Node `n`'s application makes a call: what it sends goes on the air with
no forward behind it. -/
def call (net : Network b ρ ν) (n : ν) (input : Input ρ) : Network b ρ ν :=
  { net with
    node := Function.update net.node n ((net.node n).after input)
    air := net.air
      ++ (sentFrames ((net.node n).effects input)).map fun frame => ⟨frame, 0⟩
    sends := Function.update net.sends n
      (net.sends n ++ ((net.node n).framing input.call).toList)
    delivered := net.delivered
      ++ (receiverMessages ((net.node n).effects input)).map fun m => (n, m) }

/-- One step of the network: an application's call at some node, or a node's
receipt of a frame that is on the air. -/
inductive Step (net : Network b ρ ν) : Network b ρ ν → Prop where
  | receive (n : ν) (radios : Radios ρ) {flight : Flight}
      (hair : flight ∈ net.air) : Step net (net.receive n radios flight)
  | call (n : ν) (input : Input ρ)
      (hcall : ∀ packet, input.call ≠ .processInboundPacket packet) :
      Step net (net.call n input)

/-- Freshly built nodes and nothing on the air. -/
def create (localNode : ν → RadioNodeId) (defaultHopLimit : ν → UInt8) :
    Network b ρ ν where
  node := fun n => RadioTransport.create (localNode n) (defaultHopLimit n)

/-- The networks some run from construction ends in. -/
inductive Reachable (localNode : ν → RadioNodeId) (defaultHopLimit : ν → UInt8) :
    Network b ρ ν → Prop where
  | create : Reachable localNode defaultHopLimit (create localNode defaultHopLimit)
  | step {net net' : Network b ρ ν} :
      Reachable localNode defaultHopLimit net → Step net net' →
      Reachable localNode defaultHopLimit net'

/-- On the way to this network node `s` called `Send` with these arguments.
A null pointer of size zero passes no bytes. -/
def Called (localNode : ν → RadioNodeId) (defaultHopLimit : ν → UInt8)
    (net : Network b ρ ν) (s : ν) (destination : RadioNodeId) (channel : RadioChannel)
    (bytes : List UInt8) : Prop :=
  ∃ (before : Network b ρ ν) (radios : Radios ρ) (payload : PayloadArgument),
    Reachable localNode defaultHopLimit before
      ∧ Relation.ReflTransGen Step
        (before.call s ⟨radios, .send destination channel payload⟩) net
      ∧ payload.get? = some bytes

end Network

end EspressioRadio
