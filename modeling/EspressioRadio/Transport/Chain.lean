/-
Transports in a row, each with a link to the next that loses nothing and
keeps the order.

Node `i` reaches node `i + 1` over its radio `out i`. Node 0 makes one
public `Send` to the last node; from then on the nodes only take packets
off their links, in any interleaving. That is a pipeline: its stage `i`
is node `i + 1`, and what a node hands to its link's radio is the next
stage's input.
-/
import EspressioRadio.Lib.Pipeline
import EspressioRadio.Transport.Calls

namespace EspressioRadio

variable {b : Bounds} {ρ : Type} [DecidableEq ρ]

/-- Each node's radio towards the next, and what it reads off its
radios. -/
structure ChainLinks (ρ : Type) where
  out : Nat → ρ
  radios : Nat → Radios ρ

/-- The chunk size of the link from node `i` to the next. -/
def ChainLinks.chunk (links : ChainLinks ρ) (i : Nat) : Nat :=
  fragmentPayloadBytes (links.radios i) (links.out i)

/-- The frame an event puts on the link of this radio: the one a
`radio.Send` hands over and the radio accepts. -/
def linkFrame (out : ρ) : Event ρ → Option (List UInt8)
  | .radioSend call =>
      if call.radio = out ∧ call.result.ok then some call.frame else none
  | _ => none

/-- Node `i + 1`, taking packets off the link from node `i`. -/
def chainStage (links : ChainLinks ρ) (i : Nat) :
    Pipeline.Stage (RadioTransport b ρ) (List UInt8) (Event ρ) where
  step := fun t packet => (t.processInboundPacket (links.radios (i + 1)) packet).1
  obs := fun t packet => (t.processInboundPacket (links.radios (i + 1)) packet).2
  out := linkFrame (links.out (i + 1))

/-- Node 0's `Send` to the last of `relays` relays' successors. -/
def chainSend (links : ChainLinks ρ) (node : Nat → RadioTransport b ρ) (relays : Nat)
    (channel : RadioChannel) (bytes : List UInt8) :
    RadioTransport b ρ × RadioTransportSendResult × List (Event ρ) :=
  (node 0).send (links.radios 0) (node (relays + 1)).localNode channel (.data bytes)

/-- The chain once node 0's `Send` has returned: the frames its radio
accepted are in the queue of the first link. -/
def chainStart (links : ChainLinks ρ) (node : Nat → RadioTransport b ρ) (relays : Nat)
    (channel : RadioChannel) (bytes : List UInt8) :
    Pipeline.Config (RadioTransport b ρ) (List UInt8) (Event ρ) :=
  Pipeline.start (fun i => node (i + 1))
    ((chainSend links node relays channel bytes).2.2.filterMap
      (linkFrame (links.out 0)))

end EspressioRadio
