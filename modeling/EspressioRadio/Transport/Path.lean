/-
A message's way over several nodes, each of them busy.

A node of the way is a transport with its whole history: the calls before
the message sets out, and those from then on (`Waypoint`). Nothing ties
the histories together but the links. What a node hands to its radio
towards the next one, and that radio accepts, is on its link; which of it
the next node hears, how often, when, and amid what else, is up to the
histories.
-/
import EspressioRadio.Transport.Chain

namespace EspressioRadio

variable {b : Bounds} {ρ : Type}

/-- A node on the way: how it was built, what it was asked to do before the
message set out and from then on, and its radio towards the next. -/
structure Waypoint (b : Bounds) (ρ : Type) where
  localNode : RadioNodeId
  defaultHopLimit : UInt8
  /-- The calls before the message sets out. -/
  before : List (Input ρ)
  /-- Those from then on, the packets it takes off its link among them. -/
  calls : List (Input ρ)
  /-- The radio towards the next node. -/
  out : ρ

namespace Waypoint

variable [DecidableEq ρ] (w : Waypoint b ρ)

/-- The state of a node's transport as the message sets out. -/
def start : RadioTransport b ρ :=
  Observed.run RadioTransport.after (.create w.localNode w.defaultHopLimit) w.before

/-- What a node does outside from then on. -/
def shown : List (Event ρ) :=
  Observed.trace RadioTransport.after RadioTransport.effects w.start w.calls

/-- The frames a node puts on its link to the next from then on. -/
def onLink : List (List UInt8) := w.shown.filterMap (linkFrame w.out)

end Waypoint

/-- The nodes of a way, the relays between the first and the last, and the
message that goes it. -/
structure Path (b : Bounds) (ρ : Type) where
  node : Nat → Waypoint b ρ
  relays : Nat
  /-- The chunk size of the link from each node. -/
  chunk : Nat → Nat
  channel : RadioChannel
  bytes : List UInt8

namespace Path

variable [DecidableEq ρ] (p : Path b ρ)

def destination : RadioNodeId := (p.node (p.relays + 1)).localNode

/-- The message as node 0 sends it. -/
def message : Outbound :=
  (p.node 0).start.outbound p.destination p.channel p.bytes

/-- What a receiver is to get of that `Send`: its channel and its bytes,
from node 0 to the last node, under the number node 0 is at by then. -/
def view : RadioTransportMessageView where
  sourceNode := (p.node 0).localNode
  destinationNode := p.destination
  channel := p.channel
  messageId := (p.node 0).start.nextMessageId
  payload := p.bytes

/-- The hop limit the message's fragments have on link `i`: one less for
each relay passed. -/
def hopsLeft : Nat → UInt8
  | 0 => p.message.hopLimit
  | i + 1 => hopsLeft i - 1

end Path

/-- The packets of this message among these, in order. -/
def ofMessage (id : MessageIdentity) (packets : List (List UInt8)) : List (List UInt8) :=
  packets.filter fun packet => (decodeHeader packet).any (·.identity == id)

end EspressioRadio
