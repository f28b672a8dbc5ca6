/-
A transport whose callbacks run while packets come in.

`Complete` remembers the message, hands out a view into the slot's
buffer, and resets the slot only when the callbacks have returned: the
receiver, the observers, or the `radio.Send` calls of a forward. Until
then any of them may call the transport again. So a packet that
completes a message is two moments, `packet` and `returned`, and
`pending` is the stack of views handed out in between, the innermost
first. A receiver that throws leaves `Complete` without the reset
(`threw`).

Every other call writes the transport at one point, and is one moment.
-/
import EspressioRadio.Transport.Calls

namespace EspressioRadio

variable {b : Bounds} {ρ : Type}

/-- A view handed out: the slot whose buffer it borrows, and what it
showed then. -/
structure PendingView (b : Bounds) where
  slot : Fin b.maxReassemblies
  message : RadioTransportMessageView

/-- `Complete` as far as its first call outside. -/
def RadioTransport.beginComplete (t : RadioTransport b ρ) (i : Fin b.maxReassemblies) :
    RadioTransport b ρ × Option (PendingView b) :=
  let slot := t.reassemblies i
  let identity := slot.identity.header
  if t.isRecent identity then (t.resetSlot i, none)
  else (t.remember identity, some { slot := i, message := slot.message })

/-- What can come next while callbacks run: a call from outside or from the
innermost callback, or that callback's end. -/
inductive TransportMoment (ρ : Type) where
  | packet (packet : List UInt8)
  /-- A call other than `ProcessInboundPacket`, which runs no callback that
  borrows a slot. -/
  | call (input : Input ρ)
  /-- The innermost callback returns, and its slot is reset. -/
  | returned
  /-- The innermost callback throws, and its slot stays as it is. -/
  | threw

/-- The packet a moment brings in, if it does. -/
def TransportMoment.packet? : TransportMoment ρ → Option (List UInt8)
  | .packet bytes => some bytes
  | _ => none

/-- A transport and the views it has handed out to callbacks still running,
the innermost first. -/
structure TransportStack (b : Bounds) (ρ : Type) where
  transport : RadioTransport b ρ
  pending : List (PendingView b) := []

namespace TransportStack

variable (c : TransportStack b ρ)

/-- `ProcessInboundPacket` as far as its first call outside, or to its
end. -/
def receive (packet : List UInt8) : TransportStack b ρ :=
  match c.transport.receiveFragment packet with
  | (t, none) => { c with transport := t }
  | (t, some i) =>
      if (t.reassemblies i).isComplete then
        match t.beginComplete i with
        | (t, none) => { c with transport := t }
        | (t, some view) => { transport := t, pending := view :: c.pending }
      else { c with transport := t }

/-- The innermost callback returns: the slot it was lent is reset. -/
def returned : TransportStack b ρ :=
  match c.pending with
  | [] => c
  | view :: outer => { transport := c.transport.resetSlot view.slot, pending := outer }

variable [DecidableEq ρ]

/-- The state a moment leaves, whatever callbacks are running. -/
def step (c : TransportStack b ρ) : TransportMoment ρ → TransportStack b ρ
  | .packet packet => c.receive packet
  | .call input =>
      match input.call with
      | .processInboundPacket _ => c
      | _ => { c with transport := c.transport.after input }
  | .returned => c.returned
  | .threw => { c with pending := c.pending.tail }

/-- A new transport, with nothing handed out. -/
def create (localNode : RadioNodeId) (defaultHopLimit : UInt8) : TransportStack b ρ where
  transport := RadioTransport.create localNode defaultHopLimit

end TransportStack

end EspressioRadio
