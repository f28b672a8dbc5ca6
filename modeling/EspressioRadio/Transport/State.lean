/-
The transport's data: its compile-time bounds, its tables, and what it
exchanges with the radios and the receiver (`RadioTransport`'s private
records).

# Reading the tables

The source's `std::array` members are functions on `Fin`, so a table
cannot have another size than its bound. A scan that stops at the first
match is `Fin.find?`. `IRadio*` is the type parameter `ρ`, a pointer
compared by identity; `nullptr` is `none`.

# The radios during one call

`Radios` is everything one call into the transport reads off its
radios: whether each is started, its capabilities, and the outcome of
each `radio.Send`. A radio is registered once (`AddInterface`), so one
call sends at most one message over it and the fragment index tells its
sends apart. Between calls the answers change freely: every call of a
run brings its own `Radios`.

The tables' payload bytes are lists; `std::size_t` arithmetic on them is
`Nat`, since nothing here exceeds `maxMessageBytes` plus one chunk. The
one `std::size_t` that runs freely, `recentCursor`, wraps at
`2 ^ sizeBits`.
-/
import EspressioRadio.Transport.Wire
import Mathlib.Algebra.GroupWithZero.Nat
import Mathlib.Logic.Function.Basic
import Mathlib.Data.Fin.Tuple.Basic

namespace EspressioRadio

-- ============================================================== bounds

/-- The `ESPRESSIO_RADIO_MAX_*` macros, with their defaults, and the
width of `std::size_t` on the target. The reassembly table's first slot
and the recent ring's modulus exist in every build that compiles to
something meaningful, so both bounds are positive. -/
structure Bounds where
  maxInterfaces : Nat := 4
  maxRoutes : Nat := 32
  maxReassemblies : Nat := 4
  maxRecentMessages : Nat := 32
  maxMessageBytes : Nat := 4096
  sizeBits : Nat := 32
  reassemblies_pos : 0 < maxReassemblies := by decide
  recent_pos : 0 < maxRecentMessages := by decide
  sizeBits_ge : 16 ≤ sizeBits := by decide

/-- A build that overrides none of them, on a target with this
`std::size_t`. -/
abbrev Bounds.onTarget (sizeBits : Nat) (sizeBits_ge : 16 ≤ sizeBits) : Bounds :=
  { sizeBits, sizeBits_ge }

/-- A build that overrides none of them, on a 32-bit target. -/
abbrev Bounds.defaults : Bounds := {}

instance (b : Bounds) : NeZero b.maxReassemblies :=
  ⟨Nat.pos_iff_ne_zero.mp b.reassemblies_pos⟩

instance (b : Bounds) : NeZero b.maxRecentMessages :=
  ⟨Nat.pos_iff_ne_zero.mp b.recent_pos⟩

-- ============================================================= records

/-- What duplicate suppression and reassembly tell messages apart by. -/
structure MessageIdentity where
  source : RadioNodeId
  destination : RadioNodeId
  channel : RadioChannel
  messageId : RadioMessageId
  deriving DecidableEq, Repr

structure InterfaceRecord (ρ : Type) where
  radio : Option ρ := none
  defaultRoute : Bool := false

structure RouteRecord (ρ : Type) where
  used : Bool := false
  destination : RadioNodeId := 0
  radio : Option ρ := none
  nextHop : RadioAddress := {}

structure ReassemblyRecord where
  used : Bool := false
  source : RadioNodeId := 0
  destination : RadioNodeId := 0
  channel : RadioChannel := 0
  messageId : RadioMessageId := 0
  fragmentCount : UInt8 := 0
  chunkBytes : UInt8 := 0
  hopLimit : UInt8 := 0
  lastPayloadBytes : UInt8 := 0
  receivedCount : UInt16 := 0
  touch : UInt32 := 0
  buffer : List UInt8 := []
  received : List UInt8 := []
  deriving DecidableEq, Repr

structure RecentMessageRecord where
  used : Bool := false
  source : RadioNodeId := 0
  destination : RadioNodeId := 0
  channel : RadioChannel := 0
  messageId : RadioMessageId := 0
  deriving DecidableEq, Repr

def WireHeader.identity (h : WireHeader) : MessageIdentity where
  source := h.source
  destination := h.destination
  channel := h.channel
  messageId := h.messageId

def ReassemblyRecord.identity (s : ReassemblyRecord) : MessageIdentity where
  source := s.source
  destination := s.destination
  channel := s.channel
  messageId := s.messageId

def RecentMessageRecord.identity (r : RecentMessageRecord) : MessageIdentity where
  source := r.source
  destination := r.destination
  channel := r.channel
  messageId := r.messageId

/-- `ReassemblyRecord::Reset`: every field to its default, both vectors
cleared. -/
def ReassemblyRecord.reset (_ : ReassemblyRecord) : ReassemblyRecord := {}

structure RadioTransport (b : Bounds) (ρ : Type) where
  localNode : RadioNodeId
  defaultHopLimit : UInt8 := 4
  nextMessageId : RadioMessageId := 1
  /-- Whether `_receiver` is set. -/
  receiver : Bool := false
  interfaces : Fin b.maxInterfaces → InterfaceRecord ρ := fun _ => {}
  routes : Fin b.maxRoutes → RouteRecord ρ := fun _ => {}
  reassemblies : Fin b.maxReassemblies → ReassemblyRecord := fun _ => {}
  recent : Fin b.maxRecentMessages → RecentMessageRecord := fun _ => {}
  recentCursor : Nat := 0
  touchCounter : UInt32 := 0
  started : Bool := false

-- ========================================================= the outside

/-- What one call into the transport reads off its radios. -/
structure Radios (ρ : Type) where
  /-- What `radio.Start()` returns. -/
  start : ρ → Bool
  isStarted : ρ → Bool
  capabilities : ρ → RadioCapabilities
  /-- The outcome of `radio.Send` for the fragment of this index. -/
  send : ρ → UInt8 → RadioSendResult

inductive RadioTransportSendStatus where
  | accepted
  | invalidDestination
  | invalidPayload
  | noRoute
  | interfaceUnavailable
  | messageTooLarge
  | radioRejected
  deriving DecidableEq, Repr

structure RadioTransportSendResult where
  status : RadioTransportSendStatus := .radioRejected
  linkResult : RadioSendResult := {}
  deriving DecidableEq, Repr

/-- The result as a condition, the source's `explicit operator bool`: it was
accepted. -/
def RadioTransportSendResult.ok (r : RadioTransportSendResult) : Bool :=
  r.status == .accepted

/-- A reconstructed message as the receiver sees it: `payload` is the
`PayloadSize` bytes behind the borrowed pointer. -/
structure RadioTransportMessageView where
  sourceNode : RadioNodeId
  destinationNode : RadioNodeId
  channel : RadioChannel
  messageId : RadioMessageId
  payload : List UInt8
  deriving DecidableEq, Repr

/-- One `radio.Send`: its arguments and the result it gave. -/
structure SendCall (ρ : Type) where
  radio : ρ
  nextHop : RadioAddress
  frame : List UInt8
  result : RadioSendResult

/-- Everything a call into the transport does to the outside, in
order. -/
inductive Event (ρ : Type) where
  | radioSend (call : SendCall ρ)
  | radioStart (radio : ρ)
  | radioStop (radio : ρ)
  /-- `_receiver->OnRadioTransportMessage`, with the view lent to it. -/
  | receiverMessage (message : RadioTransportMessageView)
  | messageReceived (message : RadioTransportMessageView)
  | messageForwarded (message : RadioTransportMessageView)
      (result : RadioTransportSendResult)
  | sendCompleted (destination : RadioNodeId) (channel : RadioChannel)
      (payloadSize : Nat) (result : RadioTransportSendResult)
  | interfaceConfigured (radio : ρ) (defaultRoute : Bool)
  | routeConfigured (destination : RadioNodeId) (radio : ρ) (nextHop : RadioAddress)
  | routeRemoved (destination : RadioNodeId)
  | started
  | stopped

end EspressioRadio
