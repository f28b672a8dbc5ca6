/-
The inbound half when memory runs out.

`FindOrCreateReassembly` grows two vectors of the slot it opens,
`Buffer.resize` and then `Received.assign`, after it has written the
slot's other fields. Either may throw and leave its vector as it was;
the exception leaves `ProcessInboundPacket` past everything that
follows. `Growth` is the outcome of the two, and each function here is
the one of `Transport.Inbound` with that outcome as a parameter.
-/
import EspressioRadio.Transport.Calls

namespace EspressioRadio

variable {b : Bounds} {ρ : Type}

/-- How `Buffer.resize` and `Received.assign` turn out. -/
inductive Growth where
  | succeeds
  | resizeThrows
  | assignThrows
  deriving DecidableEq, Repr

/-- `std::bad_alloc`, on its way out of `ProcessInboundPacket`. -/
inductive AllocationFailure where
  | badAlloc
  deriving DecidableEq, Repr

namespace ReassemblyRecord

/-- The assignments to the candidate that precede both growths. -/
def claimed (s : ReassemblyRecord) (h : WireHeader) (touch : UInt32) :
    ReassemblyRecord :=
  { s with
    used := true
    source := h.source
    destination := h.destination
    channel := h.channel
    messageId := h.messageId
    fragmentCount := h.fragmentCount
    chunkBytes := h.chunkBytes
    hopLimit := h.hopLimit
    touch := touch }

/-- The candidate once `Buffer.resize(allocation)` has returned. -/
def resized (s : ReassemblyRecord) (allocation : Nat) : ReassemblyRecord :=
  { s with buffer := resize s.buffer allocation }

/-- The candidate once `Received.assign(h.FragmentCount, 0u)` has returned:
no index received. -/
def assigned (s : ReassemblyRecord) (h : WireHeader) : ReassemblyRecord :=
  { s with received := List.replicate h.fragmentCount.toNat 0 }

end ReassemblyRecord

namespace RadioTransport

variable (t : RadioTransport b ρ)

def findOrCreateReassemblyGrowing (growth : Growth) (h : WireHeader) :
    RadioTransport b ρ × Except AllocationFailure (Option (Fin b.maxReassemblies)) :=
  match Fin.find? fun i => (t.reassemblies i).holds h with
  | some i => (t, .ok (some i))
  | none =>
      let (t, i) := t.candidate
      let allocation := h.fragmentCount.toNat * h.chunkBytes.toNat
      if allocation > b.maxMessageBytes then (t, .ok none)
      else
        let t := t.bumpTouch
        let slot := (t.reassemblies i).claimed h t.touchCounter
        match growth with
        | .resizeThrows => (t.setSlot i slot, .error .badAlloc)
        | .assignThrows => (t.setSlot i (slot.resized allocation), .error .badAlloc)
        | .succeeds =>
            (t.setSlot i ((slot.resized allocation).assigned h), .ok (some i))

/-- `ProcessInboundPacket` up to the completion test, with the growths it
asks for turning out as given: the slot taken, or the exception. -/
def receiveFragmentGrowing (growth : Growth) (packet : List UInt8) :
    RadioTransport b ρ × Except AllocationFailure (Option (Fin b.maxReassemblies)) :=
  match decodeHeader packet with
  | none => (t, .ok none)
  | some h =>
      if t.refuses h then (t, .ok none)
      else
        match t.findOrCreateReassemblyGrowing growth h with
        | (t, .error failure) => (t, .error failure)
        | (t, .ok none) => (t, .ok none)
        | (t, .ok (some i)) =>
            let (t, taken) := t.storeFragment i h (packetBody packet)
            (t, .ok taken)

def processInboundPacketGrowing (growth : Growth) (radios : Radios ρ)
    (packet : List UInt8) :
    RadioTransport b ρ × Except AllocationFailure (List (Event ρ)) :=
  match t.receiveFragmentGrowing growth packet with
  | (t, .error failure) => (t, .error failure)
  | (t, .ok none) => (t, .ok [])
  | (t, .ok (some i)) =>
      if (t.reassemblies i).isComplete then
        let (t, events) := t.complete radios i
        (t, .ok events)
      else (t, .ok [])

end RadioTransport

/-- A call of the transport, and how the growths it asks for turn out. -/
structure Attempt (ρ : Type) where
  input : Input ρ
  growth : Growth

/-- The state a call leaves, whether it returns or an exception leaves it. -/
def RadioTransport.attempt [DecidableEq ρ] (t : RadioTransport b ρ)
    (a : Attempt ρ) : RadioTransport b ρ :=
  match a.input.call with
  | .processInboundPacket packet =>
      (t.processInboundPacketGrowing a.growth a.input.radios packet).1
  | _ => t.after a.input

end EspressioRadio
