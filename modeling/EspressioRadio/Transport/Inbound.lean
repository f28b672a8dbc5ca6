/-
The inbound half: duplicate suppression, slot selection with eviction,
reassembly, and completion (`RadioTransport::ProcessInboundPacket` and
the functions it calls).

`ProcessInboundPacket` is cut at its last line. `receiveFragment` is
everything before the completion test: it touches no radio and no
receiver, and names the slot the packet's fragment was taken into, if
any. `processInboundPacket` adds the test and `Complete`.

Element accesses are total here (`getD`, `patch`): that every one of
them is in bounds is a theorem about reachable states, not a property
of the definitions.
-/
import EspressioRadio.Lib.Chunks
import EspressioRadio.Transport.Send

namespace EspressioRadio

open Chunks (patch)

variable {b : Bounds} {ρ : Type}

-- =============================================================== slots

/-- `vector::resize(n)`: truncated, or padded with zero bytes. -/
def resize (buffer : List UInt8) (n : Nat) : List UInt8 :=
  buffer.take n ++ List.replicate (n - buffer.length) 0

namespace ReassemblyRecord

/-- The slot is in use for the header's message. -/
def holds (s : ReassemblyRecord) (h : WireHeader) : Bool :=
  s.used && s.source == h.source && s.destination == h.destination
    && s.channel == h.channel && s.messageId == h.messageId

/-- The assignments `FindOrCreateReassembly` makes to its candidate. -/
def opened (s : ReassemblyRecord) (h : WireHeader) (touch : UInt32) :
    ReassemblyRecord :=
  { s with
    used := true
    source := h.source
    destination := h.destination
    channel := h.channel
    messageId := h.messageId
    fragmentCount := h.fragmentCount
    chunkBytes := h.chunkBytes
    hopLimit := h.hopLimit
    touch := touch
    buffer := resize s.buffer (h.fragmentCount.toNat * h.chunkBytes.toNat)
    received := List.replicate h.fragmentCount.toNat 0 }

/-- The slot once `slot->Touch = touch` has made it the last one used. -/
def touched (s : ReassemblyRecord) (touch : UInt32) : ReassemblyRecord :=
  { s with touch := touch }

/-- Where the fragment's bytes belong in the buffer. -/
def offset (h : WireHeader) : Nat := h.fragmentIndex.toNat * h.chunkBytes.toNat

/-- Copy a fragment in, unless its index was received before. -/
def copyIn (s : ReassemblyRecord) (h : WireHeader) (body : List UInt8) :
    ReassemblyRecord :=
  if s.received.getD h.fragmentIndex.toNat 0 = 0 then
    { s with
      buffer := patch s.buffer (offset h) (body.take h.payloadBytes.toNat)
      received := s.received.set h.fragmentIndex.toNat 1
      receivedCount := s.receivedCount + 1 }
  else s

/-- `LastPayloadBytes` follows every fragment with the final index,
received before or not. -/
def noteLast (s : ReassemblyRecord) (h : WireHeader) : ReassemblyRecord :=
  if h.fragmentIndex = h.fragmentCount - 1 then
    { s with lastPayloadBytes := h.payloadBytes }
  else s

/-- What `ProcessInboundPacket` writes to the slot of an accepted
fragment, its touch apart. -/
def store (s : ReassemblyRecord) (h : WireHeader) (body : List UInt8) :
    ReassemblyRecord :=
  (s.copyIn h body).noteLast h

/-- The `PayloadSize` of the completed message: full chunks but for the last
fragment. -/
def total (s : ReassemblyRecord) : Nat :=
  if s.fragmentCount = 0 then 0
  else (s.fragmentCount.toNat - 1) * s.chunkBytes.toNat + s.lastPayloadBytes.toNat

/-- The view `Complete` hands out: the slot's identity, and the first
`PayloadSize` bytes of its buffer. -/
def message (s : ReassemblyRecord) : RadioTransportMessageView where
  sourceNode := s.source
  destinationNode := s.destination
  channel := s.channel
  messageId := s.messageId
  payload := s.buffer.take s.total

/-- What a completed slot is forwarded as. -/
def forwarded (s : ReassemblyRecord) : Outbound where
  source := s.source
  destination := s.destination
  channel := s.channel
  messageId := s.messageId
  hopLimit := s.hopLimit - 1
  payload := s.message.payload

/-- The completion test: as many fragments have been received as the message
has. -/
def isComplete (s : ReassemblyRecord) : Bool :=
  s.receivedCount.toNat == s.fragmentCount.toNat

end ReassemblyRecord

/-- The ring entry is in use for the header's message. -/
def RecentMessageRecord.holds (r : RecentMessageRecord) (h : WireHeader) : Bool :=
  r.used && r.source == h.source && r.destination == h.destination
    && r.channel == h.channel && r.messageId == h.messageId

/-- The header `Complete` builds to consult the ring: identity only. -/
def MessageIdentity.header (id : MessageIdentity) : WireHeader :=
  { source := id.source, destination := id.destination
    channel := id.channel, messageId := id.messageId }

namespace RadioTransport

variable (t : RadioTransport b ρ)

/-- Assign one reassembly slot, and leave the rest of the transport alone. -/
def setSlot (i : Fin b.maxReassemblies) (s : ReassemblyRecord) :
    RadioTransport b ρ :=
  { t with reassemblies := Function.update t.reassemblies i s }

/-- `slot.Reset()`, for the slot with this index. -/
def resetSlot (i : Fin b.maxReassemblies) : RadioTransport b ρ :=
  t.setSlot i (t.reassemblies i).reset

/-- `++_touchCounter`, in 32 bits: the increment wraps. -/
def bumpTouch : RadioTransport b ρ := { t with touchCounter := t.touchCounter + 1 }

-- ========================================================= recent ring

def isRecent (h : WireHeader) : Bool :=
  (Fin.find? fun i => (t.recent i).holds h).isSome

/-- `_recent[_recentCursor++ % _recent.size()] = {true, ...}`: the ring's
cursor wraps with `std::size_t`. -/
def remember (h : WireHeader) : RadioTransport b ρ :=
  { t with
    recent := Function.update t.recent (Fin.ofNat _ t.recentCursor)
      { used := true, source := h.source, destination := h.destination
        channel := h.channel, messageId := h.messageId }
    recentCursor := (t.recentCursor + 1) % 2 ^ b.sizeBits }

-- ====================================================== slot selection

/-- The first slot with the smallest touch. -/
def leastTouched : Fin b.maxReassemblies :=
  (List.finRange b.maxReassemblies).foldl
    (fun candidate i =>
      if (t.reassemblies i).touch < (t.reassemblies candidate).touch then i
      else candidate)
    0

/-- The candidate for a new message: the first unused slot, else the
least recently touched one, which is reset on the spot. -/
def candidate : RadioTransport b ρ × Fin b.maxReassemblies :=
  match Fin.find? fun i => !(t.reassemblies i).used with
  | some i => (t, i)
  | none => (t.resetSlot t.leastTouched, t.leastTouched)

def findOrCreateReassembly (h : WireHeader) :
    RadioTransport b ρ × Option (Fin b.maxReassemblies) :=
  match Fin.find? fun i => (t.reassemblies i).holds h with
  | some i => (t, some i)
  | none =>
      -- the eviction in `candidate` stands even when the size test fails
      let (t, i) := t.candidate
      let allocation := h.fragmentCount.toNat * h.chunkBytes.toNat
      if allocation > b.maxMessageBytes then (t, none)
      else
        let t := t.bumpTouch
        (t.setSlot i ((t.reassemblies i).opened h t.touchCounter), some i)

-- ========================================================== completion

/-- What `Complete` does with the message once it is remembered:
deliver it here, pass it on, or drop it for want of hops. -/
def dispatch (radios : Radios ρ) (slot : ReassemblyRecord) : List (Event ρ) :=
  if slot.destination = t.localNode ∨ slot.destination = broadcastNode then
    (if t.receiver then [.receiverMessage slot.message] else [])
      ++ [.messageReceived slot.message]
  else if slot.hopLimit > 0 then
    let result := t.sendFramed radios slot.forwarded
    result.2.map .radioSend ++ [.messageForwarded slot.message result.1]
  else []

def complete (radios : Radios ρ) (i : Fin b.maxReassemblies) :
    RadioTransport b ρ × List (Event ρ) :=
  let slot := t.reassemblies i
  let identity := slot.identity.header
  if t.isRecent identity then (t.resetSlot i, [])
  else
    let t := t.remember identity
    (t.resetSlot i, t.dispatch radios slot)

-- ============================================================= inbound

/-- The part of `ProcessInboundPacket` that follows slot selection, up
to the completion test. -/
def storeFragment (i : Fin b.maxReassemblies) (h : WireHeader)
    (body : List UInt8) :
    RadioTransport b ρ × Option (Fin b.maxReassemblies) :=
  let slot := t.reassemblies i
  if slot.fragmentCount ≠ h.fragmentCount ∨ slot.chunkBytes ≠ h.chunkBytes then
    (t.resetSlot i, none)
  else
    let t := t.bumpTouch
    if ReassemblyRecord.offset h + h.payloadBytes.toNat > slot.buffer.length then
      (t.resetSlot i, none)
    else
      (t.setSlot i ((slot.touched t.touchCounter).store h body), some i)

/-- The packet is not for reassembly here: it names no source or no
destination, comes from this node itself, or its message is among the recent
ones. -/
def refuses (h : WireHeader) : Bool :=
  h.source == 0 || h.source == t.localNode || h.destination == 0 || t.isRecent h

/-- `ProcessInboundPacket` up to the completion test: the slot the
packet's fragment was taken into, if it was. -/
def receiveFragment (packet : List UInt8) :
    RadioTransport b ρ × Option (Fin b.maxReassemblies) :=
  match decodeHeader packet with
  | none => (t, none)
  | some h =>
      if t.refuses h then (t, none)
      else
        match t.findOrCreateReassembly h with
        | (t, none) => (t, none)
        | (t, some i) => t.storeFragment i h (packetBody packet)

/-- The slot the packet's fragment is taken into, if it is. -/
def takes (packet : List UInt8) : Option (Fin b.maxReassemblies) :=
  (t.receiveFragment packet).2

/-- The packet's message has no slot yet: taking it in opens one. -/
def opens (packet : List UInt8) : Bool :=
  match decodeHeader packet with
  | none => false
  | some h => (Fin.find? fun i => (t.reassemblies i).holds h).isNone

def processInboundPacket (radios : Radios ρ) (packet : List UInt8) :
    RadioTransport b ρ × List (Event ρ) :=
  match t.receiveFragment packet with
  | (t, none) => (t, [])
  | (t, some i) =>
      if (t.reassemblies i).isComplete then t.complete radios i else (t, [])

end RadioTransport

end EspressioRadio
