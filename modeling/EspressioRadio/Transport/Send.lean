/-
The outbound half: fragmentation over one radio (`SendVia`) and the
choice of interface and next hop (`SendFramed`).

`Outbound` bundles the parameters both functions pass along unchanged.
A null payload pointer only reaches them with size zero, so the payload
is a plain list. Both return the source's result together with the
`radio.Send` calls made, in order.
-/
import EspressioRadio.Transport.State

namespace EspressioRadio

variable {b : Bounds} {ρ : Type}

/-- The message parameters of `SendVia` and `SendFramed`. -/
structure Outbound where
  source : RadioNodeId
  destination : RadioNodeId
  channel : RadioChannel
  messageId : RadioMessageId
  hopLimit : UInt8
  payload : List UInt8

def Outbound.identity (m : Outbound) : MessageIdentity where
  source := m.source
  destination := m.destination
  channel := m.channel
  messageId := m.messageId

-- ======================================================= fragmentation

/-- `FragmentPayloadBytes`: the MTU less the header, at most 255. -/
def fragmentPayloadBytes (radios : Radios ρ) (radio : ρ) : Nat :=
  let mtu := (radios.capabilities radio).maximumPayloadBytes.toNat
  if mtu ≤ wireHeaderBytes then 0 else min 255 (mtu - wireHeaderBytes)

/-- The header of one fragment, as the loop of `SendVia` fills it. -/
def fragmentHeader (m : Outbound) (chunk : Nat) (fragmentCount index : UInt8) :
    WireHeader :=
  let offset := index.toNat * chunk
  let remaining :=
    if m.payload.length > offset then m.payload.length - offset else 0
  { channel := m.channel
    source := m.source
    destination := m.destination
    messageId := m.messageId
    fragmentIndex := index
    fragmentCount := fragmentCount
    chunkBytes := UInt8.ofNat chunk
    payloadBytes := UInt8.ofNat (min chunk remaining)
    hopLimit := m.hopLimit }

/-- The frame handed to `radio.Send`: the header and the `memcpy`'d
slice of the payload. -/
def fragmentFrame (m : Outbound) (chunk : Nat) (fragmentCount index : UInt8) :
    List UInt8 :=
  let header := fragmentHeader m chunk fragmentCount index
  encodeHeader header
    ++ (m.payload.drop (index.toNat * chunk)).take header.payloadBytes.toNat

private theorem toNat_succ_of_lt {i n : UInt8} (h : i < n) :
    (i + 1).toNat = i.toNat + 1 := by
  have hlt := UInt8.lt_iff_toNat_lt.mp h
  have hn := n.toNat_lt
  rw [UInt8.toNat_add]
  exact Nat.mod_eq_of_lt (by simp; omega)

/-- The fragment loop, from `index` on. Its index and bound are both
eight bits wide: below the bound the increment does not wrap. -/
def sendFragments (radios : Radios ρ) (radio : ρ) (nextHop : RadioAddress)
    (m : Outbound) (chunk : Nat) (fragmentCount index : UInt8) :
    RadioTransportSendResult × List (SendCall ρ) :=
  if _h : index < fragmentCount then
    let result := radios.send radio index
    let call : SendCall ρ :=
      { radio, nextHop, frame := fragmentFrame m chunk fragmentCount index, result }
    if result.ok then
      let rest := sendFragments radios radio nextHop m chunk fragmentCount (index + 1)
      (rest.1, call :: rest.2)
    else (⟨.radioRejected, result⟩, [call])
  else (⟨.accepted, .accepted⟩, [])
termination_by fragmentCount.toNat - index.toNat
decreasing_by
  have hlt := UInt8.lt_iff_toNat_lt.mp _h
  rw [toNat_succ_of_lt _h]
  omega

/-- The number of fragments `SendVia` computes. -/
def fragmentCountValue (payloadSize chunk : Nat) : Nat :=
  if payloadSize = 0 then 1 else (payloadSize + chunk - 1) / chunk

def sendVia (b : Bounds) (radios : Radios ρ) (radio : ρ) (nextHop : RadioAddress)
    (m : Outbound) : RadioTransportSendResult × List (SendCall ρ) :=
  if !radios.isStarted radio then (⟨.interfaceUnavailable, ⟨.notStarted, 0⟩⟩, [])
  else
    let chunk := fragmentPayloadBytes radios radio
    if chunk = 0 then (⟨.interfaceUnavailable, ⟨.unsupported, 0⟩⟩, [])
    else if m.payload.length > b.maxMessageBytes then (⟨.messageTooLarge, {}⟩, [])
    else
      let count := fragmentCountValue m.payload.length chunk
      if count > 255 then (⟨.messageTooLarge, {}⟩, [])
      else sendFragments radios radio nextHop m chunk (UInt8.ofNat count) 0

-- =========================================================== selection

namespace RadioTransport

variable (t : RadioTransport b ρ)

def findRoute (destination : RadioNodeId) : Option (RouteRecord ρ) :=
  (Fin.find? fun i =>
      (t.routes i).used && (t.routes i).destination == destination
        && (t.routes i).radio.isSome).map t.routes

def findDefaultInterface : Option (InterfaceRecord ρ) :=
  (Fin.find? fun i =>
      (t.interfaces i).radio.isSome && (t.interfaces i).defaultRoute).map
    t.interfaces

/-- The broadcast loop of `SendFramed` over the remaining interfaces,
with its two accumulators. -/
def sendBroadcast (radios : Radios ρ) (m : Outbound) :
    List (InterfaceRecord ρ) → Bool → RadioTransportSendResult →
      RadioTransportSendResult × List (SendCall ρ)
  | [], sent, last => (if sent then ⟨.accepted, .accepted⟩ else last, [])
  | record :: records, sent, last =>
      match record.radio with
      | none => sendBroadcast radios m records sent last
      | some radio =>
          if !(radios.capabilities radio).has .broadcast then
            sendBroadcast radios m records sent last
          else
            let address :=
              RadioAddress.broadcast (radios.capabilities radio).addressBytes
            let result := sendVia b radios radio address m
            let rest :=
              if result.1.ok then sendBroadcast radios m records true last
              else sendBroadcast radios m records sent result.1
            (rest.1, result.2 ++ rest.2)

def sendFramed (radios : Radios ρ) (m : Outbound) :
    RadioTransportSendResult × List (SendCall ρ) :=
  if m.destination = broadcastNode then
    sendBroadcast (b := b) radios m (List.ofFn t.interfaces) false ⟨.noRoute, {}⟩
  else
    match t.findRoute m.destination with
    | some { radio := some radio, nextHop, .. } =>
        sendVia b radios radio nextHop m
    | _ =>
        match t.findDefaultInterface with
        | some { radio := some radio, .. } =>
            sendVia b radios radio
              (RadioAddress.broadcast (radios.capabilities radio).addressBytes) m
        | _ => (⟨.noRoute, {}⟩, [])

end RadioTransport

end EspressioRadio
