/-
The transport's public calls, and runs of them.

`Call` is the public surface of `RadioTransport`; `perform` is one call,
with the radios as that call finds them, and `after` the state left
behind. A run is any list of calls: the transport itself never refuses
a call, whatever its state.
-/
import EspressioRadio.Lib.Observed
import EspressioRadio.Transport.Inbound

namespace EspressioRadio

variable {b : Bounds} {ρ : Type}

/-- A payload argument: a null pointer with some size, or the bytes the
pointer and size designate. -/
inductive PayloadArgument where
  | null (size : Nat)
  | data (bytes : List UInt8)

def PayloadArgument.size : PayloadArgument → Nat
  | .null size => size
  | .data bytes => bytes.length

/-- The payload, unless it is a null pointer with a nonzero size. -/
def PayloadArgument.get? : PayloadArgument → Option (List UInt8)
  | .null 0 => some []
  | .null (_ + 1) => none
  | .data bytes => some bytes

namespace RadioTransport

variable (t : RadioTransport b ρ)

-- ============================================================ topology

def findInterface [DecidableEq ρ] (radio : ρ) : Option (Fin b.maxInterfaces) :=
  Fin.find? fun i => (t.interfaces i).radio == some radio

def addInterface [DecidableEq ρ] (radio : ρ) (defaultRoute : Bool) :
    RadioTransport b ρ × Bool × List (Event ρ) :=
  match t.findInterface radio with
  | some i =>
      let record := { t.interfaces i with defaultRoute := defaultRoute }
      ({ t with interfaces := Function.update t.interfaces i record },
        true, [.interfaceConfigured radio defaultRoute])
  | none =>
      match Fin.find? fun i => (t.interfaces i).radio.isNone with
      | some i =>
          let record := { radio := some radio, defaultRoute := defaultRoute }
          ({ t with interfaces := Function.update t.interfaces i record },
            true, [.interfaceConfigured radio defaultRoute])
      | none => (t, false, [])

def setRoute [DecidableEq ρ] (destination : RadioNodeId) (radio : ρ)
    (nextHop : RadioAddress) : RadioTransport b ρ × Bool × List (Event ρ) :=
  if destination = broadcastNode ∨ !nextHop.isValid
      ∨ (t.findInterface radio).isNone then (t, false, [])
  else
    match Fin.find? fun i =>
        (t.routes i).used && (t.routes i).destination == destination with
    | some i =>
        let route := { t.routes i with radio := some radio, nextHop := nextHop }
        ({ t with routes := Function.update t.routes i route },
          true, [.routeConfigured destination radio nextHop])
    | none =>
        match Fin.find? fun i => !(t.routes i).used with
        | some i =>
            let route :=
              { used := true, destination := destination
                radio := some radio, nextHop := nextHop }
            ({ t with routes := Function.update t.routes i route },
              true, [.routeConfigured destination radio nextHop])
        | none => (t, false, [])

def removeRoute (destination : RadioNodeId) :
    RadioTransport b ρ × Bool × List (Event ρ) :=
  match Fin.find? fun i =>
      (t.routes i).used && (t.routes i).destination == destination with
  | some i =>
      ({ t with routes := Function.update t.routes i {} },
        true, [.routeRemoved destination])
  | none => (t, false, [])

-- =========================================================== lifecycle

/-- The radios registered, in table order. -/
def radioList : List ρ := (List.ofFn t.interfaces).filterMap (·.radio)

/-- `Start`: every radio is started, whether an earlier one failed or not,
and observers are told only if all did. -/
def start (radios : Radios ρ) : RadioTransport b ρ × Bool × List (Event ρ) :=
  let success := t.radioList.foldl (fun success radio => radios.start radio && success) true
  ({ t with started := success }, success,
    t.radioList.map .radioStart ++ (if success then [.started] else []))

def stop : RadioTransport b ρ × List (Event ρ) :=
  ({ t with
      started := false
      reassemblies := fun i => (t.reassemblies i).reset },
    t.radioList.map .radioStop ++ (if t.started then [.stopped] else []))

-- ================================================================ send

/-- The next message id: `_nextMessageId++`, skipping zero. -/
def advanceMessageId : RadioTransport b ρ :=
  { t with nextMessageId :=
      if t.nextMessageId + 1 = 0 then 1 else t.nextMessageId + 1 }

/-- The message a public `Send` hands to `SendFramed`. -/
def outbound (destination : RadioNodeId) (channel : RadioChannel)
    (payload : List UInt8) : Outbound where
  source := t.localNode
  destination := destination
  channel := channel
  messageId := t.nextMessageId
  hopLimit := t.defaultHopLimit
  payload := payload

def send (radios : Radios ρ) (destination : RadioNodeId) (channel : RadioChannel)
    (payload : PayloadArgument) :
    RadioTransport b ρ × RadioTransportSendResult × List (Event ρ) :=
  let completed (result : RadioTransportSendResult) : Event ρ :=
    .sendCompleted destination channel payload.size result
  if destination = 0 ∨ destination = t.localNode then
    let result := ⟨.invalidDestination, {}⟩
    (t, result, [completed result])
  else
    match payload.get? with
    | none =>
        let result := ⟨.invalidPayload, {}⟩
        (t, result, [completed result])
    | some bytes =>
        let sent := t.sendFramed radios (t.outbound destination channel bytes)
        (t.advanceMessageId, sent.1, sent.2.map .radioSend ++ [completed sent.1])

end RadioTransport

-- ================================================================ runs

/-- The public calls of the transport, with their arguments. -/
inductive Call (ρ : Type) where
  | processInboundPacket (packet : List UInt8)
  | send (destination : RadioNodeId) (channel : RadioChannel)
      (payload : PayloadArgument)
  | start
  | stop
  | addInterface (radio : ρ) (defaultRoute : Bool)
  | setRoute (destination : RadioNodeId) (radio : ρ) (nextHop : RadioAddress)
  | removeRoute (destination : RadioNodeId)
  | setReceiver (present : Bool)

/-- A public call, and the radios as the transport finds them during it. -/
structure Input (ρ : Type) where
  radios : Radios ρ
  call : Call ρ

namespace RadioTransport

variable [DecidableEq ρ]

/-- One public call: the state it leaves and what it does outside. -/
def perform (t : RadioTransport b ρ) (input : Input ρ) :
    RadioTransport b ρ × List (Event ρ) :=
  match input.call with
  | .processInboundPacket packet => t.processInboundPacket input.radios packet
  | .send destination channel payload =>
      let r := t.send input.radios destination channel payload
      (r.1, r.2.2)
  | .start => let r := t.start input.radios; (r.1, r.2.2)
  | .stop => t.stop
  | .addInterface radio defaultRoute =>
      let r := t.addInterface radio defaultRoute; (r.1, r.2.2)
  | .setRoute destination radio nextHop =>
      let r := t.setRoute destination radio nextHop; (r.1, r.2.2)
  | .removeRoute destination => let r := t.removeRoute destination; (r.1, r.2.2)
  | .setReceiver present => ({ t with receiver := present }, [])

/-- The state a call to the transport leaves. -/
def after (t : RadioTransport b ρ) (input : Input ρ) : RadioTransport b ρ :=
  (t.perform input).1

/-- What a call to the transport does outside, in order. -/
def effects (t : RadioTransport b ρ) (input : Input ρ) : List (Event ρ) :=
  (t.perform input).2

/-- The constructor: its two arguments stored and every table empty. -/
def create (localNode : RadioNodeId) (defaultHopLimit : UInt8) :
    RadioTransport b ρ :=
  { localNode, defaultHopLimit }

/-- Some run of public calls from construction ends in this state. -/
def Reachable (t : RadioTransport b ρ) : Prop :=
  ∃ localNode defaultHopLimit inputs,
    t = Observed.run after (create localNode defaultHopLimit) inputs

end RadioTransport

end EspressioRadio
