/-
One clock synchronizer: its members, its public calls, and the packet
observer (`RadioClockSynchronizer`).

# What a call reads outside

A call's record (`RequestReads`, `ReceiveReads`, `InitializeReads`)
holds what it reads off its radio, its target and the monotonic clock,
in the order of the reads. The radio and the target are never null: the
constructor takes the one by reference and replaces a null target.

# Around `radio.Send`

`RequestSynchronization` is cut at its `_radio->Send`. `beginRequest` is
everything before, `endRequest` everything after, and
`requestSynchronization` the call whose send nothing comes in during.

The mutex around the configuration and the atomics' memory orders have
no counterpart: the calls of a run follow each other. The counters wrap,
as the source's do.
-/
import EspressioRadio.Clock.Wire

namespace EspressioRadio

inductive RadioClockSynchronizationMode where
  | disabled
  | client
  | reference
  | clientAndReference
  deriving DecidableEq, Repr

structure RadioClockSynchronizationConfig where
  mode : RadioClockSynchronizationMode := .disabled
  referencePeer : RadioAddress := {}
  synchronizationIntervalMilliseconds : UInt32 := 1000
  /-- The target's own enumeration, passed on with every sample. -/
  adjustmentMode : UInt8 := 0
  requireReceiveTimestamp : Bool := false

structure RadioClockSynchronizationStatistics where
  requestsAttempted : UInt64 := 0
  requestsSent : UInt64 := 0
  requestsReceived : UInt64 := 0
  responsesSent : UInt64 := 0
  responsesReceived : UInt64 := 0
  sendFailures : UInt64 := 0
  ignoredFrames : UInt64 := 0
  samplesAccepted : UInt64 := 0
  samplesRejected : UInt64 := 0
  timestampFallbacks : UInt64 := 0
  deriving DecidableEq, Repr

/-- What the synchronizer reads of a received packet. -/
structure RadioPacketView where
  source : RadioAddress := {}
  payload : List UInt8
  receiveTimestampNanoseconds : UInt64 := 0

structure ClockSynchronizationSample where
  localRequestTransmitTime : UInt64
  remoteRequestReceiveTime : UInt64
  remoteResponseTransmitTime : UInt64
  localResponseReceiveTime : UInt64
  deriving DecidableEq, Repr

structure RadioClockSynchronizer where
  config : RadioClockSynchronizationConfig := {}
  nextSequence : UInt32 := 1
  pendingSequence : UInt32 := 0
  lastRequestMonotonicNanoseconds : UInt64 := 0
  initialized : Bool := false
  statistics : RadioClockSynchronizationStatistics := {}

-- ========================================================= the outside

/-- What `Initialize` reads off the radio. -/
structure InitializeReads where
  capabilities : RadioCapabilities
  localAddress : RadioAddress
  /-- `Subscribe` neither throws nor returns null. -/
  subscribed : Bool

/-- What `RequestSynchronization` reads off the radio and the clocks, and
what its send comes to. -/
structure RequestReads where
  isStarted : Bool
  localAddress : RadioAddress
  /-- The target's time: T1. -/
  timestamp : UInt64
  monotonic : UInt64
  sent : RadioSendResult

/-- What `OnRadioPacketReceived` reads off the radio, the target and the
clocks, and what its send comes to. -/
structure ReceiveReads where
  /-- `&radio == _radio`. -/
  ownRadio : Bool := true
  /-- `radio.Capabilities().AddressBytes`. -/
  addressBytes : UInt8
  /-- The target's time, then the monotonic clock, in
  `RecoverSystemTimestamp`. -/
  timestamp : UInt64
  monotonic : UInt64
  /-- The target's time once more: T3. -/
  transmitTimestamp : UInt64
  sent : RadioSendResult
  /-- The target's verdict on a sample. -/
  accepted : Bool

/-- What a call does to the outside, and the two moments at which it
settles on timestamps. -/
inductive ClockEvent where
  | requestCaptured (sequence : UInt32) (t1 : UInt64)
  | requestProcessed (sequence : UInt32) (t2 t3 : UInt64)
  | radioSend (destination : RadioAddress) (frame : List UInt8)
      (result : RadioSendResult)
  | submitSynchronizationSample (sample : ClockSynchronizationSample)
      (adjustmentMode : UInt8)

namespace RadioClockSynchronizationStatistics

variable (c : RadioClockSynchronizationStatistics)

def requestAttempted := { c with requestsAttempted := c.requestsAttempted + 1 }
def requestSent := { c with requestsSent := c.requestsSent + 1 }
def requestReceived := { c with requestsReceived := c.requestsReceived + 1 }
def responseSent := { c with responsesSent := c.responsesSent + 1 }
def responseReceived := { c with responsesReceived := c.responsesReceived + 1 }
def sendFailure := { c with sendFailures := c.sendFailures + 1 }
def ignoredFrame := { c with ignoredFrames := c.ignoredFrames + 1 }
def sampleAccepted := { c with samplesAccepted := c.samplesAccepted + 1 }
def sampleRejected := { c with samplesRejected := c.samplesRejected + 1 }
def timestampFallback := { c with timestampFallbacks := c.timestampFallbacks + 1 }

end RadioClockSynchronizationStatistics

namespace RadioClockSynchronizer

open RadioClockSynchronizationStatistics

def isClientMode (mode : RadioClockSynchronizationMode) : Bool :=
  mode == .client || mode == .clientAndReference

def isReferenceMode (mode : RadioClockSynchronizationMode) : Bool :=
  mode == .reference || mode == .clientAndReference

variable (s : RadioClockSynchronizer)

/-- The synchronizer with one of its counters moved on. -/
def count
    (step : RadioClockSynchronizationStatistics → RadioClockSynchronizationStatistics) :
    RadioClockSynchronizer :=
  { s with statistics := step s.statistics }

-- =========================================================== lifecycle

def shutdown : RadioClockSynchronizer :=
  { s with
    initialized := false, pendingSequence := 0, lastRequestMonotonicNanoseconds := 0 }

/-- The radio's addresses suit a client configuration: both are valid, and
of the radio's length if it has one. -/
def clientAddressesFit (config : RadioClockSynchronizationConfig)
    (reads : InitializeReads) : Bool :=
  let addressBytes := reads.capabilities.addressBytes
  config.referencePeer.isValid && reads.localAddress.isValid
    && (addressBytes == 0
      || config.referencePeer.length == addressBytes
        && reads.localAddress.length == addressBytes)

/-- `Initialize`: whatever it comes to, the synchronizer is shut down first,
and only a success sets it up again. -/
def initializeWith (config : RadioClockSynchronizationConfig) (reads : InitializeReads) :
    RadioClockSynchronizer × Bool :=
  let s := s.shutdown
  if reads.capabilities.maximumPayloadBytes.toNat < responseBytes then (s, false)
  else if config.requireReceiveTimestamp
      && !reads.capabilities.has .receiveTimestamp then (s, false)
  else if isClientMode config.mode && !clientAddressesFit config reads then (s, false)
  else
    -- the configuration stands even when the subscription fails
    let s := { s with config := config }
    if !reads.subscribed then (s, false)
    else
      ({ s with
          pendingSequence := 0, lastRequestMonotonicNanoseconds := 0
          initialized := true }, true)

-- ============================================================ requests

/-- `_nextSequence.fetch_add(1)`, again if it gave zero. -/
def takeSequence : RadioClockSynchronizer × UInt32 :=
  if s.nextSequence ≠ 0 then
    ({ s with nextSequence := s.nextSequence + 1 }, s.nextSequence)
  else
    let sequence := s.nextSequence + 1
    ({ s with nextSequence := s.nextSequence + 1 + 1 },
      if sequence = 0 then 1 else sequence)

/-- A request about to be sent: its number, the T1 captured for it, and its
frame. -/
structure OutgoingRequest where
  sequence : UInt32
  t1 : UInt64
  destination : RadioAddress
  frame : List UInt8

/-- `RequestSynchronization` up to `_radio->Send`: the request to send,
or the result to return without sending. -/
def beginRequest (reads : RequestReads) :
    RadioClockSynchronizer × Except RadioSendResult OutgoingRequest :=
  let s := s.count requestAttempted
  if !s.initialized || !reads.isStarted then
    (s.count sendFailure, .error { status := .notStarted, nativeError := 0 })
  else if !isClientMode s.config.mode || !s.config.referencePeer.isValid
      || !reads.localAddress.isValid then
    (s.count sendFailure, .error { status := .invalidAddress, nativeError := 0 })
  else
    let (s, sequence) := s.takeSequence
    ({ s with
        pendingSequence := sequence
        lastRequestMonotonicNanoseconds := reads.monotonic },
      .ok
        { sequence := sequence
          t1 := reads.timestamp
          destination := s.config.referencePeer
          frame := encodeRequest sequence reads.timestamp reads.localAddress })

/-- `RequestSynchronization` after `_radio->Send`: the outcome is counted,
and a rejected frame takes the pending number back. -/
def endRequest (result : RadioSendResult) : RadioClockSynchronizer :=
  if result.ok then s.count requestSent
  else ({ s with pendingSequence := 0 }).count sendFailure

def requestSynchronization (reads : RequestReads) :
    RadioClockSynchronizer × RadioSendResult × List ClockEvent :=
  match s.beginRequest reads with
  | (s, .error result) => (s, result, [])
  | (s, .ok request) =>
      (s.endRequest reads.sent, reads.sent,
        [.requestCaptured request.sequence request.t1,
          .radioSend request.destination request.frame reads.sent])

/-- `Update`; `now` is its own reading of the monotonic clock. -/
def update (now : UInt64) (reads : RequestReads) :
    RadioClockSynchronizer × List ClockEvent :=
  if !s.initialized then (s, [])
  else if !isClientMode s.config.mode
      || s.config.synchronizationIntervalMilliseconds == 0 then (s, [])
  else
    let interval := s.config.synchronizationIntervalMilliseconds.toUInt64 * 1000000
    let last := s.lastRequestMonotonicNanoseconds
    if last == 0 || now - last ≥ interval then
      let r := s.requestSynchronization reads
      (r.1, r.2.2)
    else (s, [])

-- ============================================================= packets

/-- The system time at which the packet came in, as far as the radio's
timestamp allows to tell: the target's time now, less what the monotonic
clock says has passed since. -/
def recoverSystemTimestamp (packet : RadioPacketView) (reads : ReceiveReads) :
    RadioClockSynchronizer × UInt64 :=
  let nowSystem := reads.timestamp
  let receiveMonotonic := packet.receiveTimestampNanoseconds
  if receiveMonotonic = 0 then (s.count timestampFallback, nowSystem)
  else
    let nowMonotonic := reads.monotonic
    if nowMonotonic ≤ receiveMonotonic then (s, nowSystem)
    else
      let elapsed := nowMonotonic - receiveMonotonic
      (s, if nowSystem ≥ elapsed then nowSystem - elapsed else 0)

/-- A response about to be sent: what it was made of, where it goes and its
frame. -/
structure OutgoingResponse where
  sequence : UInt32
  t2 : UInt64
  t3 : UInt64
  destination : RadioAddress
  frame : List UInt8

/-- `ProcessRequest` up to `radio.Send`: the response to send, unless
the request is ignored. -/
def beginResponse (packet : RadioPacketView) (sequence : UInt32) (reads : ReceiveReads) :
    RadioClockSynchronizer × Option OutgoingResponse :=
  if !isReferenceMode s.config.mode || packet.payload.length != requestBytes then
    (s.count ignoredFrame, none)
  else
    let embeddedSource := decodeRequestAddress packet.payload
    if !embeddedSource.isValid then (s.count ignoredFrame, none)
    else if packet.source.isValid && !packet.source.same embeddedSource then
      (s.count ignoredFrame, none)
    else
      let responseDestination :=
        if packet.source.isValid then packet.source else embeddedSource
      if reads.addressBytes != 0
          && responseDestination.length != reads.addressBytes then
        (s.count ignoredFrame, none)
      else
        let s := s.count requestReceived
        let t1 := readU64 packet.payload requestTimestampOffset
        let (s, t2) := s.recoverSystemTimestamp packet reads
        let t3 := reads.transmitTimestamp
        (s, some
          { sequence := sequence
            t2 := t2
            t3 := t3
            destination := responseDestination
            frame := encodeResponse sequence t1 t2 t3 })

/-- `ProcessRequest` after `radio.Send`: the outcome is counted. -/
def endResponse (result : RadioSendResult) : RadioClockSynchronizer :=
  if result.ok then s.count responseSent else s.count sendFailure

/-- `ProcessRequest` with nothing coming in during its `radio.Send`: the
request is ignored, or its response handed to the radio and the outcome
counted. -/
def processRequest (packet : RadioPacketView) (sequence : UInt32)
    (reads : ReceiveReads) : RadioClockSynchronizer × List ClockEvent :=
  match s.beginResponse packet sequence reads with
  | (s, none) => (s, [])
  | (s, some response) =>
      (s.endResponse reads.sent,
        [.requestProcessed response.sequence response.t2 response.t3,
          .radioSend response.destination response.frame reads.sent])

def processResponse (packet : RadioPacketView) (sequence : UInt32)
    (reads : ReceiveReads) : RadioClockSynchronizer × List ClockEvent :=
  if !isClientMode s.config.mode || packet.payload.length != responseBytes then
    (s.count ignoredFrame, [])
  else if packet.source.isValid && s.config.referencePeer.isValid
      && !packet.source.same s.config.referencePeer then
    (s.count ignoredFrame, [])
  else
    let pending := s.pendingSequence
    if pending = 0 ∨ pending ≠ sequence then (s.count ignoredFrame, [])
    else
      let s := ({ s with pendingSequence := 0 }).count responseReceived
      let (s, t4) := s.recoverSystemTimestamp packet reads
      let sample : ClockSynchronizationSample :=
        { localRequestTransmitTime := readU64 packet.payload 8
          remoteRequestReceiveTime := readU64 packet.payload 16
          remoteResponseTransmitTime := readU64 packet.payload 24
          localResponseReceiveTime := t4 }
      (if reads.accepted then s.count sampleAccepted else s.count sampleRejected,
        [.submitSynchronizationSample sample s.config.adjustmentMode])

/-- `OnRadioPacketReceived` up to the `radio.Send` of a response, or to
its end: a request goes as far as `beginResponse`, a response through the
whole of `processResponse`. -/
def beginReceive (packet : RadioPacketView) (reads : ReceiveReads) :
    RadioClockSynchronizer × List ClockEvent × Option OutgoingResponse :=
  if !s.initialized || !reads.ownRadio then (s, [], none)
  else
    match decodeHeader packet.payload with
    | none => (s, [], none)
    | some (type, sequence) =>
        if s.config.requireReceiveTimestamp
            && packet.receiveTimestampNanoseconds == 0 then
          (s.count ignoredFrame, [], none)
        else
          match type with
          | .request =>
              let r := s.beginResponse packet sequence reads
              (r.1, r.2.toList.map fun response =>
                .requestProcessed response.sequence response.t2 response.t3, r.2)
          | .response =>
              let r := s.processResponse packet sequence reads
              (r.1, r.2, none)

/-- `OnRadioPacketReceived` with nothing coming in during the send of a
response. `onRadioPacketReceived_eq` has it as the dispatch to
`processRequest` and `processResponse`. -/
def onRadioPacketReceived (packet : RadioPacketView) (reads : ReceiveReads) :
    RadioClockSynchronizer × List ClockEvent :=
  match s.beginReceive packet reads with
  | (s, events, none) => (s, events)
  | (s, events, some response) =>
      (s.endResponse reads.sent,
        events ++ [.radioSend response.destination response.frame reads.sent])

def resetStatistics : RadioClockSynchronizer := { s with statistics := {} }

end RadioClockSynchronizer

end EspressioRadio
