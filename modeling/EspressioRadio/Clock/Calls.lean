/-
A synchronizer's public calls, and runs of them.

`RequestSynchronization` is one call, or, where something comes in while
its `radio.Send` is under way, two: `beginRequest` as far as the send and
`endRequest` from there. `Update` likewise. `sending` holds the requests
that are inside `radio.Send`, the innermost first.

A response is handled up to the load of `_pendingSequence`
(`responseSequence?`) and, where its number is the one found there, from
the store on (`acceptResponse`).
-/
import EspressioRadio.Clock.Synchronizer
import EspressioRadio.Lib.Observed

namespace EspressioRadio

namespace RadioClockSynchronizer

open RadioClockSynchronizationStatistics

variable (s : RadioClockSynchronizer)

-- ========================================================== the two cuts

/-- The conditions under which `Update` goes on to call
`RequestSynchronization`: an initialized client with an interval, which has
elapsed since the last reading recorded, or none is recorded. -/
def isUpdateDue (now : UInt64) : Bool :=
  let interval := s.config.synchronizationIntervalMilliseconds.toUInt64 * 1000000
  let last := s.lastRequestMonotonicNanoseconds
  s.initialized && isClientMode s.config.mode
    && s.config.synchronizationIntervalMilliseconds != 0
    && (last == 0 || now - last ≥ interval)

/-- The number of a response that passes every check of
`OnRadioPacketReceived` and `ProcessResponse` up to the load of
`_pendingSequence`. -/
def responseSequence? (packet : RadioPacketView) (ownRadio : Bool) : Option UInt32 :=
  if !s.initialized || !ownRadio then none
  else
    match decodeHeader packet.payload with
    | some (.response, sequence) =>
        if s.config.requireReceiveTimestamp
            && packet.receiveTimestampNanoseconds == 0 then none
        else if !isClientMode s.config.mode || packet.payload.length != responseBytes then
          none
        else if packet.source.isValid && s.config.referencePeer.isValid
            && !packet.source.same s.config.referencePeer then none
        else some sequence
    | _ => none

/-- `ProcessResponse` from the store to `_pendingSequence` on: the number is
cleared, the sample submitted and the target's verdict counted. -/
def acceptResponse (packet : RadioPacketView) (reads : ReceiveReads) :
    RadioClockSynchronizer × List ClockEvent :=
  let s := ({ s with pendingSequence := 0 }).count responseReceived
  let (s, t4) := s.recoverSystemTimestamp packet reads
  let sample : ClockSynchronizationSample :=
    { localRequestTransmitTime := readU64 packet.payload 8
      remoteRequestReceiveTime := readU64 packet.payload 16
      remoteResponseTransmitTime := readU64 packet.payload 24
      localResponseReceiveTime := t4 }
  (if reads.accepted then s.count sampleAccepted else s.count sampleRejected,
    [.submitSynchronizationSample sample s.config.adjustmentMode])

end RadioClockSynchronizer

-- ================================================================= calls

inductive ClockCall where
  | initializeWith (config : RadioClockSynchronizationConfig) (reads : InitializeReads)
  | shutdown
  | resetStatistics
  | requestSynchronization (reads : RequestReads)
  | update (now : UInt64) (reads : RequestReads)
  /-- `RequestSynchronization` as far as `radio.Send`. -/
  | beginRequest (reads : RequestReads)
  /-- `Update` as far as `radio.Send`. -/
  | beginUpdate (now : UInt64) (reads : RequestReads)
  /-- The innermost send under way returns, and its call with it. -/
  | endRequest (result : RadioSendResult)
  | onRadioPacketReceived (packet : RadioPacketView) (reads : ReceiveReads)

/-- A synchronizer, and its requests inside `radio.Send`, the innermost
first. -/
structure ClockSession where
  synchronizer : RadioClockSynchronizer := {}
  sending : List RadioClockSynchronizer.OutgoingRequest := []

namespace ClockSession

open RadioClockSynchronizer

variable (c : ClockSession)

/-- A call from beginning to end, nothing else coming in meanwhile. -/
def whole (result : RadioClockSynchronizer × List ClockEvent) :
    ClockSession × List ClockEvent :=
  ({ c with synchronizer := result.1 }, result.2)

def beginRequest (reads : RequestReads) : ClockSession × List ClockEvent :=
  match c.synchronizer.beginRequest reads with
  | (s, .error _) => ({ c with synchronizer := s }, [])
  | (s, .ok request) =>
      ({ synchronizer := s, sending := request :: c.sending },
        [.requestCaptured request.sequence request.t1])

def endRequest (result : RadioSendResult) : ClockSession × List ClockEvent :=
  match c.sending with
  | [] => (c, [])
  | request :: outer =>
      ({ synchronizer := c.synchronizer.endRequest result, sending := outer },
        [.radioSend request.destination request.frame result])

def perform : ClockCall → ClockSession × List ClockEvent
  | .initializeWith config reads =>
      c.whole ((c.synchronizer.initializeWith config reads).1, [])
  | .shutdown => c.whole (c.synchronizer.shutdown, [])
  | .resetStatistics => c.whole (c.synchronizer.resetStatistics, [])
  | .requestSynchronization reads =>
      let r := c.synchronizer.requestSynchronization reads
      c.whole (r.1, r.2.2)
  | .update now reads => c.whole (c.synchronizer.update now reads)
  | .beginRequest reads => c.beginRequest reads
  | .beginUpdate now reads =>
      if c.synchronizer.isUpdateDue now then c.beginRequest reads else (c, [])
  | .endRequest result => c.endRequest result
  | .onRadioPacketReceived packet reads =>
      c.whole (c.synchronizer.onRadioPacketReceived packet reads)

/-- The session a call leaves behind. -/
def step (c : ClockSession) (call : ClockCall) : ClockSession := (c.perform call).1

/-- What a call does outside, in order. -/
def effects (c : ClockSession) (call : ClockCall) : List ClockEvent := (c.perform call).2

/-- The session a fresh synchronizer comes to over some calls. -/
def after (calls : List ClockCall) : ClockSession := Observed.run step {} calls

/-- What a fresh synchronizer did outside over some calls, in order. -/
def history (calls : List ClockCall) : List ClockEvent :=
  Observed.trace step effects {} calls

end ClockSession

namespace ClockEvent

/-- The number and the T1 of a request captured, for an event that captures
one. -/
def capture : ClockEvent → Option (UInt32 × UInt64)
  | .requestCaptured sequence t1 => some (sequence, t1)
  | _ => none

/-- The last request captured in a history, by its number and its T1. -/
def lastCaptured (h : List ClockEvent) : Option (UInt32 × UInt64) :=
  (h.filterMap capture).getLast?

end ClockEvent

end EspressioRadio
