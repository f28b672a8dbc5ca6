/-
One exchange in time: a client asks, a reference answers, and the client
submits a sample.

There is one common time, which no node reads. A node's monotonic clock
runs a fixed offset ahead of it, and its target a fixed offset ahead of
that. `ExchangeTimes` are the instants of an exchange, in their order,
with any delay between one and the next; every clock reading is the one
its clock shows at its instant, so nothing wraps.

The client may be in any state when it asks and in any other when the
response comes, and so may the reference: whatever else they did before
and in between.
-/
import EspressioRadio.Clock.Calls

namespace EspressioRadio

-- ================================================================ clocks

/-- How far a node's clocks are ahead of each other and of the common time. -/
structure NodeClock where
  /-- The monotonic clock, of the common time. -/
  monotonicOffset : Nat
  /-- The target, of the monotonic clock. -/
  targetOffset : Nat

namespace NodeClock

/-- What the target shows at an instant of the common time. -/
def target (c : NodeClock) (instant : Int) : Int :=
  instant + c.monotonicOffset + c.targetOffset

/-- The monotonic clock reads this at the instant; in particular the reading
does not wrap. -/
def ShowsMonotonic (c : NodeClock) (instant : Int) (reading : UInt64) : Prop :=
  (reading.toNat : Int) = instant + c.monotonicOffset

/-- The target reads this at the instant; in particular the reading does not
wrap. -/
def ShowsTarget (c : NodeClock) (instant : Int) (reading : UInt64) : Prop :=
  (reading.toNat : Int) = c.target instant

end NodeClock

/-- The packet is stamped with the instant it came in, and its handling
reads the target at the second instant and the monotonic clock at the
third. -/
structure HandledAt (c : NodeClock) (received system monotonic : Int)
    (packet : RadioPacketView) (reads : ReceiveReads) : Prop where
  stamped : packet.receiveTimestampNanoseconds ≠ 0
  received : c.ShowsMonotonic received packet.receiveTimestampNanoseconds
  system : c.ShowsTarget system reads.timestamp
  monotonic : c.ShowsMonotonic monotonic reads.monotonic

-- ============================================================== instants

/-- The instants of an exchange in the common time, in their order. -/
structure ExchangeTimes where
  /-- The client reads T1. -/
  t1 : Int
  requestSent : Int
  requestReceived : Int
  /-- The reference reads its target, then its monotonic clock, for T2. -/
  t2System : Int
  t2Monotonic : Int
  /-- The reference reads T3. -/
  t3 : Int
  responseSent : Int
  responseReceived : Int
  /-- The client reads its target, then its monotonic clock, for T4. -/
  t4System : Int
  t4Monotonic : Int
  /-- No instant is after the next one listed. -/
  ordered : [t1, requestSent, requestReceived, t2System, t2Monotonic, t3, responseSent,
    responseReceived, t4System, t4Monotonic].IsChain (· ≤ ·)

-- ============================================================== exchange

open RadioClockSynchronizer

/-- A complete exchange between a client and a reference: the three calls it
is made of, the frames between them, and the instants their readings are
from. -/
structure TimedExchange where
  client : NodeClock
  reference : NodeClock
  times : ExchangeTimes
  /-- The client as it calls `RequestSynchronization`. -/
  asking : RadioClockSynchronizer
  requestReads : RequestReads
  request : OutgoingRequest
  asks : (asking.beginRequest requestReads).2 = .ok request
  asks_at : client.ShowsTarget times.t1 requestReads.timestamp
  /-- The reference as it is handed the request, in `OnRadioPacketReceived`. -/
  answering : RadioClockSynchronizer
  requestPacket : RadioPacketView
  answerReads : ReceiveReads
  destination : RadioAddress
  response : List UInt8
  result : RadioSendResult
  carries_request : requestPacket.payload = request.frame
  answers : .radioSend destination response result
    ∈ (answering.onRadioPacketReceived requestPacket answerReads).2
  answers_at : HandledAt reference times.requestReceived times.t2System times.t2Monotonic
    requestPacket answerReads
  transmits_at : reference.ShowsTarget times.t3 answerReads.transmitTimestamp
  /-- The client as it is handed the response, in `OnRadioPacketReceived`. -/
  submitting : RadioClockSynchronizer
  responsePacket : RadioPacketView
  submitReads : ReceiveReads
  sample : ClockSynchronizationSample
  adjustmentMode : UInt8
  carries_response : responsePacket.payload = response
  submits : .submitSynchronizationSample sample adjustmentMode
    ∈ (submitting.onRadioPacketReceived responsePacket submitReads).2
  submits_at : HandledAt client times.responseReceived times.t4System times.t4Monotonic
    responsePacket submitReads

/-- T1 is not after T4, T2 not after T3, and the time at the reference no
longer than the time at the client. -/
def ClockSynchronizationSample.CausallyOrdered (s : ClockSynchronizationSample) : Prop :=
  s.localRequestTransmitTime ≤ s.localResponseReceiveTime
    ∧ s.remoteRequestReceiveTime ≤ s.remoteResponseTransmitTime
    ∧ (s.remoteResponseTransmitTime.toNat : Int) - s.remoteRequestReceiveTime.toNat
      ≤ s.localResponseReceiveTime.toNat - s.localRequestTransmitTime.toNat

namespace TimedExchange

variable (e : TimedExchange)

/-- What the pause between the two readings takes off T2: its length, but no
more than there is. -/
def requestLoss : Int :=
  min (e.times.t2Monotonic - e.times.t2System) (e.reference.target e.times.requestReceived)

/-- What the pause between the client's two readings takes off T4: its
length, but no more than there is. -/
def responseLoss : Int :=
  min (e.times.t4Monotonic - e.times.t4System) (e.client.target e.times.responseReceived)

/-- The time from the reading of T1 to the reception of the request. -/
def requestFlight : Int := e.times.requestReceived - e.times.t1

/-- The time from the reading of T3 to the reception of the response. -/
def responseFlight : Int := e.times.responseReceived - e.times.t3

/-- The two pauses take off no more than the two frames were on their way. -/
def PausesFit : Prop := e.requestLoss + e.responseLoss ≤ e.requestFlight + e.responseFlight

end TimedExchange

end EspressioRadio
