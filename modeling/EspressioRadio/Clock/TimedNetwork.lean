/-
Synchronizers exchanging frames in time.

The network of `ClockNetwork`, with readings that come from clocks: there
is one common time, which no node reads, and every node's clocks run a
fixed offset ahead of it (`NodeClock`). A frame comes in no earlier than
it was handed to its radio, and a call reads its clocks one after another;
that is all the steps of different nodes have to do with each other, so
calls on different nodes overlap freely. How long a frame is on its way,
how long a packet waits before it is handled and how long a call takes is
not limited, but for the pause between the two readings that
`RecoverSystemTimestamp` takes for a packet with a timestamp.
-/
import EspressioRadio.Clock.Network
import EspressioRadio.Clock.Timed

namespace EspressioRadio

-- ================================================================ clocks

namespace NodeClock

/-- How far the target is ahead of the common time, over both offsets. -/
def ahead (c : NodeClock) : Int := c.monotonicOffset + c.targetOffset

/-- The instant of the common time at which the target read this. -/
def instant (c : NodeClock) (reading : UInt64) : Int := reading.toNat - c.ahead

end NodeClock

/-- The instants of a packet's reception and of the readings in
`OnRadioPacketReceived`, in their order. -/
structure ReceiveTimes where
  received : Int
  system : Int
  monotonic : Int
  transmit : Int
  sent : Int
  /-- No instant is after the next one listed. -/
  ordered : [received, system, monotonic, transmit, sent].IsChain (· ≤ ·)

/-- The packet is not stamped at all or with the instant it came in, the
readings are those of their instants, and the pause between the two
readings for a timestamp is no longer than allowed. -/
structure ReceivedAt (c : NodeClock) (pause : Int) (times : ReceiveTimes)
    (packet : RadioPacketView) (reads : ReceiveReads) : Prop where
  stamped : packet.receiveTimestampNanoseconds ≠ 0 →
    c.ShowsMonotonic times.received packet.receiveTimestampNanoseconds
      ∧ times.monotonic - times.system ≤ pause
  system : c.ShowsTarget times.system reads.timestamp
  monotonic : c.ShowsMonotonic times.monotonic reads.monotonic
  transmit : c.ShowsTarget times.transmit reads.transmitTimestamp

/-- The T1 of a request is read before its frame is handed over. -/
structure RequestedAt (c : NodeClock) (sent : Int) (reads : RequestReads) : Prop where
  timestamp : ∃ t1, c.ShowsTarget t1 reads.timestamp ∧ t1 ≤ sent

-- =============================================================== network

/-- A network, and when its frames were handed to their radios. -/
structure TimedNetwork (ν : Type) where
  net : ClockNetwork ν
  departures : List (Transmission ν × Int)

namespace TimedNetwork

variable {ν : Type}

/-- The unused network, no frame having left. -/
def create : TimedNetwork ν where
  net := ClockNetwork.create
  departures := []

variable [DecidableEq ν]

/-- `ClockNetwork.act`, with the instant at which a frame is handed
over. -/
def act (s : TimedNetwork ν) (n : ν) (about : ν × Nat) (sent : Int)
    (result : RadioClockSynchronizer × List ClockEvent) : TimedNetwork ν where
  net := s.net.act n about result
  departures := s.departures
    ++ (result.2.filterMap (ClockEvent.transmission about)).map fun t => (t, sent)

/-- One call on one node, as in `ClockNetwork.Step`, with its readings taken
from the node's clocks at instants that follow each other. -/
inductive Step (address : ν → RadioAddress) (clock : ν → NodeClock) (pause : Int)
    (s : TimedNetwork ν) : TimedNetwork ν → Prop where
  | initializeWith (n : ν) (config : RadioClockSynchronizationConfig)
      (reads : InitializeReads) (hlocal : reads.localAddress = address n) (sent : Int) :
      Step address clock pause s
        (s.act n (s.net.nextRequest n) sent
          (((s.net.node n).initializeWith config reads).1, []))
  | shutdown (n : ν) (sent : Int) :
      Step address clock pause s
        (s.act n (s.net.nextRequest n) sent ((s.net.node n).shutdown, []))
  | resetStatistics (n : ν) (sent : Int) :
      Step address clock pause s
        (s.act n (s.net.nextRequest n) sent ((s.net.node n).resetStatistics, []))
  | requestSynchronization (n : ν) (reads : RequestReads)
      (hlocal : reads.localAddress = address n) (sent : Int)
      (htimes : RequestedAt (clock n) sent reads) :
      Step address clock pause s
        (s.act n (s.net.nextRequest n) sent
          (((s.net.node n).requestSynchronization reads).1,
            ((s.net.node n).requestSynchronization reads).2.2))
  | update (n : ν) (now : UInt64) (reads : RequestReads)
      (hlocal : reads.localAddress = address n) (sent : Int)
      (htimes : RequestedAt (clock n) sent reads) :
      Step address clock pause s
        (s.act n (s.net.nextRequest n) sent ((s.net.node n).update now reads))
  | receive (n : ν) (transmission : Transmission ν) (departed : Int)
      (packet : RadioPacketView) (reads : ReceiveReads) (times : ReceiveTimes)
      (hair : (transmission, departed) ∈ s.departures)
      (hdestination : transmission.destination.same (address n) = true)
      (hpayload : packet.payload = transmission.frame)
      (hflight : departed ≤ times.received)
      (htimes : ReceivedAt (clock n) pause times packet reads) :
      Step address clock pause s
        (s.act n transmission.about times.sent
          ((s.net.node n).onRadioPacketReceived packet reads))

/-- The networks in time some run of calls comes to from unused
synchronizers. -/
inductive Reachable (address : ν → RadioAddress) (clock : ν → NodeClock) (pause : Int) :
    TimedNetwork ν → Prop where
  | create : Reachable address clock pause create
  | step {s s' : TimedNetwork ν} :
      Reachable address clock pause s → Step address clock pause s s' →
      Reachable address clock pause s'

end TimedNetwork

end EspressioRadio
