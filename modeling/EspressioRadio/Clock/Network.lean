/-
Synchronizers exchanging frames over their radios.

`air` holds every frame ever handed to a radio, with its destination. A
delivery takes a frame to the node whose address is the destination, and
leaves it on the air: so frames are lost, repeated, delayed and
overtaken freely, and never altered. Of a packet's source address and
receive timestamp, of all clocks and of every `radio.Send`'s outcome
nothing is assumed.

# Ghosts

`requests` lists the T1s a client captured, in order; a request is named
by its client and its place there. A frame carries the request it is
about, a response that of the request it answers; `executions` are the
executions of `ProcessRequest` with the T2 and T3 each settled on, and a
sample submitted is kept with the number of requests its client had made
by then. No step reads any of these.
-/
import EspressioRadio.Clock.Synchronizer
import Mathlib.Logic.Function.Basic

namespace EspressioRadio

/-- A frame handed to a radio, where it is to go, and the request it is
about, by its client and its place among the client's requests. -/
structure Transmission (ν : Type) where
  destination : RadioAddress
  frame : List UInt8
  about : ν × Nat

/-- An execution of `ProcessRequest` that went as far as an answer, with the
two times it read and the request its frame was about. -/
structure Execution (ν : Type) where
  about : ν × Nat
  t2 : UInt64
  t3 : UInt64

/-- A sample, and how many requests its client had made by then. -/
structure SubmittedSample (ν : Type) where
  client : ν
  requestsMade : Nat
  sample : ClockSynchronizationSample

/-- The synchronizers, every frame ever handed to a radio, and three records
no step reads: the T1 of each request, the executions and the samples. -/
structure ClockNetwork (ν : Type) where
  node : ν → RadioClockSynchronizer
  air : List (Transmission ν)
  requests : ν → List UInt64
  executions : List (Execution ν)
  samples : List (SubmittedSample ν)

namespace ClockEvent

variable {ν : Type}

def captured : ClockEvent → Option UInt64
  | .requestCaptured _ t1 => some t1
  | _ => none

def execution (about : ν × Nat) : ClockEvent → Option (Execution ν)
  | .requestProcessed _ t2 t3 => some ⟨about, t2, t3⟩
  | _ => none

def transmission (about : ν × Nat) : ClockEvent → Option (Transmission ν)
  | .radioSend destination frame _ => some ⟨destination, frame, about⟩
  | _ => none

def submitted : ClockEvent → Option ClockSynchronizationSample
  | .submitSynchronizationSample sample _ => some sample
  | _ => none

end ClockEvent

namespace ClockNetwork

variable {ν : Type}

/-- The network in which no synchronizer has been used and nothing is on the
air. -/
def create : ClockNetwork ν where
  node := fun _ => {}
  air := []
  requests := fun _ => []
  executions := []
  samples := []

variable [DecidableEq ν]

/-- Node `n` goes to a state with these events, which are about this
request: frames come on the air, and what was captured, read and submitted
goes on record. -/
def act (net : ClockNetwork ν) (n : ν) (about : ν × Nat)
    (result : RadioClockSynchronizer × List ClockEvent) : ClockNetwork ν where
  node := Function.update net.node n result.1
  air := net.air ++ result.2.filterMap (ClockEvent.transmission about)
  requests := Function.update net.requests n
    (net.requests n ++ result.2.filterMap ClockEvent.captured)
  executions := net.executions ++ result.2.filterMap (ClockEvent.execution about)
  samples := net.samples ++ (result.2.filterMap ClockEvent.submitted).map fun sample =>
    ⟨n, (net.requests n).length, sample⟩

/-- The request node `n` makes next, named by how many it has made. -/
def nextRequest (net : ClockNetwork ν) (n : ν) : ν × Nat := (n, (net.requests n).length)

/-- One call on one node. A node hears any frame ever sent to an address
like its own, as often and as late as may be, under any source and any
stamp. -/
inductive Step (address : ν → RadioAddress) (net : ClockNetwork ν) :
    ClockNetwork ν → Prop where
  | initializeWith (n : ν) (config : RadioClockSynchronizationConfig)
      (reads : InitializeReads) (hlocal : reads.localAddress = address n) :
      Step address net
        (net.act n (net.nextRequest n) (((net.node n).initializeWith config reads).1, []))
  | shutdown (n : ν) :
      Step address net (net.act n (net.nextRequest n) ((net.node n).shutdown, []))
  | resetStatistics (n : ν) :
      Step address net (net.act n (net.nextRequest n) ((net.node n).resetStatistics, []))
  | requestSynchronization (n : ν) (reads : RequestReads)
      (hlocal : reads.localAddress = address n) :
      Step address net
        (net.act n (net.nextRequest n)
          (((net.node n).requestSynchronization reads).1,
            ((net.node n).requestSynchronization reads).2.2))
  | update (n : ν) (now : UInt64) (reads : RequestReads)
      (hlocal : reads.localAddress = address n) :
      Step address net
        (net.act n (net.nextRequest n) ((net.node n).update now reads))
  | receive (n : ν) (transmission : Transmission ν) (packet : RadioPacketView)
      (reads : ReceiveReads) (hair : transmission ∈ net.air)
      (hdestination : transmission.destination.same (address n) = true)
      (hpayload : packet.payload = transmission.frame) :
      Step address net
        (net.act n transmission.about
          ((net.node n).onRadioPacketReceived packet reads))

/-- The networks some run of calls comes to from unused synchronizers. -/
inductive Reachable (address : ν → RadioAddress) : ClockNetwork ν → Prop where
  | create : Reachable address create
  | step {net net' : ClockNetwork ν} :
      Reachable address net → Step address net net' → Reachable address net'

end ClockNetwork

end EspressioRadio
