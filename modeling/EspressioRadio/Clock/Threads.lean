/-
One synchronizer and two threads on it: an application calling
`RequestSynchronization`, and a radio worker calling
`OnRadioPacketReceived`.

# The moves

A move takes one thread from one access to `_pendingSequence`, or one
`radio.Send`, to the next, so that a list of moves is an interleaving: a
request stores its number (`requestSynchronization`), is sent (`send`),
and takes the number back if that failed (`abandon`); a response is
checked (`onRadioPacketReceived`), held against the number that pends
(`compare`), and clears it (`accept`). A move its thread is not at does
nothing. What else the two threads share are counters, and numbers only
the application touches.

# Ghosts

`standing` is the last request if its send was accepted and no
well-formed response to it has been begun since; `due` says that the
worker handles the first; `answered`, that a response was found to bear
the pending number since the last request began. No move reads them.
-/
import EspressioRadio.Clock.Calls

namespace EspressioRadio

open RadioClockSynchronizer

/-- Where the application's thread is in `RequestSynchronization`. -/
inductive ApplicationThread where
  | idle
  /-- Inside `radio.Send`, the request's number stored. -/
  | sending (request : OutgoingRequest)
  /-- After a rejected send, before the store of zero. -/
  | failed (result : RadioSendResult)

/-- Where the worker's thread is in the handling of a response. -/
inductive WorkerThread where
  | idle
  /-- After every check of the response, before the load of the number. -/
  | comparing (packet : RadioPacketView) (reads : ReceiveReads) (sequence : UInt32)
  /-- Between the load, which found the response's number, and the store of
  zero. -/
  | clearing (packet : RadioPacketView) (reads : ReceiveReads) (sequence : UInt32)

/-- The synchronizer, where its two threads are, and the three ghosts. -/
structure ClockThreads where
  synchronizer : RadioClockSynchronizer
  application : ApplicationThread := .idle
  worker : WorkerThread := .idle
  standing : Option UInt32 := none
  due : Bool := false
  answered : Bool := false

inductive ThreadMove where
  | requestSynchronization (reads : RequestReads)
  | send (result : RadioSendResult)
  | abandon
  | onRadioPacketReceived (packet : RadioPacketView) (reads : ReceiveReads)
  | compare
  | accept

namespace ClockThreads

variable (t : ClockThreads)

-- ========================================================= application

/-- A request is refused, or stores its number and is about to be sent. -/
def requestSynchronization (reads : RequestReads) : ClockThreads × List ClockEvent :=
  match t.application with
  | .idle =>
      match t.synchronizer.beginRequest reads with
      | (s, .error _) => ({ t with synchronizer := s }, [])
      | (s, .ok request) =>
          ({ t with
              synchronizer := s, application := .sending request
              standing := none, due := false, answered := false },
            [.requestCaptured request.sequence request.t1])
  | _ => (t, [])

/-- The request's send returns: the request stands, or is about to take its
number back. -/
def send (result : RadioSendResult) : ClockThreads × List ClockEvent :=
  match t.application with
  | .sending request =>
      (if result.ok then
          { t with
            synchronizer := t.synchronizer.endRequest result, application := .idle
            standing := some request.sequence }
        else { t with application := .failed result },
        [.radioSend request.destination request.frame result])
  | _ => (t, [])

/-- The store of zero after a rejected send. -/
def abandon : ClockThreads × List ClockEvent :=
  match t.application with
  | .failed result =>
      ({ t with
          synchronizer := t.synchronizer.endRequest result, application := .idle }, [])
  | _ => (t, [])

-- ============================================================== worker

/-- A packet is checked; one that is no response to hold against the number
is handled to its end. -/
def onRadioPacketReceived (packet : RadioPacketView) (reads : ReceiveReads) :
    ClockThreads × List ClockEvent :=
  match t.worker with
  | .idle =>
      match t.synchronizer.responseSequence? packet reads.ownRadio with
      | some sequence =>
          ({ t with
              worker := .comparing packet reads sequence
              due := t.standing == some sequence
              standing := if t.standing = some sequence then none else t.standing }, [])
      | none =>
          let r := t.synchronizer.onRadioPacketReceived packet reads
          ({ t with synchronizer := r.1 }, r.2)
  | _ => (t, [])

/-- The response is held against the number that pends, and ignored if it
does not bear it. -/
def compare : ClockThreads × List ClockEvent :=
  match t.worker with
  | .comparing packet reads sequence =>
      let pending := t.synchronizer.pendingSequence
      (if pending = 0 ∨ pending ≠ sequence then
          { t with
            synchronizer :=
              t.synchronizer.count RadioClockSynchronizationStatistics.ignoredFrame
            worker := .idle, due := false }
        else
          { t with
            worker := .clearing packet reads sequence, due := false, answered := true }, [])
  | _ => (t, [])

/-- The response clears whatever number pends by now, and its sample is
submitted. -/
def accept : ClockThreads × List ClockEvent :=
  match t.worker with
  | .clearing packet reads _ =>
      let r := t.synchronizer.acceptResponse packet reads
      ({ t with synchronizer := r.1, worker := .idle }, r.2)
  | _ => (t, [])

-- ================================================================ runs

/-- What a move does to the threads and to the outside. -/
def perform : ThreadMove → ClockThreads × List ClockEvent
  | .requestSynchronization reads => t.requestSynchronization reads
  | .send result => t.send result
  | .abandon => t.abandon
  | .onRadioPacketReceived packet reads => t.onRadioPacketReceived packet reads
  | .compare => t.compare
  | .accept => t.accept

/-- The threads after a move. -/
def step (t : ClockThreads) (move : ThreadMove) : ClockThreads := (t.perform move).1

/-- What a move does outside, in order. -/
def effects (t : ClockThreads) (move : ThreadMove) : List ClockEvent := (t.perform move).2

/-- Both threads before their first call on this synchronizer. -/
def start (s : RadioClockSynchronizer) : ClockThreads where
  synchronizer := s

end ClockThreads

end EspressioRadio
