/-
A synchronizer whose sends are under way while packets come in.

`radio.Send` may deliver packets before it returns, and an answer sent
for one of them may deliver more. So a call is as many moments as it has
sends, and one more: from its start, or from the return of a send, to
the next send or its end. `sends` is the stack of those that have not
returned, the innermost first.

# Runs

Packets come in at any moment. The other public calls are made while no
call is in progress (`Sequential`), and only the innermost send returns.
A call during whose sends nothing comes in is the whole call of
`RadioClockSynchronizer`.
-/
import EspressioRadio.Clock.Calls

namespace EspressioRadio

-- =============================================================== moments

/-- A frame inside `radio.Send`, a request's or a response's, with what its
call needs when the send returns. -/
inductive PendingSend where
  | request (request : RadioClockSynchronizer.OutgoingRequest)
  | response (response : RadioClockSynchronizer.OutgoingResponse)

inductive ClockMoment where
  | initializeWith (config : RadioClockSynchronizationConfig) (reads : InitializeReads)
  | shutdown
  | resetStatistics
  | requestSynchronization (reads : RequestReads)
  | update (now : UInt64) (reads : RequestReads)
  | onRadioPacketReceived (packet : RadioPacketView) (reads : ReceiveReads)
  /-- The innermost send returns, and its call goes on. -/
  | sent (result : RadioSendResult)

/-- The moment is neither `Initialize` nor `Shutdown`, so the configuration
and the initialized flag stand. -/
def ClockMoment.InService : ClockMoment → Prop
  | .initializeWith _ _ => False
  | .shutdown => False
  | _ => True

/-- A synchronizer and its sends under way, the innermost first. -/
structure ClockStack where
  synchronizer : RadioClockSynchronizer := {}
  sends : List PendingSend := []

namespace ClockStack

open RadioClockSynchronizer

variable (c : ClockStack)

/-- `RequestSynchronization` as far as its send, which from then on is the
innermost one under way. -/
def request (reads : RequestReads) : ClockStack × List ClockEvent :=
  match c.synchronizer.beginRequest reads with
  | (s, .error _) => ({ c with synchronizer := s }, [])
  | (s, .ok request) =>
      ({ synchronizer := s, sends := .request request :: c.sends },
        [.requestCaptured request.sequence request.t1])

/-- `OnRadioPacketReceived` as far as the send of a response, or to its end
if there is none. -/
def receive (packet : RadioPacketView) (reads : ReceiveReads) :
    ClockStack × List ClockEvent :=
  match c.synchronizer.beginReceive packet reads with
  | (s, events, none) => ({ c with synchronizer := s }, events)
  | (s, events, some response) =>
      ({ synchronizer := s, sends := .response response :: c.sends }, events)

/-- The innermost send returns, and its call counts the outcome. -/
def sent (result : RadioSendResult) : ClockStack × List ClockEvent :=
  match c.sends with
  | [] => (c, [])
  | .request request :: outer =>
      ({ synchronizer := c.synchronizer.endRequest result, sends := outer },
        [.radioSend request.destination request.frame result])
  | .response response :: outer =>
      ({ synchronizer := c.synchronizer.endResponse result, sends := outer },
        [.radioSend response.destination response.frame result])

/-- What happens at a moment: a call as far as its send, or the rest of the
call whose send returns. -/
def perform : ClockMoment → ClockStack × List ClockEvent
  | .initializeWith config reads =>
      ({ c with synchronizer := (c.synchronizer.initializeWith config reads).1 }, [])
  | .shutdown => ({ c with synchronizer := c.synchronizer.shutdown }, [])
  | .resetStatistics => ({ c with synchronizer := c.synchronizer.resetStatistics }, [])
  | .requestSynchronization reads => c.request reads
  | .update now reads =>
      if c.synchronizer.isUpdateDue now then c.request reads else (c, [])
  | .onRadioPacketReceived packet reads => c.receive packet reads
  | .sent result => c.sent result

/-- The stack a moment leaves behind. -/
def step (c : ClockStack) (moment : ClockMoment) : ClockStack := (c.perform moment).1

/-- What a moment does outside, in order. -/
def effects (c : ClockStack) (moment : ClockMoment) : List ClockEvent :=
  (c.perform moment).2

/-- The moment respects that calls are not made concurrently: packets come
in and sends return at any time, the other calls begin when no send is under
way. -/
def Sequential (c : ClockStack) : ClockMoment → Prop
  | .onRadioPacketReceived _ _ => True
  | .sent _ => True
  | _ => c.sends = []

end ClockStack

end EspressioRadio
