/-
A pending request and the two threads.

A worker that has found its response's number pending clears
`_pendingSequence` by a store of zero, whatever is there by then. Where
no request stores its number inside that window (`ClearsFirst`), the
number of a standing request pends until a response to it is found
(`Keeps`), and a store of zero clears the response's own number or
nothing. So the first response begun after a send was accepted is
accepted itself, unless one begun earlier has been (`Answers`); where
none is begun earlier (`AsksFirst`), it is accepted (`Kept`). Threads
that stay out of each other's calls (`Apart`) meet both conditions.

Inside the window the worker clears the newer request's number:
`raced_clears`.
-/
import EspressioRadio.Clock.Threads
import EspressioRadio.Proofs.Clock.Cuts
import EspressioRadio.Proofs.Clock.Outcomes

namespace EspressioRadio

namespace ClockThreads

open RadioClockSynchronizer

variable {t t' : ClockThreads} {move : ThreadMove}

-- ============================================================= the moves

/-- What a move comes to, in so many cases: the state it leaves, and the
conditions under which it does. -/
inductive Moved (t : ClockThreads) : ThreadMove → ClockThreads → Prop where
  | counts (move : ThreadMove) (s : RadioClockSynchronizer)
      (hs : s.pendingSequence = t.synchronizer.pendingSequence) :
      Moved t move { t with synchronizer := s }
  | begun (reads : RequestReads) (request : OutgoingRequest) (s : RadioClockSynchronizer)
      (happ : t.application = .idle)
      (hbegin : t.synchronizer.beginRequest reads = (s, .ok request))
      (hs : s.pendingSequence = request.sequence) :
      Moved t (.requestSynchronization reads)
        { t with
          synchronizer := s, application := .sending request
          standing := none, due := false, answered := false }
  | sent (result : RadioSendResult) (request : OutgoingRequest)
      (s : RadioClockSynchronizer) (happ : t.application = .sending request)
      (hs : s.pendingSequence = t.synchronizer.pendingSequence) :
      Moved t (.send result)
        { t with
          synchronizer := s, application := .idle, standing := some request.sequence }
  | unsent (result : RadioSendResult) (request : OutgoingRequest)
      (happ : t.application = .sending request) :
      Moved t (.send result) { t with application := .failed result }
  | abandoned (result : RadioSendResult) (s : RadioClockSynchronizer)
      (happ : t.application = .failed result)
      (hs : s.pendingSequence = t.synchronizer.pendingSequence ∨ s.pendingSequence = 0) :
      Moved t .abandon { t with synchronizer := s, application := .idle }
  | checked (packet : RadioPacketView) (reads : ReceiveReads) (sequence : UInt32)
      (hworker : t.worker = .idle)
      (hsequence : t.synchronizer.responseSequence? packet reads.ownRadio = some sequence) :
      Moved t (.onRadioPacketReceived packet reads)
        { t with
          worker := .comparing packet reads sequence
          due := t.standing == some sequence
          standing := if t.standing = some sequence then none else t.standing }
  | missed (packet : RadioPacketView) (reads : ReceiveReads) (sequence : UInt32)
      (s : RadioClockSynchronizer) (hworker : t.worker = .comparing packet reads sequence)
      (hpending : t.synchronizer.pendingSequence = 0
        ∨ t.synchronizer.pendingSequence ≠ sequence)
      (hs : s.pendingSequence = t.synchronizer.pendingSequence) :
      Moved t .compare { t with synchronizer := s, worker := .idle, due := false }
  | found (packet : RadioPacketView) (reads : ReceiveReads) (sequence : UInt32)
      (hworker : t.worker = .comparing packet reads sequence)
      (hpending : t.synchronizer.pendingSequence = sequence) :
      Moved t .compare
        { t with
          worker := .clearing packet reads sequence, due := false, answered := true }
  | accepted (packet : RadioPacketView) (reads : ReceiveReads) (sequence : UInt32)
      (s : RadioClockSynchronizer) (hworker : t.worker = .clearing packet reads sequence)
      (hs : s.pendingSequence = 0) :
      Moved t .accept { t with synchronizer := s, worker := .idle }

theorem Moved.refl (t : ClockThreads) (move : ThreadMove) : Moved t move t :=
  .counts move t.synchronizer rfl

theorem step_moved (t : ClockThreads) (move : ThreadMove) : Moved t move (t.step move) := by
  unfold step
  cases move with
  | requestSynchronization reads =>
      simp only [perform, requestSynchronization]
      split
      · next happ =>
        split
        · -- refused: only counters move
          next s result hbegin => exact .counts _ s (beginRequest_refused hbegin)
        · next s request hbegin =>
          exact .begun reads request s happ hbegin (Begun.of_eq hbegin).pendingSequence
      · exact Moved.refl t _
  | send result =>
      simp only [perform, send]
      split
      · next request happ =>
        split
        · next hok => exact .sent result request _ happ (endRequest_accepted hok)
        · exact .unsent result request happ
      · exact Moved.refl t _
  | abandon =>
      simp only [perform, abandon]
      split
      · next result happ =>
        exact .abandoned result _ happ
          (t.synchronizer.endRequest_unmoved result).pendingSequence
      · exact Moved.refl t _
  | onRadioPacketReceived packet reads =>
      simp only [perform, onRadioPacketReceived]
      split
      · next hworker =>
        split
        · next sequence hsequence => exact .checked packet reads sequence hworker hsequence
        · next hnone => exact .counts _ _ (onRadioPacketReceived_other hnone).pendingSequence
      · exact Moved.refl t _
  | compare =>
      simp only [perform, compare]
      split
      · next packet reads sequence hworker =>
        split
        · next hpending => exact .missed packet reads sequence _ hworker hpending rfl
        · next hpending =>
          exact .found packet reads sequence hworker
            (not_not.mp (not_or.mp hpending).2)
      · exact Moved.refl t _
  | accept =>
      simp only [perform, accept]
      split
      · next packet reads sequence hworker =>
        exact .accepted packet reads sequence _ hworker (by simp)
      · exact Moved.refl t _

-- ============================================================= the window

/-- The request that a move begins, whose number it stores as pending. -/
def begins (t : ClockThreads) : ThreadMove → Option OutgoingRequest
  | .requestSynchronization reads =>
      match t.application, (t.synchronizer.beginRequest reads).2 with
      | .idle, .ok request => some request
      | _, _ => none
  | _ => none

/-- No number is stored between the worker's load and its store. -/
def ClearsFirst (t : ClockThreads) (move : ThreadMove) : Prop :=
  ∀ request, t.begins move = some request →
    ∀ packet reads sequence, t.worker ≠ .clearing packet reads sequence

/-- No response to a request is begun before its send returned. -/
def AsksFirst (t : ClockThreads) (move : ThreadMove) : Prop :=
  (∀ request, t.begins move = some request →
      ∀ packet reads, t.worker ≠ .comparing packet reads request.sequence)
    ∧ ∀ packet reads request, move = .onRadioPacketReceived packet reads →
      t.application = .sending request →
        t.synchronizer.responseSequence? packet reads.ownRadio ≠ some request.sequence

/-- The response that the worker holds against the pending number bears it. -/
def Accepts (t : ClockThreads) : Prop :=
  ∃ packet reads sequence, t.worker = .comparing packet reads sequence
    ∧ (t.step .compare).worker = .clearing packet reads sequence

/-- What a response accepted clears is its own number, or nothing, and
its timestamps are submitted. -/
def ClearsOwn (t : ClockThreads) (move : ThreadMove) : Prop :=
  ∀ packet reads sequence, move = .accept → t.worker = .clearing packet reads sequence →
    (t.synchronizer.pendingSequence = sequence ∨ t.synchronizer.pendingSequence = 0)
      ∧ t.effects .accept = [.submitSynchronizationSample (sampleOf packet reads)
        t.synchronizer.config.adjustmentMode]

/-- The first response to a standing request is accepted. -/
def Kept (t : ClockThreads) (move : ThreadMove) : Prop :=
  (move = .compare → t.due = true → t.Accepts) ∧ t.ClearsOwn move

/-- The first response to a standing request is accepted, unless the request
has been answered. -/
def Answers (t : ClockThreads) (move : ThreadMove) : Prop :=
  (move = .compare → t.due = true → t.answered = true ∨ t.Accepts) ∧ t.ClearsOwn move

/-- No call is begun while the other thread is inside its own. -/
def Apart (t : ClockThreads) : ThreadMove → Prop
  | .requestSynchronization _ => t.worker = .idle
  | .onRadioPacketReceived _ _ => t.application = .idle
  | _ => True

theorem begins_begun {reads : RequestReads} {request : OutgoingRequest}
    {s : RadioClockSynchronizer} (happ : t.application = .idle)
    (hbegin : t.synchronizer.beginRequest reads = (s, .ok request)) :
    t.begins (.requestSynchronization reads) = some request := by
  simp [begins, happ, hbegin]

theorem begins_cases {request : OutgoingRequest} (h : t.begins move = some request) :
    ∃ reads s, move = .requestSynchronization reads ∧ t.application = .idle
      ∧ t.synchronizer.beginRequest reads = (s, .ok request) := by
  cases move with
  | requestSynchronization reads =>
      simp only [begins] at h
      split at h
      · next request' happ hok =>
        cases h
        exact ⟨reads, _, rfl, happ, Prod.ext rfl hok⟩
      · cases h
  | send result => cases h
  | abandon => cases h
  | onRadioPacketReceived packet reads => cases h
  | compare => cases h
  | accept => cases h

theorem Apart.clearsFirst (h : t.Apart move) : t.ClearsFirst move := by
  intro request hbegins packet reads sequence hworker
  obtain ⟨requestReads, s, rfl, -⟩ := begins_cases hbegins
  simp only [Apart, hworker] at h
  cases h

theorem Apart.asksFirst (h : t.Apart move) : t.AsksFirst move := by
  constructor
  · intro request hbegins packet reads hworker
    obtain ⟨requestReads, s, rfl, -⟩ := begins_cases hbegins
    simp only [Apart, hworker] at h
    cases h
  · rintro packet reads request rfl happ
    simp only [Apart, happ] at h
    cases h

-- ========================================================= the invariant

/-- The number of the standing request is pending, unless a response was
found to bear it. -/
def Awaits (t : ClockThreads) (sequence : UInt32) : Prop :=
  t.answered = true ∨ t.synchronizer.pendingSequence = sequence

structure Keeps (t : ClockThreads) : Prop where
  sending : ∀ request, t.application = .sending request → t.Awaits request.sequence
  standing : ∀ sequence, t.standing = some sequence →
    t.application = .idle ∧ t.Awaits sequence
  due : t.due = true → t.application = .idle
    ∧ ∃ packet reads sequence, t.worker = .comparing packet reads sequence
      ∧ t.Awaits sequence
  comparing : ∀ packet reads sequence, t.worker = .comparing packet reads sequence →
    sequence ≠ 0
  clearing : ∀ packet reads sequence, t.worker = .clearing packet reads sequence →
    t.answered = true
      ∧ (t.synchronizer.pendingSequence = sequence ∨ t.synchronizer.pendingSequence = 0)

theorem keeps_start (s : RadioClockSynchronizer) : (start s).Keeps where
  sending := by intro request happ; cases happ
  standing := by intro sequence hstanding; cases hstanding
  due := by intro hdue; cases hdue
  comparing := by intro packet reads sequence hworker; cases hworker
  clearing := by intro packet reads sequence hworker; cases hworker

theorem Awaits.of_answered {sequence : UInt32} (h : t.answered = true) :
    t.Awaits sequence := Or.inl h

/-- Moving the counters keeps the invariant, for it does not speak of them. -/
theorem Keeps.counts (hk : t.Keeps) {s : RadioClockSynchronizer}
    (hs : s.pendingSequence = t.synchronizer.pendingSequence) :
    ({ t with synchronizer := s } : ClockThreads).Keeps := by
  have hawaits : ∀ sequence, t.Awaits sequence →
      ({ t with synchronizer := s } : ClockThreads).Awaits sequence := by
    intro sequence h
    unfold Awaits
    rw [hs]
    exact h
  refine ⟨?_, ?_, ?_, hk.comparing, ?_⟩
  · intro request happ
    exact hawaits _ (hk.sending request happ)
  · intro sequence hstanding
    obtain ⟨happ, hold⟩ := hk.standing sequence hstanding
    exact ⟨happ, hawaits _ hold⟩
  · intro hdue
    obtain ⟨happ, packet, reads, sequence, hworker, hold⟩ := hk.due hdue
    exact ⟨happ, packet, reads, sequence, hworker, hawaits _ hold⟩
  · intro packet reads sequence hworker
    dsimp only
    rw [hs]
    exact hk.clearing packet reads sequence hworker

/-- While a request is on its way through its send, no earlier one stands
and no response is due. -/
theorem Keeps.busy (hk : t.Keeps) (happ : t.application ≠ .idle) :
    t.standing = none ∧ t.due = false := by
  constructor
  · cases hstanding : t.standing with
    | none => rfl
    | some sequence => exact absurd (hk.standing sequence hstanding).1 happ
  · cases hdue : t.due with
    | false => rfl
    | true => exact absurd (hk.due hdue).1 happ

/-- A request stores its number and awaits it. The worker must not be
about to store its zero: that would be the one way to lose the number. -/
theorem Keeps.begun (hk : t.Keeps) {s : RadioClockSynchronizer} {request : OutgoingRequest}
    (hclear : ∀ packet reads sequence, t.worker ≠ .clearing packet reads sequence)
    (hs : s.pendingSequence = request.sequence) :
    ({ t with
      synchronizer := s, application := .sending request
      standing := none, due := false, answered := false } : ClockThreads).Keeps := by
  refine ⟨?_, ?_, ?_, hk.comparing, ?_⟩
  · intro request' happ'
    injection happ' with hrequest
    rw [← hrequest]
    exact Or.inr hs
  · intro sequence hstanding
    cases hstanding
  · intro hdue
    cases hdue
  · intro packet reads sequence hworker
    exact absurd hworker (hclear packet reads sequence)

/-- A send that was accepted: the number awaited while it was under way is
awaited still. -/
theorem Keeps.sent (hk : t.Keeps) {s : RadioClockSynchronizer} {request : OutgoingRequest}
    (happ : t.application = .sending request)
    (hs : s.pendingSequence = t.synchronizer.pendingSequence) :
    ({ t with
      synchronizer := s, application := .idle
      standing := some request.sequence } : ClockThreads).Keeps := by
  have hk := hk.counts hs
  refine ⟨?_, ?_, ?_, hk.comparing, hk.clearing⟩
  · intro request' happ'
    cases happ'
  · intro sequence hstanding
    injection hstanding with hsequence
    rw [← hsequence]
    exact ⟨rfl, hk.sending request happ⟩
  · intro hdue
    exact ⟨rfl, (hk.due hdue).2⟩

/-- A send that was rejected: the request awaits nothing from then on, and
no other was awaiting. -/
theorem Keeps.unsent (hk : t.Keeps) {request : OutgoingRequest}
    (happ : t.application = .sending request) (result : RadioSendResult) :
    ({ t with application := .failed result } : ClockThreads).Keeps := by
  obtain ⟨hnone, hnotdue⟩ := hk.busy (by rw [happ]; exact fun h => nomatch h)
  refine ⟨?_, ?_, ?_, hk.comparing, hk.clearing⟩
  · intro request' happ'
    cases happ'
  · intro sequence hstanding
    rw [hnone] at hstanding
    cases hstanding
  · intro hdue
    rw [hnotdue] at hdue
    cases hdue

/-- The store of zero after a rejected send: there is nothing it could take
away, for no request stands. -/
theorem Keeps.abandoned (hk : t.Keeps) {s : RadioClockSynchronizer}
    {result : RadioSendResult} (happ : t.application = .failed result)
    (hs : s.pendingSequence = t.synchronizer.pendingSequence ∨ s.pendingSequence = 0) :
    ({ t with synchronizer := s, application := .idle } : ClockThreads).Keeps := by
  obtain ⟨hnone, hnotdue⟩ := hk.busy (by rw [happ]; exact fun h => nomatch h)
  refine ⟨?_, ?_, ?_, hk.comparing, ?_⟩
  · intro request' happ'
    cases happ'
  · intro sequence hstanding
    rw [hnone] at hstanding
    cases hstanding
  · intro hdue
    rw [hnotdue] at hdue
    cases hdue
  · intro packet reads sequence hworker
    obtain ⟨hanswered, hpending⟩ := hk.clearing packet reads sequence hworker
    refine ⟨hanswered, ?_⟩
    dsimp only
    rcases hs with hsame | hzero
    · rw [hsame]
      exact hpending
    · exact Or.inr hzero

/-- A response whose header is checked: it is due if it bears the number of
the request that stands, and that one is awaited. -/
theorem Keeps.checked (hk : t.Keeps) {packet : RadioPacketView} {reads : ReceiveReads}
    {sequence : UInt32} (hne : sequence ≠ 0) :
    ({ t with
      worker := .comparing packet reads sequence
      due := t.standing == some sequence
      standing := if t.standing = some sequence then none else t.standing } :
      ClockThreads).Keeps := by
  refine ⟨hk.sending, ?_, ?_, ?_, ?_⟩
  · intro sequence' hstanding
    dsimp only at hstanding
    split at hstanding
    · cases hstanding
    · exact hk.standing sequence' hstanding
  · intro hdue
    obtain ⟨happ, hawaits⟩ := hk.standing sequence (by simpa using hdue)
    exact ⟨happ, packet, reads, sequence, rfl, hawaits⟩
  · intro packet' reads' sequence' hworker'
    injection hworker' with _ _ hsame
    rw [← hsame]
    exact hne
  · intro packet' reads' sequence' hworker'
    cases hworker'

/-- A comparison that fails leaves nothing due and nothing to clear. -/
theorem Keeps.missed (hk : t.Keeps) {s : RadioClockSynchronizer}
    (hs : s.pendingSequence = t.synchronizer.pendingSequence) :
    ({ t with synchronizer := s, worker := .idle, due := false } : ClockThreads).Keeps := by
  have hk := hk.counts hs
  refine ⟨hk.sending, hk.standing, ?_, ?_, ?_⟩
  · intro hdue
    cases hdue
  · intro packet reads sequence hworker
    cases hworker
  · intro packet reads sequence hworker
    cases hworker

/-- A response found to bear the pending number counts as the answer of
whatever is awaited. -/
theorem Keeps.found (hk : t.Keeps) {packet : RadioPacketView} {reads : ReceiveReads}
    {sequence : UInt32} (hpending : t.synchronizer.pendingSequence = sequence) :
    ({ t with
      worker := .clearing packet reads sequence, due := false, answered := true } :
      ClockThreads).Keeps := by
  refine ⟨?_, ?_, ?_, ?_, ?_⟩
  · intro request happ
    exact Awaits.of_answered rfl
  · intro sequence' hstanding
    exact ⟨(hk.standing sequence' hstanding).1, Awaits.of_answered rfl⟩
  · intro hdue
    cases hdue
  · intro packet' reads' sequence' hworker'
    cases hworker'
  · intro packet' reads' sequence' hworker'
    injection hworker' with _ _ hsame
    rw [← hsame]
    exact ⟨rfl, Or.inl hpending⟩

/-- The worker's store of zero comes after a response was found, when
nothing is awaited any more. -/
theorem Keeps.accepted (hk : t.Keeps) {packet : RadioPacketView} {reads : ReceiveReads}
    {sequence : UInt32} (hworker : t.worker = .clearing packet reads sequence)
    (s : RadioClockSynchronizer) :
    ({ t with synchronizer := s, worker := .idle } : ClockThreads).Keeps := by
  have hanswered := (hk.clearing packet reads sequence hworker).1
  refine ⟨?_, ?_, ?_, ?_, ?_⟩
  · intro request happ
    exact Awaits.of_answered hanswered
  · intro sequence' hstanding
    exact ⟨(hk.standing sequence' hstanding).1, Awaits.of_answered hanswered⟩
  · intro hdue
    -- a due response is being compared, but this one is being cleared
    obtain ⟨-, packet', reads', sequence', hworker', -⟩ := hk.due hdue
    rw [hworker] at hworker'
    cases hworker'
  · intro packet' reads' sequence' hworker'
    cases hworker'
  · intro packet' reads' sequence' hworker'
    cases hworker'

/-- Every move keeps what is awaited, as long as no number is stored inside
the worker's window. -/
theorem Keeps.moved (hk : t.Keeps) (hc : t.ClearsFirst move) (hm : Moved t move t') :
    t'.Keeps := by
  cases hm with
  | counts move s hs => exact hk.counts hs
  | begun reads request s happ hbegin hs =>
      exact hk.begun (hc request (begins_begun happ hbegin)) hs
  | sent result request s happ hs => exact hk.sent happ hs
  | unsent result request happ => exact hk.unsent happ result
  | abandoned result s happ hs => exact hk.abandoned happ hs
  | checked packet reads sequence hworker hsequence =>
      exact hk.checked (decodeHeader_ne_zero
        (responseSequence?_eq_some_iff.mp hsequence).decodes)
  | missed packet reads sequence s hworker hpending hs => exact hk.missed hs
  | found packet reads sequence hworker hpending => exact hk.found hpending
  | accepted packet reads sequence s hworker hs => exact hk.accepted hworker s

/-- A store of zero clears the response's own number. -/
theorem Keeps.clearsOwn (hk : t.Keeps) (move : ThreadMove) : t.ClearsOwn move := by
  intro packet reads sequence _ hworker
  refine ⟨(hk.clearing packet reads sequence hworker).2, ?_⟩
  simp [effects, perform, accept, hworker, acceptResponse_events]

/-- A response that the worker compares is accepted if its number is
pending. -/
theorem accepts_of_pending {packet : RadioPacketView} {reads : ReceiveReads}
    {sequence : UInt32} (hworker : t.worker = .comparing packet reads sequence)
    (hne : sequence ≠ 0) (hpending : t.synchronizer.pendingSequence = sequence) :
    t.Accepts := by
  refine ⟨packet, reads, sequence, hworker, ?_⟩
  simp [step, perform, compare, hworker, hpending, hne]

theorem Keeps.answers (hk : t.Keeps) (move : ThreadMove) : t.Answers move := by
  refine ⟨?_, hk.clearsOwn move⟩
  intro _ hdue
  obtain ⟨-, packet, reads, sequence, hworker, hanswered | hpending⟩ := hk.due hdue
  · exact Or.inl hanswered
  · exact Or.inr (accepts_of_pending hworker (hk.comparing packet reads sequence hworker)
      hpending)

-- ======================================================= no early response

/-- A request that is being sent, or stands, has no response begun before
its time. -/
structure Unanswered (t : ClockThreads) : Prop where
  sending : ∀ request, t.application = .sending request → t.answered = false
    ∧ ∀ packet reads, t.worker ≠ .comparing packet reads request.sequence
  standing : ∀ sequence, t.standing = some sequence → t.answered = false
    ∧ ∀ packet reads, t.worker ≠ .comparing packet reads sequence
  due : t.due = true → t.answered = false

theorem unanswered_start (s : RadioClockSynchronizer) : (start s).Unanswered where
  sending := by intro request happ; cases happ
  standing := by intro sequence hstanding; cases hstanding
  due := by intro hdue; cases hdue

/-- A number that pends unanswered is found only by a response that bears
it, and there is none. -/
theorem not_found {packet : RadioPacketView} {reads : ReceiveReads}
    {sequence sequence' : UInt32} (hawaits : t.Awaits sequence')
    (hnone : t.answered = false
      ∧ ∀ packet reads, t.worker ≠ .comparing packet reads sequence')
    (hworker : t.worker = .comparing packet reads sequence) :
    t.synchronizer.pendingSequence ≠ sequence := by
  intro hpending
  rcases hawaits with hanswered | hsame
  · rw [hnone.1] at hanswered
    cases hanswered
  · rw [← hsame, hpending] at hnone
    exact hnone.2 packet reads hworker

/-- A worker that compares no response leaves none early. -/
theorem Unanswered.of_worker (hu : t.Unanswered) {s : RadioClockSynchronizer}
    {worker : WorkerThread} (hidle : ∀ packet reads sequence,
      worker ≠ .comparing packet reads sequence) (due : Bool)
    (hdue : due = true → t.due = true) :
    ({ t with synchronizer := s, worker := worker, due := due } :
      ClockThreads).Unanswered := by
  refine ⟨?_, ?_, ?_⟩
  · intro request happ
    exact ⟨(hu.sending request happ).1, fun packet reads => hidle packet reads _⟩
  · intro sequence hstanding
    exact ⟨(hu.standing sequence hstanding).1, fun packet reads => hidle packet reads _⟩
  · exact fun h => hu.due (hdue h)

/-- A response whose header is checked is none to the request being sent,
and if it is to the one that stands, that stands no longer. -/
theorem Unanswered.checked (hu : t.Unanswered) {packet : RadioPacketView}
    {reads : ReceiveReads} {sequence : UInt32}
    (hearly : ∀ request, t.application = .sending request → sequence ≠ request.sequence) :
    ({ t with
      worker := .comparing packet reads sequence
      due := t.standing == some sequence
      standing := if t.standing = some sequence then none else t.standing } :
      ClockThreads).Unanswered := by
  refine ⟨?_, ?_, ?_⟩
  · intro request happ
    refine ⟨(hu.sending request happ).1, ?_⟩
    intro packet' reads' hworker'
    injection hworker' with _ _ hsame
    exact hearly request happ hsame
  · intro sequence' hstanding
    dsimp only at hstanding
    split at hstanding
    · cases hstanding
    · next hother =>
      refine ⟨(hu.standing sequence' hstanding).1, ?_⟩
      intro packet' reads' hworker'
      injection hworker' with _ _ hsame
      rw [hsame] at hother
      exact hother hstanding
  · intro hdue
    exact (hu.standing sequence (by simpa using hdue)).1

/-- With no response begun early, no move brings an early answer about: the
comparison finds the number of nothing that is still awaited. -/
theorem Unanswered.moved (hu : t.Unanswered) (hk : t.Keeps) (ha : t.AsksFirst move)
    (hm : Moved t move t') : t'.Unanswered := by
  cases hm with
  | counts move s hs => exact ⟨hu.sending, hu.standing, hu.due⟩
  | begun reads request s happ hbegin hs =>
      refine ⟨?_, ?_, ?_⟩
      · intro request' happ'
        injection happ' with hrequest
        rw [← hrequest]
        exact ⟨rfl, ha.1 request (begins_begun happ hbegin)⟩
      · intro sequence hstanding
        cases hstanding
      · intro hdue
        cases hdue
  | sent result request s happ hs =>
      -- the request stands from here on, as unanswered as while it was sent
      refine ⟨?_, ?_, hu.due⟩
      · intro request' happ'
        cases happ'
      · intro sequence hstanding
        injection hstanding with hsequence
        rw [← hsequence]
        exact hu.sending request happ
  | unsent result request happ =>
      refine ⟨?_, hu.standing, hu.due⟩
      intro request' happ'
      cases happ'
  | abandoned result s happ hs =>
      refine ⟨?_, hu.standing, hu.due⟩
      intro request' happ'
      cases happ'
  | checked packet reads sequence hworker hsequence =>
      -- the response begun is to no request still inside its send
      refine hu.checked ?_
      intro request happ hsame
      exact ha.2 packet reads request rfl happ (hsame ▸ hsequence)
  | missed packet reads sequence s hworker hpending hs =>
      refine hu.of_worker ?_ false ?_
      · intro packet' reads' sequence' hworker'
        cases hworker'
      · intro hdue
        cases hdue
  | found packet reads sequence hworker hpending =>
      refine ⟨?_, ?_, ?_⟩
      · intro request happ
        exact absurd hpending
          (not_found (hk.sending request happ) (hu.sending request happ) hworker)
      · intro sequence' hstanding
        exact absurd hpending
          (not_found (hk.standing sequence' hstanding).2 (hu.standing sequence' hstanding)
            hworker)
      · intro hdue
        cases hdue
  | accepted packet reads sequence s hworker hs =>
      refine hu.of_worker ?_ t.due id
      intro packet' reads' sequence' hworker'
      cases hworker'

-- ======================================================== uninterrupted

/-- The moves of a request, with no other between, are the call. -/
theorem uninterrupted_request (happ : t.application = .idle) (reads : RequestReads) :
    let moves := [.requestSynchronization reads, .send reads.sent, .abandon]
    (Observed.run step t moves).synchronizer
        = (t.synchronizer.requestSynchronization reads).1
      ∧ Observed.trace step effects t moves
        = (t.synchronizer.requestSynchronization reads).2.2 := by
  intro moves
  rcases hbegin : t.synchronizer.beginRequest reads with ⟨s, result | request⟩
  · simp [moves, step, effects, perform, ClockThreads.requestSynchronization, send, abandon,
      happ, RadioClockSynchronizer.requestSynchronization, hbegin]
  · cases hok : reads.sent.ok <;>
      simp [moves, step, effects, perform, ClockThreads.requestSynchronization, send,
        abandon, happ, RadioClockSynchronizer.requestSynchronization, hbegin, hok]

/-- The moves of a packet's handling, with no other between, are the
call. -/
theorem uninterrupted_packet (hworker : t.worker = .idle) (packet : RadioPacketView)
    (reads : ReceiveReads) :
    let moves := [.onRadioPacketReceived packet reads, .compare, .accept]
    (Observed.run step t moves).synchronizer
        = (t.synchronizer.onRadioPacketReceived packet reads).1
      ∧ Observed.trace step effects t moves
        = (t.synchronizer.onRadioPacketReceived packet reads).2 := by
  intro moves
  cases hsequence : t.synchronizer.responseSequence? packet reads.ownRadio with
  | none =>
      simp [moves, step, effects, perform, ClockThreads.onRadioPacketReceived, compare,
        accept, hworker, hsequence]
  | some sequence =>
      have hne := decodeHeader_ne_zero
        (responseSequence?_eq_some_iff.mp hsequence).decodes
      rw [onRadioPacketReceived_response hsequence]
      by_cases hpending : t.synchronizer.pendingSequence = sequence
      · simp [moves, step, effects, perform, ClockThreads.onRadioPacketReceived, compare,
          accept, hworker, hsequence, hpending, hne]
      · simp [moves, step, effects, perform, ClockThreads.onRadioPacketReceived, compare,
          accept, hworker, hsequence, hpending]

-- ================================================================== runs

/-- Where no number is stored inside the window, the first response to a
standing request is accepted unless one begun earlier was; where none is
begun earlier, it is accepted. -/
theorem pending_kept (s : RadioClockSynchronizer) (moves : List ThreadMove)
    (hclear : Observed.Along step ClearsFirst (start s) moves) :
    Observed.Along step Answers (start s) moves
      ∧ (Observed.Along step AsksFirst (start s) moves →
        Observed.Along step Kept (start s) moves) := by
  constructor
  · apply Observed.along_of_invariant (P := Keeps) _ _ (keeps_start s) hclear
    · intro t move hc hk
      exact hk.moved hc (t.step_moved move)
    · intro t move _ hk
      exact hk.answers move
  · intro hask
    apply Observed.along_of_invariant (P := fun t => t.Keeps ∧ t.Unanswered) _ _
      ⟨keeps_start s, unanswered_start s⟩ (Observed.along_and hclear hask)
    · rintro t move ⟨hc, ha⟩ ⟨hk, hu⟩
      exact ⟨hk.moved hc (t.step_moved move), hu.moved hk ha (t.step_moved move)⟩
    · rintro t move - ⟨hk, hu⟩
      refine ⟨?_, hk.clearsOwn move⟩
      intro hmove hdue
      rcases (hk.answers move).1 hmove hdue with hanswered | haccepts
      · rw [hu.due hdue] at hanswered
        cases hanswered
      · exact haccepts

section Exchange

/-- A client at address 1, of the reference at 2. -/
def exchangeClient : RadioClockSynchronizer :=
  (({} : RadioClockSynchronizer).initializeWith
    { mode := .client, referencePeer := RadioAddress.fromBytes [2] 1 }
    { capabilities := { maximumPayloadBytes := 32, addressBytes := 1 }
      localAddress := RadioAddress.fromBytes [1] 1
      subscribed := true }).1

def exchangeRequest : ThreadMove :=
  .requestSynchronization
    { isStarted := true, localAddress := RadioAddress.fromBytes [1] 1, timestamp := 1000
      monotonic := 7, sent := .accepted }

def exchangeResponse (sequence : UInt32) : ThreadMove :=
  .onRadioPacketReceived { payload := encodeResponse sequence 1000 2000 2005 }
    { addressBytes := 1, timestamp := 1100, monotonic := 107
      transmitTimestamp := 1100, sent := .accepted, accepted := true }

/-- One exchange during which neither thread begins a call inside the
other's. -/
def exchangeMoves : List ThreadMove :=
  [exchangeRequest, .send .accepted, exchangeResponse 1, .compare, .accept]

/-- The run of one exchange meets both conditions at every move, and its
response is accepted. -/
theorem exchange_kept :
    Observed.Along step ClearsFirst (start exchangeClient) exchangeMoves
      ∧ Observed.Along step AsksFirst (start exchangeClient) exchangeMoves
      ∧ Observed.Along step Kept (start exchangeClient) exchangeMoves := by
  have hapart : Observed.Along step Apart (start exchangeClient) exchangeMoves :=
    ⟨rfl, trivial, rfl, trivial, trivial, trivial⟩
  have hclear := Observed.along_imp (fun _ _ => Apart.clearsFirst) hapart
  have hask := Observed.along_imp (fun _ _ => Apart.asksFirst) hapart
  exact ⟨hclear, hask, (pending_kept exchangeClient exchangeMoves hclear).2 hask⟩

end Exchange

-- ============================================================ the defect

theorem step_begins {request : OutgoingRequest} (h : t.begins move = some request) :
    (t.step move).worker = t.worker
      ∧ (t.step move).synchronizer.pendingSequence = request.sequence
      ∧ request.sequence ≠ 0 := by
  obtain ⟨reads, s, rfl, happ, hbegin⟩ := begins_cases h
  have hbegun := Begun.of_eq hbegin
  have hstep : t.step (.requestSynchronization reads) =
      { t with
        synchronizer := s, application := .sending request
        standing := none, due := false, answered := false } := by
    simp only [step, perform, requestSynchronization, happ]
    rw [hbegin]
  rw [hstep]
  refine ⟨rfl, hbegun.pendingSequence, ?_⟩
  rw [hbegun.sequence]
  exact takeSequence_ne_zero _

/-- A request begun inside the window loses its number as soon as the
worker goes on. -/
theorem raced_clears {packet : RadioPacketView} {reads : ReceiveReads}
    {sequence : UInt32} {request : OutgoingRequest}
    (hworker : t.worker = .clearing packet reads sequence)
    (hbegins : t.begins move = some request) (hother : request.sequence ≠ sequence) :
    ¬(t.step move).ClearsOwn .accept := by
  obtain ⟨hsame, hpending, hne⟩ := step_begins hbegins
  intro hown
  rw [← hsame] at hworker
  rcases (hown packet reads sequence rfl hworker).1 with hbears | hzero
  · exact hother (hpending.symm.trans hbears)
  · exact hne (hpending.symm.trans hzero)

section Raced

/-- The second request is made between the load and the store of the
handling of the first response. -/
def racedMoves : List ThreadMove :=
  [exchangeRequest, .send .accepted, exchangeResponse 1, .compare, exchangeRequest, .accept,
    .send .accepted, exchangeResponse 2]

/-- At the race the response to the second request is found to bear no
pending number, and is ignored. -/
theorem raced_ignored :
    (Observed.run step (start exchangeClient) racedMoves).due = true
      ∧ (Observed.run step (start exchangeClient) (racedMoves ++ [.compare])).worker
        = .idle := ⟨rfl, rfl⟩

/-- Not every request that stands is kept: at the race its response is
ignored. -/
theorem pending_lost : ¬∀ (s : RadioClockSynchronizer) (moves : List ThreadMove),
    Observed.Along step Kept (start s) moves := by
  intro hkept
  have hlast := (Observed.along_append.mp (hkept exchangeClient (racedMoves ++ [.compare]))).2
  obtain ⟨hdue, hidle⟩ := raced_ignored
  obtain ⟨packet, reads, sequence, -, hclearing⟩ := hlast.1.1 rfl hdue
  rw [Observed.run_append] at hidle
  rw [Observed.run_cons, Observed.run_nil, hclearing] at hidle
  cases hidle

end Raced

end ClockThreads

end EspressioRadio
