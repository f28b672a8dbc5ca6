/-
What a request that fails leaves of the one before it.

There is one `_pendingSequence`. A request that fails before
`radio.Send` does not touch it: the one before stays pending and its
response is submitted (`Spares`, `Awaits`). A request that gets as far
as `radio.Send` has stored its own number over it, and if the send fails
zero over that: nothing pends any more, and the response to the one
before is ignored. `failed_request_pending` has both sides.
-/
import EspressioRadio.Proofs.Clock.Nested
import EspressioRadio.Proofs.Clock.Frames

namespace EspressioRadio

namespace RadioClockSynchronizer

open RadioClockSynchronizationStatistics

variable {s : RadioClockSynchronizer} {reads : RequestReads}

/-- `RequestSynchronization` fails before it comes to `radio.Send`. -/
def refuses (s : RadioClockSynchronizer) (reads : RequestReads) : Bool :=
  !s.initialized || !reads.isStarted || !isClientMode s.config.mode
    || !s.config.referencePeer.isValid || !reads.localAddress.isValid

theorem beginRequest_of_refuses (h : s.refuses reads = true) :
    ∃ s' result, s.beginRequest reads = (s', .error result) ∧ result.ok = false := by
  unfold beginRequest
  dsimp only
  split
  · exact ⟨_, _, rfl, rfl⟩
  · next hstarted =>
    split
    · exact ⟨_, _, rfl, rfl⟩
    · next hvalid =>
      simp only [Bool.or_eq_true, not_or] at hstarted hvalid
      simp only [refuses, Bool.or_eq_true] at h
      rcases h with (((hinit | hstart) | hmode) | hpeer) | haddress
      · exact absurd hinit hstarted.1
      · exact absurd hstart hstarted.2
      · exact absurd hmode hvalid.1.1
      · exact absurd hpeer hvalid.1.2
      · exact absurd haddress hvalid.2

theorem beginRequest_of_not_refuses (h : s.refuses reads = false) :
    ∃ s' request, s.beginRequest reads = (s', .ok request) := by
  simp only [refuses, Bool.or_eq_false_iff] at h
  obtain ⟨⟨⟨⟨hinit, hstart⟩, hmode⟩, hpeer⟩, haddress⟩ := h
  unfold beginRequest
  dsimp only
  rw [if_neg, if_neg]
  · exact ⟨_, _, rfl⟩
  · show ¬(!isClientMode s.config.mode || !s.config.referencePeer.isValid
      || !reads.localAddress.isValid) = true
    rw [hmode, hpeer, haddress]
    exact Bool.false_ne_true
  · show ¬(!s.initialized || !reads.isStarted) = true
    rw [hinit, hstart]
    exact Bool.false_ne_true

/-- A request whose frame the radio rejects leaves nothing pending. -/
theorem endRequest_rejected {result : RadioSendResult} (h : result.ok = false) :
    (s.endRequest result).pendingSequence = 0 := by
  unfold endRequest
  rw [if_neg (by rw [h]; exact Bool.false_ne_true)]
  rfl

/-- A packet that is no response to the pending request leaves it
pending. -/
theorem beginReceive_unanswered {packet : RadioPacketView} {reads : ReceiveReads}
    (h : ¬s.WellFormedResponse packet reads.ownRadio s.pendingSequence) :
    (s.beginReceive packet reads).1.pendingSequence = s.pendingSequence := by
  rw [beginReceive_pendingSequence]
  cases hsequence : s.responseSequence? packet reads.ownRadio with
  | none => exact (onRadioPacketReceived_other hsequence).pendingSequence
  | some sequence =>
      have hother : s.pendingSequence ≠ sequence := by
        intro heq
        rw [← heq] at hsequence
        exact h (responseSequence?_eq_some_iff.mp hsequence)
      rw [onRadioPacketReceived_response hsequence, if_neg hother]
      rfl

end RadioClockSynchronizer

namespace ClockStack

open RadioClockSynchronizer

variable {c : ClockStack} {n : UInt32} {moment : ClockMoment}

/-- The moment calls `RequestSynchronization`, directly or by an `Update`
that is due. -/
def Requests (c : ClockStack) (reads : RequestReads) : ClockMoment → Prop
  | .requestSynchronization reads' => reads' = reads
  | .update now reads' => c.synchronizer.isUpdateDue now = true ∧ reads' = reads
  | _ => False

theorem Requests.step {reads : RequestReads} (h : c.Requests reads moment) :
    c.step moment = (c.request reads).1 := by
  cases moment with
  | requestSynchronization reads' =>
      cases h
      rfl
  | update now reads' =>
      obtain ⟨hdue, rfl⟩ := h
      unfold ClockStack.step perform
      dsimp only
      rw [if_pos hdue]
  | _ => exact h.elim

/-- In service, with no request that gets to `radio.Send` and no response
to `n`. -/
structure Spares (n : UInt32) (c : ClockStack) (moment : ClockMoment) : Prop where
  inService : moment.InService
  refused : ∀ reads, c.Requests reads moment → c.synchronizer.refuses reads = true
  unanswered : ∀ packet reads, moment = .onRadioPacketReceived packet reads →
    ¬c.synchronizer.WellFormedResponse packet reads.ownRadio n

/-- Request `n` is pending, and no request is inside `radio.Send`, so no
failure of one can clear it. -/
structure Awaits (n : UInt32) (c : ClockStack) : Prop where
  pendingSequence : c.synchronizer.pendingSequence = n
  unsent : ∀ request, .request request ∉ c.sends

/-- Exactly which sample is submitted for a packet, and when: that of a
well-formed response bearing the pending number. -/
theorem submits_iff {packet : RadioPacketView} {reads : ReceiveReads}
    {sample : ClockSynchronizationSample} {adjustmentMode : UInt8} :
    .submitSynchronizationSample sample adjustmentMode
        ∈ c.effects (.onRadioPacketReceived packet reads)
      ↔ c.synchronizer.WellFormedResponse packet reads.ownRadio
          c.synchronizer.pendingSequence
        ∧ sample = sampleOf packet reads
        ∧ adjustmentMode = c.synchronizer.config.adjustmentMode := by
  show _ ∈ (c.receive packet reads).2 ↔ _
  rw [receive_effects, beginReceive_submits]
  exact submitted_iff

/-- A response to the request that pends is submitted. -/
def Answerable (n : UInt32) (c : ClockStack) : Prop :=
  ∀ packet reads, c.synchronizer.WellFormedResponse packet reads.ownRadio n →
    .submitSynchronizationSample (sampleOf packet reads) c.synchronizer.config.adjustmentMode
      ∈ c.effects (.onRadioPacketReceived packet reads)

/-- Whatever packet comes in, no sample is submitted. -/
def Deaf (c : ClockStack) : Prop :=
  ∀ packet reads sample adjustmentMode,
    .submitSynchronizationSample sample adjustmentMode
      ∉ c.effects (.onRadioPacketReceived packet reads)

theorem Awaits.answerable (h : Awaits n c) : c.Answerable n := by
  intro packet reads hresponse
  rw [← h.pendingSequence] at hresponse
  exact submits_iff.mpr ⟨hresponse, rfl, rfl⟩

/-- With nothing pending no packet brings a sample, for no response bears
the number zero. -/
theorem deaf_of_zero (h : c.synchronizer.pendingSequence = 0) : c.Deaf := by
  intro packet reads sample adjustmentMode hsubmits
  have hdecodes := (submits_iff.mp hsubmits).1.decodes
  exact decodeHeader_ne_zero hdecodes h

-- ============================================================= one moment

theorem Awaits.receive (h : Awaits n c) {packet : RadioPacketView} {reads : ReceiveReads}
    (hresponse : ¬c.synchronizer.WellFormedResponse packet reads.ownRadio n) :
    Awaits n (c.receive packet reads).1 where
  pendingSequence := by
    rw [← h.pendingSequence] at hresponse
    rw [receive_synchronizer, beginReceive_unanswered hresponse]
    exact h.pendingSequence
  unsent := by
    intro request
    unfold ClockStack.receive
    rcases c.synchronizer.beginReceive packet reads with ⟨s, events, _ | response⟩
    · exact h.unsent request
    · simpa using h.unsent request

/-- With no request inside `radio.Send`, a send that returns is that of a
response. -/
theorem Awaits.sent (h : Awaits n c) (result : RadioSendResult) :
    Awaits n (c.sent result).1 := by
  unfold ClockStack.sent
  split
  · exact h
  · next request outer hsends =>
    exact absurd (by rw [hsends]; exact List.mem_cons_self) (h.unsent request)
  · next response outer hsends =>
    refine ⟨?_, ?_⟩
    · show (c.synchronizer.endResponse result).pendingSequence = n
      rw [endResponse_pendingSequence, h.pendingSequence]
    · intro request hmem
      refine h.unsent request ?_
      rw [hsends]
      exact List.mem_cons_of_mem _ hmem

/-- A request that is refused before its send leaves the one before it
pending. -/
theorem Awaits.refused (h : Awaits n c) {reads : RequestReads}
    (hrefuses : c.synchronizer.refuses reads = true) : Awaits n (c.request reads).1 := by
  obtain ⟨s, result, hbegin, -⟩ := beginRequest_of_refuses hrefuses
  unfold ClockStack.request
  rw [hbegin]
  refine ⟨?_, h.unsent⟩
  show s.pendingSequence = n
  rw [beginRequest_refused hbegin, h.pendingSequence]

theorem Awaits.step (h : Awaits n c) (hspares : Spares n c moment) :
    Awaits n (c.step moment) := by
  cases moment with
  | initializeWith config reads => exact hspares.inService.elim
  | shutdown => exact hspares.inService.elim
  | resetStatistics => exact ⟨h.pendingSequence, h.unsent⟩
  | requestSynchronization reads => exact h.refused (hspares.refused reads rfl)
  | update now reads =>
      by_cases hdue : c.synchronizer.isUpdateDue now = true
      · have hrequests : c.Requests reads (.update now reads) := ⟨hdue, rfl⟩
        rw [hrequests.step]
        exact h.refused (hspares.refused reads hrequests)
      · unfold ClockStack.step perform
        dsimp only
        rw [if_neg hdue]
        exact h
  | onRadioPacketReceived packet reads =>
      exact h.receive (hspares.unanswered packet reads rfl)
  | sent result => exact h.sent result

-- =================================================================== runs

theorem Awaits.run (h : Awaits n c) {moments : List ClockMoment}
    (hspares : Observed.Along ClockStack.step (Spares n) c moments) :
    Awaits n (Observed.run ClockStack.step c moments) :=
  Observed.invariant_along (P := Awaits n) (fun _ _ hspares h => h.step hspares) h hspares

/-- A request that gets as far as `radio.Send` and is rejected there,
whatever came in meanwhile. -/
theorem Awaits.rejected (h : Awaits n c) {reads : RequestReads}
    (hrequests : c.Requests reads moment) (hsends : c.synchronizer.refuses reads = false)
    {meanwhile : List ClockMoment}
    (hreturns : (Observed.run ClockStack.step (c.step moment) meanwhile).sends
      = (c.step moment).sends)
    {result : RadioSendResult} (hresult : result.ok = false) :
    Awaits 0
      ((Observed.run ClockStack.step (c.step moment) meanwhile).step (.sent result)) := by
  obtain ⟨s, request, hbegin⟩ := beginRequest_of_not_refuses hsends
  -- the send that returns is the request's: it is the innermost again
  have hunder : (c.step moment).sends = .request request :: c.sends := by
    rw [hrequests.step]
    unfold ClockStack.request
    rw [hbegin]
  rw [hunder] at hreturns
  generalize Observed.run ClockStack.step (c.step moment) meanwhile = c' at hreturns ⊢
  show Awaits 0 (c'.sent result).1
  unfold ClockStack.sent
  rw [hreturns]
  exact ⟨endRequest_rejected hresult, h.unsent⟩

/-- With `n` pending and no request inside `radio.Send`: over every run
in service in which all requests fail before `radio.Send` and no response
to `n` comes in, `n` stays pending and a response to it is submitted; and
a request that gets to `radio.Send` and is rejected there leaves nothing
pending, and no packet is submitted until another gets there. -/
theorem failed_request_pending (n : UInt32) (c : ClockStack) (hawaits : Awaits n c) :
    (∀ moments, Observed.Along step (Spares n) c moments →
      (Observed.run step c moments).synchronizer.pendingSequence = n
        ∧ (Observed.run step c moments).Answerable n)
    ∧ ∀ reads moment meanwhile result later,
      c.Requests reads moment → c.synchronizer.refuses reads = false →
      (Observed.run step (c.step moment) meanwhile).sends = (c.step moment).sends →
      result.ok = false →
      (let failed := (Observed.run step (c.step moment) meanwhile).step (.sent result)
       Observed.Along step (Spares 0) failed later →
        (Observed.run step failed later).synchronizer.pendingSequence = 0
          ∧ (Observed.run step failed later).Deaf) := by
  constructor
  · intro moments hspares
    have hlast := hawaits.run hspares
    exact ⟨hlast.pendingSequence, hlast.answerable⟩
  · intro reads moment meanwhile result later hrequests hsends hreturns hresult failed hspares
    have hfailed : Awaits 0 failed := hawaits.rejected hrequests hsends hreturns hresult
    have hlast := hfailed.run hspares
    exact ⟨hlast.pendingSequence, deaf_of_zero hlast.pendingSequence⟩

section Busy

private def askConfig : RadioClockSynchronizationConfig :=
  { mode := .client, referencePeer := RadioAddress.fromBytes [2] 1 }

private def askInitialReads : InitializeReads :=
  { capabilities := { maximumPayloadBytes := 64, addressBytes := 1 }
    localAddress := RadioAddress.fromBytes [1] 1
    subscribed := true }

private def askReads (isStarted : Bool) : RequestReads :=
  { isStarted := isStarted
    localAddress := RadioAddress.fromBytes [1] 1
    timestamp := 0
    monotonic := 6
    sent := .accepted }

/-- The client is initialized, and its first request is accepted. -/
private def askedMoments : List ClockMoment :=
  [.initializeWith askConfig askInitialReads, .requestSynchronization (askReads true),
    .sent .accepted]

private def asked : ClockStack := Observed.run step {} askedMoments

/-- The response to the client's first request. -/
private def answer : RadioPacketView := { payload := encodeResponse 1 0 20 25 }

private def answerReads : ReceiveReads :=
  { addressBytes := 1, timestamp := 30, monotonic := 36, transmitTimestamp := 0
    sent := .accepted, accepted := true }

private theorem answer_wellFormed {s : RadioClockSynchronizer}
    (hinitialized : s.initialized = true) (hconfig : s.config = askConfig) :
    s.WellFormedResponse answer true 1 where
  initialized := hinitialized
  ownRadio := rfl
  decodes := decodeHeader_encodeResponse (by decide) 0 20 25
  timestamp := by
    rw [hconfig]
    exact fun h => by cases h
  clientMode := by
    rw [hconfig]
    rfl
  size := rfl
  peer := fun h => by cases h

/-- The radio is stopped for the second request: the first stays
pending, and its response is submitted. -/
theorem failed_request_pending_stopped :
    let c := asked.step (.requestSynchronization (askReads false))
    c.synchronizer.pendingSequence = 1
      ∧ .submitSynchronizationSample (sampleOf answer answerReads) askConfig.adjustmentMode
        ∈ c.effects (.onRadioPacketReceived answer answerReads) := by
  have hawaits : Awaits 1 asked := ⟨rfl, fun _ hsend => by cases hsend⟩
  have hspares : Spares 1 asked (.requestSynchronization (askReads false)) := by
    refine ⟨trivial, ?_, ?_⟩
    · rintro reads rfl
      rfl
    · intro packet reads h
      cases h
  obtain ⟨hpending, hanswerable⟩ := (failed_request_pending 1 asked hawaits).1
    [.requestSynchronization (askReads false)] ⟨hspares, trivial⟩
  exact ⟨hpending, hanswerable answer answerReads (answer_wellFormed rfl rfl)⟩

/-- The radio is too busy for the second request: the response to the
first is lost. -/
theorem accepted_request_abandoned :
    ¬∀ (moments : List ClockMoment) (n : UInt32) (reads : RequestReads)
        (result : RadioSendResult),
      let c := Observed.run step {} moments
      c.sends = [] → n ≠ 0 → c.synchronizer.pendingSequence = n → result.ok = false →
      (let c' := Observed.run step c [.requestSynchronization reads, .sent result]
       c'.synchronizer.pendingSequence = n ∧ c'.Answerable n) := by
  intro hkept
  have hanswerable := (hkept askedMoments 1 (askReads true) { status := .busy } rfl
    (by decide) rfl rfl).2
  have hsubmits := hanswerable answer answerReads (answer_wellFormed rfl rfl)
  exact deaf_of_zero rfl answer answerReads _ _ hsubmits

end Busy

end ClockStack

end EspressioRadio
