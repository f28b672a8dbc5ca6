/-
The cuts of `Clock.Nested` against the whole calls, and what a moment
leaves of the members no counter touches.

A call during whose send nothing comes in is the synchronizer's whole
call (`requestSynchronization_moments`, `onRadioPacketReceived_moments`).
`Received` is the one case analysis of a packet up to its send.
-/
import EspressioRadio.Clock.Nested
import EspressioRadio.Proofs.Clock.Cuts

namespace EspressioRadio

namespace RadioClockSynchronizer

open RadioClockSynchronizationStatistics

variable {s : RadioClockSynchronizer}

-- ========================================================= what is kept

/-- The members only `Initialize`, `Shutdown` and a request write. -/
structure Kept (s s' : RadioClockSynchronizer) : Prop where
  config : s'.config = s.config
  initialized : s'.initialized = s.initialized
  lastRequest :
    s'.lastRequestMonotonicNanoseconds = s.lastRequestMonotonicNanoseconds

theorem Kept.refl (s : RadioClockSynchronizer) : Kept s s := ⟨rfl, rfl, rfl⟩

theorem Kept.trans {s₁ s₂ s₃ : RadioClockSynchronizer} (h : Kept s₁ s₂) (h' : Kept s₂ s₃) :
    Kept s₁ s₃ :=
  ⟨h'.config.trans h.config, h'.initialized.trans h.initialized,
    h'.lastRequest.trans h.lastRequest⟩

theorem count_kept
    (step : RadioClockSynchronizationStatistics → RadioClockSynchronizationStatistics) :
    Kept s (s.count step) := ⟨rfl, rfl, rfl⟩

theorem recoverSystemTimestamp_kept (packet : RadioPacketView) (reads : ReceiveReads) :
    Kept s (s.recoverSystemTimestamp packet reads).1 := by
  rcases s.recoverSystemTimestamp_state packet reads with h | h
  · rw [h]
    exact Kept.refl s
  · rw [h]
    exact count_kept _

theorem endRequest_kept (result : RadioSendResult) : Kept s (s.endRequest result) := by
  unfold endRequest
  split <;> exact ⟨rfl, rfl, rfl⟩

theorem endResponse_kept (result : RadioSendResult) : Kept s (s.endResponse result) := by
  unfold endResponse
  split <;> exact count_kept _

/-- The counter that a target's verdict on a sample moves. -/
def verdict (accepted : Bool) :
    RadioClockSynchronizationStatistics → RadioClockSynchronizationStatistics :=
  if accepted then sampleAccepted else sampleRejected

/-- A response is ignored and counted so, or it ends the request pending and
is counted with the verdict on its sample. -/
theorem processResponse_state (s : RadioClockSynchronizer) (packet : RadioPacketView)
    (sequence : UInt32) (reads : ReceiveReads) :
    (s.processResponse packet sequence reads).1 = s.count ignoredFrame
      ∨ (s.processResponse packet sequence reads).1
        = ((({ s with pendingSequence := 0 }).count responseReceived).recoverSystemTimestamp
          packet reads).1.count (verdict reads.accepted) := by
  unfold processResponse
  split
  · exact Or.inl rfl
  · split
    · exact Or.inl rfl
    · dsimp only
      split
      · exact Or.inl rfl
      · refine Or.inr ?_
        unfold verdict
        split <;> rfl

/-- `OnRadioPacketReceived` has the packet handled: it is initialized,
the radio is its own, and the header decodes. -/
def handles (s : RadioClockSynchronizer) (packet : RadioPacketView)
    (reads : ReceiveReads) : Bool :=
  s.initialized && reads.ownRadio && (decodeHeader packet.payload).isSome

/-- A packet up to its end, or to the send of a response. -/
inductive Received (s : RadioClockSynchronizer) (packet : RadioPacketView)
    (reads : ReceiveReads) : RadioClockSynchronizer → Option OutgoingResponse → Prop where
  | untouched (h : s.handles packet reads = false) : Received s packet reads s none
  | ignored (h : s.handles packet reads = true) :
      Received s packet reads (s.count ignoredFrame) none
  | answered (h : s.handles packet reads = true) (response : OutgoingResponse) :
      Received s packet reads
        ((s.count requestReceived).recoverSystemTimestamp packet reads).1 (some response)
  | submitted (h : s.handles packet reads = true) :
      Received s packet reads
        (((({ s with pendingSequence := 0 }).count responseReceived).recoverSystemTimestamp
          packet reads).1.count (verdict reads.accepted)) none

theorem beginReceive_received (s : RadioClockSynchronizer) (packet : RadioPacketView)
    (reads : ReceiveReads) :
    Received s packet reads (s.beginReceive packet reads).1
      (s.beginReceive packet reads).2.2 := by
  unfold beginReceive
  split
  · next hout =>
    simp only [Bool.or_eq_true, Bool.not_eq_true'] at hout
    refine .untouched ?_
    rcases hout with hinit | hown
    · simp [handles, hinit]
    · simp [handles, hown]
  · next hin =>
    have hin' : s.initialized = true ∧ reads.ownRadio = true := by simpa using hin
    cases hd : decodeHeader packet.payload with
    | none => exact .untouched (by simp [handles, hd])
    | some header =>
        obtain ⟨type, sequence⟩ := header
        have hhandled : s.handles packet reads = true := by
          simp [handles, hin', hd]
        dsimp only
        split
        · exact .ignored hhandled
        · cases type with
          | request =>
              rcases s.beginResponse_cases packet sequence reads with heq |
                ⟨response, -, heq⟩
              · rw [heq]
                exact .ignored hhandled
              · rw [heq]
                exact .answered hhandled response
          | response =>
              dsimp only
              rcases s.processResponse_state packet sequence reads with heq | heq
              · rw [heq]
                exact .ignored hhandled
              · rw [heq]
                exact .submitted hhandled

theorem beginReceive_kept (packet : RadioPacketView) (reads : ReceiveReads) :
    Kept s (s.beginReceive packet reads).1 := by
  have hreceived := s.beginReceive_received packet reads
  generalize (s.beginReceive packet reads).1 = s', (s.beginReceive packet reads).2.2
    = response at hreceived ⊢
  cases hreceived with
  | untouched => exact Kept.refl s
  | ignored => exact count_kept _
  | answered =>
      exact (count_kept _).trans (recoverSystemTimestamp_kept packet reads)
  | submitted =>
      have hcleared : Kept s (({ s with pendingSequence := 0 }).count responseReceived) :=
        ⟨rfl, rfl, rfl⟩
      exact (hcleared.trans (recoverSystemTimestamp_kept packet reads)).trans (count_kept _)

/-- The send of a response does not touch `_pendingSequence`. -/
theorem beginReceive_pendingSequence (packet : RadioPacketView) (reads : ReceiveReads) :
    (s.beginReceive packet reads).1.pendingSequence
      = (s.onRadioPacketReceived packet reads).1.pendingSequence := by
  unfold onRadioPacketReceived
  rcases s.beginReceive packet reads with ⟨s', events, _ | response⟩
  · rfl
  · exact endResponse_pendingSequence _ |>.symm

/-- Handling a packet up to its send submits a sample exactly when handling
it to the end does. -/
theorem beginReceive_submits {packet : RadioPacketView} {reads : ReceiveReads}
    {sample : ClockSynchronizationSample} {adjustmentMode : UInt8} :
    .submitSynchronizationSample sample adjustmentMode ∈ (s.beginReceive packet reads).2.1
      ↔ .submitSynchronizationSample sample adjustmentMode
        ∈ (s.onRadioPacketReceived packet reads).2 := by
  unfold onRadioPacketReceived
  rcases s.beginReceive packet reads with ⟨s', events, _ | response⟩
  · rfl
  · simp

/-- `beginRequest` refuses and counts a failure, or records its reading
and the request. -/
theorem beginRequest_recorded (s : RadioClockSynchronizer) (reads : RequestReads) :
    (∃ result, s.beginRequest reads
        = ((s.count requestAttempted).count sendFailure, .error result))
      ∨ ∃ s' request, s.beginRequest reads = (s', .ok request)
        ∧ s'.config = s.config ∧ s'.initialized = s.initialized
        ∧ s'.lastRequestMonotonicNanoseconds = reads.monotonic
        ∧ s'.statistics = s.statistics.requestAttempted := by
  unfold beginRequest
  dsimp only
  split
  · exact Or.inl ⟨_, rfl⟩
  · split
    · exact Or.inl ⟨_, rfl⟩
    · rw [count_takeSequence]
      have htaken : s.takeSequence.1.config = s.config
          ∧ s.takeSequence.1.initialized = s.initialized
          ∧ s.takeSequence.1.statistics = s.statistics := by
        unfold takeSequence
        split <;> exact ⟨rfl, rfl, rfl⟩
      obtain ⟨hconfig, hinitialized, hstatistics⟩ := htaken
      refine Or.inr ⟨_, _, rfl, hconfig, hinitialized, rfl, ?_⟩
      show requestAttempted s.takeSequence.1.statistics = _
      rw [hstatistics]

end RadioClockSynchronizer

namespace ClockStack

open RadioClockSynchronizer

variable {c : ClockStack}

-- ============================================================ the moments

/-- A request during whose send nothing comes in leaves and shows what the
whole call does. -/
theorem requestSynchronization_moments {reads : RequestReads}
    {request : OutgoingRequest}
    (h : (c.synchronizer.beginRequest reads).2 = .ok request) :
    Observed.run step c [.requestSynchronization reads, .sent reads.sent]
        = { c with synchronizer := (c.synchronizer.requestSynchronization reads).1 }
      ∧ Observed.trace step effects c [.requestSynchronization reads, .sent reads.sent]
        = (c.synchronizer.requestSynchronization reads).2.2 := by
  generalize hr : c.synchronizer.beginRequest reads = r at h
  obtain ⟨s', outcome⟩ := r
  simp only at h
  subst h
  simp [step, effects, perform, ClockStack.request, sent, requestSynchronization, hr]

/-- A request answered while nothing comes in is handled as by the whole
call. -/
theorem onRadioPacketReceived_moments {packet : RadioPacketView} {reads : ReceiveReads}
    {response : OutgoingResponse}
    (h : (c.synchronizer.beginReceive packet reads).2.2 = some response) :
    Observed.run step c [.onRadioPacketReceived packet reads, .sent reads.sent]
        = { c with synchronizer := (c.synchronizer.onRadioPacketReceived packet reads).1 }
      ∧ Observed.trace step effects c
          [.onRadioPacketReceived packet reads, .sent reads.sent]
        = (c.synchronizer.onRadioPacketReceived packet reads).2 := by
  unfold onRadioPacketReceived
  generalize hr : c.synchronizer.beginReceive packet reads = r at h
  obtain ⟨s', events, answer⟩ := r
  simp only at h
  subst h
  simp [step, effects, perform, receive, sent, hr]

/-- A packet without an answer is handled in one moment. -/
theorem onRadioPacketReceived_moment {packet : RadioPacketView} {reads : ReceiveReads}
    (h : (c.synchronizer.beginReceive packet reads).2.2 = none) :
    c.perform (.onRadioPacketReceived packet reads)
      = ({ c with synchronizer := (c.synchronizer.onRadioPacketReceived packet reads).1 },
        (c.synchronizer.onRadioPacketReceived packet reads).2) := by
  unfold onRadioPacketReceived
  generalize hr : c.synchronizer.beginReceive packet reads = r at h
  obtain ⟨s', events, answer⟩ := r
  simp only at h
  subst h
  simp only [perform, receive, hr]

-- ================================================================ members

/-- What a packet does to the synchronizer, up to the send of a response. -/
theorem receive_synchronizer (packet : RadioPacketView) (reads : ReceiveReads) :
    (c.receive packet reads).1.synchronizer
      = (c.synchronizer.beginReceive packet reads).1 := by
  unfold receive
  rcases c.synchronizer.beginReceive packet reads with ⟨s, events, _ | response⟩ <;> rfl

theorem receive_effects (packet : RadioPacketView) (reads : ReceiveReads) :
    (c.receive packet reads).2 = (c.synchronizer.beginReceive packet reads).2.1 := by
  unfold receive
  rcases c.synchronizer.beginReceive packet reads with ⟨s, events, _ | response⟩ <;> rfl

/-- The return of a send changes neither how the synchronizer is set up nor
when it last made a request. -/
theorem sent_kept (result : RadioSendResult) :
    Kept c.synchronizer (c.sent result).1.synchronizer := by
  unfold sent
  split
  · exact Kept.refl _
  · exact endRequest_kept result
  · exact endResponse_kept result

end ClockStack

end EspressioRadio
