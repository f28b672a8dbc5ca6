/-
The T1 of a sample is the one its response carries.

A client keeps no T1, only `_pendingSequence`, which is the number of the
last request captured (`Pends`, kept by every call). A response is held
against that number and against the link checks (`WellFormedResponse`),
neither of which looks at the T1 it carries. So a sample is submitted for
exactly the well-formed responses that bear the number of the last
request (`sample_echoes`), and its T1 is the client's own only where the
response echoes it.
-/
import EspressioRadio.Proofs.Clock.Cuts
import EspressioRadio.Proofs.Clock.Outcomes

namespace EspressioRadio

namespace ClockSession

open RadioClockSynchronizer ClockEvent

variable {c : ClockSession} {h : List ClockEvent}

-- ================================================== what a call captures

/-- Nothing is captured and at most the pending number dropped, or a
request is captured and at most its number pending. -/
def Captures (s : RadioClockSynchronizer) (r : RadioClockSynchronizer × List ClockEvent) :
    Prop :=
  (r.2.filterMap capture = []
      ∧ (r.1.pendingSequence = s.pendingSequence ∨ r.1.pendingSequence = 0))
    ∨ ∃ sequence t1, r.2.filterMap capture = [(sequence, t1)]
      ∧ (r.1.pendingSequence = sequence ∨ r.1.pendingSequence = 0)

section Outcome

variable {s : RadioClockSynchronizer} {r : RadioClockSynchronizer × List ClockEvent}

theorem Captures.of_quiet (hq : Quiet s r) : Captures s r :=
  Or.inl ⟨by simp [hq.events], hq.unmoved.pendingSequence⟩

theorem Captures.of_requested {localAddress : RadioAddress}
    (hr : Requested s localAddress r) : Captures s r := by
  obtain ⟨t1, destination, result, hevents⟩ := hr.events
  refine Or.inr ⟨s.takeSequence.2, t1, ?_, hr.pendingSequence⟩
  simp [hevents, capture, List.filterMap_cons]

theorem Captures.of_answered {payload : List UInt8} (ha : Answered s payload r) :
    Captures s r := by
  obtain ⟨sequence, t2, t3, destination, result, -, -, hevents⟩ := ha.events
  refine Or.inl ⟨?_, ha.unmoved.pendingSequence⟩
  simp [hevents, capture, List.filterMap_cons]

theorem Captures.of_submitted {payload : List UInt8} (hs : Submitted s payload r) :
    Captures s r := by
  obtain ⟨t4, adjustmentMode, hevents⟩ := hs.events
  refine Or.inl ⟨?_, Or.inr hs.pendingSequence⟩
  simp [hevents, capture, List.filterMap_cons]

end Outcome

theorem beginRequest_captures (c : ClockSession) (reads : RequestReads) :
    Captures c.synchronizer
      ((c.beginRequest reads).1.synchronizer, (c.beginRequest reads).2) := by
  unfold beginRequest
  rcases c.synchronizer.beginRequest_cases reads with ⟨s', result, hr, -, hpending⟩ |
    ⟨s', request, hr, hbegun⟩
  · rw [hr]
    exact Or.inl ⟨rfl, Or.inl hpending⟩
  · rw [hr]
    exact Or.inr ⟨request.sequence, request.t1, rfl, Or.inl hbegun.pendingSequence⟩

theorem endRequest_captures (c : ClockSession) (result : RadioSendResult) :
    Captures c.synchronizer
      ((c.endRequest result).1.synchronizer, (c.endRequest result).2) := by
  unfold endRequest
  cases c.sending with
  | nil => exact Or.inl ⟨rfl, Or.inl rfl⟩
  | cons request outer =>
      refine Or.inl ⟨rfl, ?_⟩
      exact (c.synchronizer.endRequest_unmoved result).pendingSequence

theorem perform_captures (c : ClockSession) (call : ClockCall) :
    Captures c.synchronizer ((c.step call).synchronizer, c.effects call) := by
  unfold step effects
  cases call with
  | initializeWith config reads =>
      exact Captures.of_quiet (c.synchronizer.initializeWith_quiet config reads)
  | shutdown => exact Captures.of_quiet c.synchronizer.shutdown_quiet
  | resetStatistics => exact Captures.of_quiet c.synchronizer.resetStatistics_quiet
  | requestSynchronization reads =>
      rcases c.synchronizer.requestSynchronization_cases reads with hq | hr
      · exact Captures.of_quiet hq
      · exact Captures.of_requested hr
  | update now reads =>
      rcases c.synchronizer.update_cases now reads with hq | hr
      · exact Captures.of_quiet hq
      · exact Captures.of_requested hr
  | beginRequest reads => exact c.beginRequest_captures reads
  | beginUpdate now reads =>
      simp only [perform]
      split
      · exact c.beginRequest_captures reads
      · exact Or.inl ⟨rfl, Or.inl rfl⟩
  | endRequest result => exact c.endRequest_captures result
  | onRadioPacketReceived packet reads =>
      rcases c.synchronizer.onRadioPacketReceived_cases packet reads with hq | ha | hs
      · exact Captures.of_quiet hq
      · exact Captures.of_answered ha
      · exact Captures.of_submitted hs

-- ==================================================== the pending number

/-- A pending number is that of the last request captured. -/
def Pends (c : ClockSession) (h : List ClockEvent) : Prop :=
  c.synchronizer.pendingSequence ≠ 0
    → ∃ t1, lastCaptured h = some (c.synchronizer.pendingSequence, t1)

theorem Pends.step (hp : c.Pends h) (call : ClockCall) :
    (c.step call).Pends (h ++ c.effects call) := by
  intro hne
  unfold lastCaptured
  rw [List.filterMap_append]
  rcases c.perform_captures call with ⟨hnone, hsame | hzero⟩ |
    ⟨sequence, t1, hone, hsequence | hzero⟩
  · rw [hnone, List.append_nil]
    dsimp only at hsame
    rw [hsame] at hne ⊢
    exact hp hne
  · exact absurd hzero hne
  · rw [hone]
    dsimp only at hsequence
    rw [hsequence]
    exact ⟨t1, by simp⟩
  · exact absurd hzero hne

theorem pends_after (calls : List ClockCall) : (after calls).Pends (history calls) := by
  have hstart : ({} : ClockSession).Pends [] := fun hne => absurd rfl hne
  have hrun := Observed.history_run (R := Pends)
    (fun c h call (hp : c.Pends h) => hp.step call) hstart calls
  rwa [List.nil_append] at hrun

-- ============================================================== samples

/-- Only a packet brings a sample: no other call submits one. -/
theorem submitted_by_packet {call : ClockCall} {sample : ClockSynchronizationSample}
    {adjustmentMode : UInt8}
    (hsub : .submitSynchronizationSample sample adjustmentMode ∈ c.effects call) :
    ∃ packet reads, call = .onRadioPacketReceived packet reads := by
  have hquiet : ∀ {s : RadioClockSynchronizer}
      {r : RadioClockSynchronizer × List ClockEvent}, Quiet s r →
        .submitSynchronizationSample sample adjustmentMode ∉ r.2 := by
    intro s r hq
    simp [hq.events]
  have hrequested : ∀ {s : RadioClockSynchronizer} {localAddress : RadioAddress}
      {r : RadioClockSynchronizer × List ClockEvent}, Requested s localAddress r →
        .submitSynchronizationSample sample adjustmentMode ∉ r.2 := by
    intro s localAddress r hr
    obtain ⟨t1, destination, result, hevents⟩ := hr.events
    simp [hevents]
  have hbegun : ∀ reads,
      .submitSynchronizationSample sample adjustmentMode ∉ (c.beginRequest reads).2 := by
    intro reads
    unfold beginRequest
    split <;> simp
  -- a request shows a send at most, any other call but a packet nothing
  unfold effects at hsub
  cases call with
  | initializeWith config reads => simp [perform, whole] at hsub
  | shutdown => simp [perform, whole] at hsub
  | resetStatistics => simp [perform, whole] at hsub
  | requestSynchronization reads =>
      rcases c.synchronizer.requestSynchronization_cases reads with hq | hr
      · exact absurd hsub (hquiet hq)
      · exact absurd hsub (hrequested hr)
  | update now reads =>
      rcases c.synchronizer.update_cases now reads with hq | hr
      · exact absurd hsub (hquiet hq)
      · exact absurd hsub (hrequested hr)
  | beginRequest reads => exact absurd hsub (hbegun reads)
  | beginUpdate now reads =>
      simp only [perform] at hsub
      split at hsub
      · exact absurd hsub (hbegun reads)
      · cases hsub
  | endRequest result =>
      simp only [perform, endRequest] at hsub
      split at hsub <;> simp at hsub
  | onRadioPacketReceived packet reads => exact ⟨packet, reads, rfl⟩

/-- A sample is submitted for exactly the responses that pass every check
and bear the pending number, that of the last request captured; its T1 is
the one the response carries. -/
theorem sample_echoes (calls : List ClockCall) (call : ClockCall)
    (sample : ClockSynchronizationSample) (adjustmentMode : UInt8) :
    .submitSynchronizationSample sample adjustmentMode ∈ (after calls).effects call
      ↔ ∃ packet reads sequence t1, call = .onRadioPacketReceived packet reads
        ∧ (after calls).synchronizer.WellFormedResponse packet reads.ownRadio sequence
        ∧ (after calls).synchronizer.pendingSequence = sequence
        ∧ lastCaptured (history calls) = some (sequence, t1)
        ∧ sample.localRequestTransmitTime = readU64 packet.payload 8
        ∧ sample = sampleOf packet reads
        ∧ adjustmentMode = (after calls).synchronizer.config.adjustmentMode := by
  constructor
  · intro hsub
    obtain ⟨packet, reads, rfl⟩ := submitted_by_packet hsub
    obtain ⟨hw, hsample, hmode⟩ := submitted_iff.mp hsub
    obtain ⟨t1, hlast⟩ := pends_after calls (decodeHeader_ne_zero hw.decodes)
    refine ⟨packet, reads, _, t1, rfl, hw, rfl, hlast, ?_, hsample, hmode⟩
    rw [hsample]
    rfl
  · rintro ⟨packet, reads, sequence, t1, rfl, hw, hpending, -, -, hsample, hmode⟩
    rw [← hpending] at hw
    exact submitted_iff.mpr ⟨hw, hsample, hmode⟩

-- ======================================================= a forged response

section Forged

/-- A client at address 1 asks the one at 2, at 1000. -/
def forgedCalls : List ClockCall :=
  [.initializeWith { mode := .client, referencePeer := RadioAddress.fromBytes [2] 1 }
      { capabilities := { maximumPayloadBytes := 32, addressBytes := 1 }
        localAddress := RadioAddress.fromBytes [1] 1
        subscribed := true },
    .requestSynchronization
      { isStarted := true, localAddress := RadioAddress.fromBytes [1] 1
        timestamp := 1000, monotonic := 7, sent := .accepted }]

/-- A response to the pending request whose T1 field says 5, which no
request was captured with. -/
def forgedResponse : ClockCall :=
  .onRadioPacketReceived { payload := encodeResponse 1 5 2000 2005 }
    { addressBytes := 1, timestamp := 1100, monotonic := 107
      transmitTimestamp := 1100, sent := .accepted, accepted := true }

theorem forged_lastCaptured : lastCaptured (history forgedCalls) = some (1, 1000) := rfl

theorem forged_effects : (after forgedCalls).effects forgedResponse
    = [.submitSynchronizationSample ⟨5, 2000, 2005, 1100⟩ 0] := rfl

/-- Not every sample has the T1 that its client captured with the pending
request. -/
theorem sample_t1_forged : ¬∀ (calls : List ClockCall) (call : ClockCall)
    (sample : ClockSynchronizationSample) (adjustmentMode : UInt8),
    .submitSynchronizationSample sample adjustmentMode ∈ (after calls).effects call →
      lastCaptured (history calls) = some ((after calls).synchronizer.pendingSequence,
        sample.localRequestTransmitTime) := by
  intro hown
  have hsample := hown forgedCalls forgedResponse ⟨5, 2000, 2005, 1100⟩ 0
    (by rw [forged_effects]; exact List.mem_singleton_self _)
  rw [forged_lastCaptured] at hsample
  injection hsample with hsample
  injection hsample with _ ht1
  cases ht1

end Forged

end ClockSession

end EspressioRadio
