/-
The calls of a synchronizer, cut: `RequestSynchronization` and `Update`
at their `radio.Send`, the handling of a response at its two accesses to
`_pendingSequence`.

Each cut gives the call back where nothing comes in between, so that what
is proved of the parts is about the calls. `WellFormedResponse` spells
out how far a response gets, and `submitted_iff` what comes of it.
-/
import EspressioRadio.Clock.Calls
import EspressioRadio.Proofs.Clock.Outcomes

namespace EspressioRadio

namespace RadioClockSynchronizer

variable {s : RadioClockSynchronizer} {packet : RadioPacketView} {reads : ReceiveReads}
  {sequence : UInt32}

-- ========================================================== the two cuts

/-- `Update` makes a request when one is due, and does nothing else. -/
theorem update_eq (s : RadioClockSynchronizer) (now : UInt64) (reads : RequestReads) :
    s.update now reads =
      if s.isUpdateDue now then
        ((s.requestSynchronization reads).1, (s.requestSynchronization reads).2.2)
      else (s, []) := by
  unfold update isUpdateDue
  cases hinitialized : s.initialized with
  | false => simp
  | true =>
      cases hmode : isClientMode s.config.mode with
      | false => simp
      | true =>
          by_cases hzero : s.config.synchronizationIntervalMilliseconds = 0 <;>
            simp [hzero]

/-- A response that passes every check but the one of its number against the
pending one. -/
structure WellFormedResponse (s : RadioClockSynchronizer) (packet : RadioPacketView)
    (ownRadio : Bool) (sequence : UInt32) : Prop where
  initialized : s.initialized = true
  ownRadio : ownRadio = true
  decodes : decodeHeader packet.payload = some (.response, sequence)
  timestamp : s.config.requireReceiveTimestamp = true
    → packet.receiveTimestampNanoseconds ≠ 0
  clientMode : isClientMode s.config.mode = true
  size : packet.payload.length = responseBytes
  peer : packet.source.isValid = true → s.config.referencePeer.isValid = true
    → packet.source.same s.config.referencePeer = true

namespace WellFormedResponse

variable {ownRadio : Bool} (h : s.WellFormedResponse packet ownRadio sequence)

include h

/-- The test of the receive timestamp does not stop a well-formed response. -/
theorem timestamp_passes : ¬(s.config.requireReceiveTimestamp
    && packet.receiveTimestampNanoseconds == 0) = true := by
  simpa using h.timestamp

/-- The test of the source against the configured peer does not stop a
well-formed response. -/
theorem peer_passes : ¬(packet.source.isValid && s.config.referencePeer.isValid
    && !packet.source.same s.config.referencePeer) = true := by
  simpa using h.peer

end WellFormedResponse

theorem responseSequence?_eq_some_iff {ownRadio : Bool} :
    s.responseSequence? packet ownRadio = some sequence
      ↔ s.WellFormedResponse packet ownRadio sequence := by
  constructor
  · intro h
    unfold responseSequence? at h
    split at h
    · cases h
    · next hready =>
      split at h
      · next number hd =>
        split at h
        · cases h
        · next htimestamp =>
          split at h
          · cases h
          · next hsize =>
            split at h
            · cases h
            · next hpeer =>
              injection h with h
              subst h
              simp only [Bool.or_eq_true, Bool.not_eq_true', not_or, Bool.not_eq_false,
                bne_iff_ne, ne_eq, not_not] at hready hsize
              exact
                { initialized := hready.1
                  ownRadio := hready.2
                  decodes := hd
                  timestamp := by simpa using htimestamp
                  clientMode := hsize.1
                  size := hsize.2
                  peer := by simpa using hpeer }
      · cases h
  · intro h
    unfold responseSequence?
    rw [h.decodes]
    simp only [h.initialized, h.ownRadio, h.clientMode, h.size, if_neg h.timestamp_passes,
      if_neg h.peer_passes, Bool.not_true, Bool.or_self, bne_self_eq_false,
      Bool.false_eq_true, if_false]

/-- A number that comes off the wire is not zero: the decoder refuses it. -/
theorem decodeHeader_ne_zero {payload : List UInt8} {type : MessageType}
    (hd : decodeHeader payload = some (type, sequence)) : sequence ≠ 0 := by
  unfold decodeHeader at hd
  split at hd
  · cases hd
  · split at hd
    · cases hd
    · dsimp only at hd
      split at hd
      · cases hd
      · split at hd
        · next hne =>
          injection hd with hd
          injection hd with _ hd
          rw [← hd]
          exact hne
        · cases hd

@[simp] theorem recoverSystemTimestamp_config (packet : RadioPacketView)
    (reads : ReceiveReads) :
    (s.recoverSystemTimestamp packet reads).1.config = s.config := by
  rcases s.recoverSystemTimestamp_state packet reads with h | h <;> rw [h]
  rfl

/-- The sample a response is turned into: three timestamps from its payload,
the fourth recovered from its arrival. -/
def sampleOf (packet : RadioPacketView) (reads : ReceiveReads) :
    ClockSynchronizationSample where
  localRequestTransmitTime := readU64 packet.payload 8
  remoteRequestReceiveTime := readU64 packet.payload 16
  remoteResponseTransmitTime := readU64 packet.payload 24
  localResponseReceiveTime := recoveredTime packet reads

theorem acceptResponse_events (s : RadioClockSynchronizer) (packet : RadioPacketView)
    (reads : ReceiveReads) :
    (s.acceptResponse packet reads).2
      = [.submitSynchronizationSample (sampleOf packet reads) s.config.adjustmentMode] := by
  simp only [acceptResponse, recoverSystemTimestamp_time, recoverSystemTimestamp_config]
  rfl

/-- A response is accepted if its number is pending, and only counted if
it is not. -/
theorem onRadioPacketReceived_response
    (h : s.responseSequence? packet reads.ownRadio = some sequence) :
    s.onRadioPacketReceived packet reads =
      if s.pendingSequence = sequence then s.acceptResponse packet reads
      else (s.count RadioClockSynchronizationStatistics.ignoredFrame, []) := by
  have hw := responseSequence?_eq_some_iff.mp h
  have hne := decodeHeader_ne_zero hw.decodes
  rw [onRadioPacketReceived_eq]
  rw [hw.decodes]
  simp only [hw.initialized, hw.ownRadio, if_neg hw.timestamp_passes, Bool.not_true,
    Bool.or_self, Bool.false_eq_true, if_false]
  unfold processResponse
  simp only [hw.clientMode, hw.size, if_neg hw.peer_passes, Bool.not_true, Bool.or_self,
    bne_self_eq_false, Bool.false_eq_true, if_false]
  by_cases hpending : s.pendingSequence = sequence
  · have hawaited : ¬(s.pendingSequence = 0 ∨ s.pendingSequence ≠ sequence) := by
      simp [hpending, hne]
    rw [if_neg hawaited, if_pos hpending]
    rfl
  · rw [if_pos (Or.inr hpending), if_neg hpending]

@[simp] theorem acceptResponse_pendingSequence (s : RadioClockSynchronizer)
    (packet : RadioPacketView) (reads : ReceiveReads) :
    (s.acceptResponse packet reads).1.pendingSequence = 0 := by
  unfold acceptResponse
  dsimp only
  split <;> simp

/-- A packet that leaves `_pendingSequence` alone and submits nothing. -/
structure Passes (s : RadioClockSynchronizer)
    (r : RadioClockSynchronizer × List ClockEvent) : Prop where
  pendingSequence : r.1.pendingSequence = s.pendingSequence
  events : ∀ sample adjustmentMode,
    .submitSynchronizationSample sample adjustmentMode ∉ r.2

theorem Passes.refl (s : RadioClockSynchronizer) : Passes s (s, []) := ⟨rfl, by simp⟩

theorem Passes.ignored (s : RadioClockSynchronizer) :
    Passes s (s.count RadioClockSynchronizationStatistics.ignoredFrame, []) :=
  ⟨rfl, by simp⟩

theorem processRequest_passes (s : RadioClockSynchronizer) (packet : RadioPacketView)
    (sequence : UInt32) (reads : ReceiveReads) :
    Passes s (s.processRequest packet sequence reads) := by
  rcases s.processRequest_outcome packet sequence reads with hignored |
    ⟨s', destination, -, hpending, -, hanswered⟩
  · rw [hignored]
    exact Passes.ignored s
  · rw [hanswered]
    exact ⟨hpending, by simp⟩

/-- An answer carries the T1 of the request, and the T2 and T3 read. -/
theorem processRequest_sends {destination : RadioAddress} {frame : List UInt8}
    {result : RadioSendResult}
    (h : .radioSend destination frame result ∈ (s.processRequest packet sequence reads).2) :
    frame = encodeResponse sequence (readU64 packet.payload requestTimestampOffset)
      (recoveredTime packet reads) reads.transmitTimestamp := by
  rcases s.processRequest_outcome packet sequence reads with hignored |
    ⟨s', destination', -, -, -, hanswered⟩
  · rw [hignored] at h
    cases h
  · rw [hanswered] at h
    simp only [List.mem_cons, reduceCtorEq, false_or, List.not_mem_nil, or_false] at h
    injection h

theorem onRadioPacketReceived_sends {destination : RadioAddress} {frame : List UInt8}
    {result : RadioSendResult}
    (h : .radioSend destination frame result ∈ (s.onRadioPacketReceived packet reads).2) :
    ∃ sequence, frame
      = encodeResponse sequence (readU64 packet.payload requestTimestampOffset)
        (recoveredTime packet reads) reads.transmitTimestamp := by
  rw [onRadioPacketReceived_eq] at h
  split at h
  · cases h
  · cases hd : decodeHeader packet.payload with
    | none =>
        rw [hd] at h
        cases h
    | some header =>
        obtain ⟨type, sequence⟩ := header
        rw [hd] at h
        dsimp only at h
        split at h
        · cases h
        · cases type with
          | request => exact ⟨sequence, processRequest_sends h⟩
          | response =>
              rcases s.processResponse_cases packet sequence reads hd with hquiet | hsub
              · rw [hquiet.events] at h
                cases h
              · obtain ⟨t4, adjustmentMode, hevents⟩ := hsub.events
                rw [hevents] at h
                simp at h

/-- A packet that is no well-formed response leaves what is pending alone
and submits nothing. -/
theorem onRadioPacketReceived_other
    (h : s.responseSequence? packet reads.ownRadio = none) :
    Passes s (s.onRadioPacketReceived packet reads) := by
  rw [onRadioPacketReceived_eq]
  split
  · exact Passes.refl s
  · next hready =>
    cases hd : decodeHeader packet.payload with
    | none => exact Passes.refl s
    | some header =>
        obtain ⟨type, sequence⟩ := header
        dsimp only
        split
        · exact Passes.ignored s
        · next htimestamp =>
          cases type with
          | request => exact s.processRequest_passes packet sequence reads
          | response =>
              dsimp only
              unfold processResponse
              split
              · exact Passes.ignored s
              · next hsize =>
                split
                · exact Passes.ignored s
                · next hpeer =>
                  -- every check passed: the response had a number to compare
                  unfold responseSequence? at h
                  rw [if_neg hready, hd] at h
                  simp only [if_neg htimestamp, if_neg hsize, if_neg hpeer] at h
                  cases h

/-- Exactly which sample is submitted for a packet, and when: that of a
well-formed response bearing the pending number. -/
theorem submitted_iff {sample : ClockSynchronizationSample} {adjustmentMode : UInt8} :
    .submitSynchronizationSample sample adjustmentMode
        ∈ (s.onRadioPacketReceived packet reads).2
      ↔ s.WellFormedResponse packet reads.ownRadio s.pendingSequence
        ∧ sample = sampleOf packet reads ∧ adjustmentMode = s.config.adjustmentMode := by
  cases hseq : s.responseSequence? packet reads.ownRadio with
  | none =>
      constructor
      · intro hsub
        exact absurd hsub ((onRadioPacketReceived_other hseq).events sample adjustmentMode)
      · rintro ⟨hw, -⟩
        rw [responseSequence?_eq_some_iff.mpr hw] at hseq
        cases hseq
  | some sequence =>
      rw [onRadioPacketReceived_response hseq, ← responseSequence?_eq_some_iff, hseq]
      by_cases hpending : s.pendingSequence = sequence
      · simp [hpending, acceptResponse_events]
      · simp [hpending, Ne.symm hpending]

-- ============================================================== requests

theorem endRequest_accepted {result : RadioSendResult} (h : result.ok = true) :
    (s.endRequest result).pendingSequence = s.pendingSequence := by
  simp [endRequest, h]

theorem takeSequence_ne_zero (s : RadioClockSynchronizer) : s.takeSequence.2 ≠ 0 := by
  unfold takeSequence
  split
  · next hne => exact hne
  · dsimp only
    split
    · decide
    · next hne => exact hne

end RadioClockSynchronizer

-- ============================================================== sessions

namespace ClockSession

open RadioClockSynchronizer

variable {c : ClockSession} {reads : RequestReads}

/-- A request during whose send nothing comes in leaves and shows what the
whole call does. -/
theorem requestSynchronization_cut {request : OutgoingRequest}
    (h : (c.synchronizer.beginRequest reads).2 = .ok request) :
    Observed.run step c [.beginRequest reads, .endRequest reads.sent]
        = c.step (.requestSynchronization reads)
      ∧ Observed.trace step effects c [.beginRequest reads, .endRequest reads.sent]
        = c.effects (.requestSynchronization reads) := by
  have hbegin : c.synchronizer.beginRequest reads
      = ((c.synchronizer.beginRequest reads).1, .ok request) := Prod.ext rfl h
  simp only [Observed.run_cons, Observed.run_nil, Observed.trace_cons, Observed.trace_nil,
    step, effects, perform, beginRequest, endRequest, requestSynchronization, whole]
  rw [hbegin]
  exact ⟨rfl, rfl⟩

/-- A request that is refused has no send to be cut at. -/
theorem requestSynchronization_refused {result : RadioSendResult}
    (h : (c.synchronizer.beginRequest reads).2 = .error result) :
    c.perform (.requestSynchronization reads) = c.perform (.beginRequest reads) := by
  have hbegin : c.synchronizer.beginRequest reads
      = ((c.synchronizer.beginRequest reads).1, .error result) := Prod.ext rfl h
  simp only [perform, beginRequest, requestSynchronization, whole]
  rw [hbegin]

/-- An update that is due is a request, whole or as far as its send. -/
theorem update_cut {now : UInt64} (hdue : c.synchronizer.isUpdateDue now = true) :
    c.perform (.update now reads) = c.perform (.requestSynchronization reads)
      ∧ c.perform (.beginUpdate now reads) = c.perform (.beginRequest reads) := by
  simp [perform, update_eq, hdue]

end ClockSession

end EspressioRadio
