/-
What one call on a synchronizer can come to, as far as the protocol is
concerned: nothing (`Quiet`), a request (`Requested`), an answer
(`Answered`), or a sample (`Submitted`).

A call's spec lemma names its outcomes and no other proof unfolds the
call. Every outcome says what becomes of the two numbers, and which
events there are.
-/
import EspressioRadio.Clock.Synchronizer

namespace EspressioRadio

namespace RadioClockSynchronizer

open RadioClockSynchronizationStatistics

variable {s s' : RadioClockSynchronizer}

-- ============================================================ the numbers

@[simp] theorem count_nextSequence
    (step : RadioClockSynchronizationStatistics → RadioClockSynchronizationStatistics) :
    (s.count step).nextSequence = s.nextSequence := rfl

@[simp] theorem count_pendingSequence
    (step : RadioClockSynchronizationStatistics → RadioClockSynchronizationStatistics) :
    (s.count step).pendingSequence = s.pendingSequence := rfl

/-- The sequence numbers do not depend on the counters. -/
@[simp] theorem count_takeSequence
    (step : RadioClockSynchronizationStatistics → RadioClockSynchronizationStatistics) :
    (s.count step).takeSequence = (s.takeSequence.1.count step, s.takeSequence.2) := by
  by_cases h : s.nextSequence = 0 <;> simp [takeSequence, count, h]

/-- `RecoverSystemTimestamp` leaves the synchronizer as it was, or counts
one fallback to the time of handling. -/
theorem recoverSystemTimestamp_state (packet : RadioPacketView) (reads : ReceiveReads) :
    (s.recoverSystemTimestamp packet reads).1 = s
      ∨ (s.recoverSystemTimestamp packet reads).1
        = s.count timestampFallback := by
  unfold recoverSystemTimestamp
  dsimp only
  split
  · exact Or.inr rfl
  · split <;> exact Or.inl rfl

@[simp] theorem recoverSystemTimestamp_nextSequence (packet : RadioPacketView)
    (reads : ReceiveReads) :
    (s.recoverSystemTimestamp packet reads).1.nextSequence = s.nextSequence := by
  rcases s.recoverSystemTimestamp_state packet reads with h | h <;> simp [h]

@[simp] theorem recoverSystemTimestamp_pendingSequence (packet : RadioPacketView)
    (reads : ReceiveReads) :
    (s.recoverSystemTimestamp packet reads).1.pendingSequence = s.pendingSequence := by
  rcases s.recoverSystemTimestamp_state packet reads with h | h <;> simp [h]

/-- The time `RecoverSystemTimestamp` comes to, for this packet and these
readings. -/
def recoveredTime (packet : RadioPacketView) (reads : ReceiveReads) : UInt64 :=
  let elapsed := reads.monotonic - packet.receiveTimestampNanoseconds
  if packet.receiveTimestampNanoseconds = 0
      ∨ reads.monotonic ≤ packet.receiveTimestampNanoseconds then reads.timestamp
  else if reads.timestamp ≥ elapsed then reads.timestamp - elapsed
  else 0

theorem recoverSystemTimestamp_time (s : RadioClockSynchronizer) (packet : RadioPacketView)
    (reads : ReceiveReads) :
    (s.recoverSystemTimestamp packet reads).2 = recoveredTime packet reads := by
  unfold recoverSystemTimestamp recoveredTime
  dsimp only
  split
  · next hnone => rw [if_pos (Or.inl hnone)]
  · next hstamped =>
    split
    · next hle => rw [if_pos (Or.inr hle)]
    · next hlt => rw [if_neg (not_or.mpr ⟨hstamped, hlt⟩)]

-- ============================================================== outcomes

/-- The synchronizer has taken no new number, and what was pending is
pending still or dropped. -/
structure Unmoved (s s' : RadioClockSynchronizer) : Prop where
  nextSequence : s'.nextSequence = s.nextSequence
  pendingSequence : s'.pendingSequence = s.pendingSequence ∨ s'.pendingSequence = 0

/-- The call sends and submits nothing, takes no new number and at most
forgets what was pending. -/
structure Quiet (s : RadioClockSynchronizer) (r : RadioClockSynchronizer × List ClockEvent) :
    Prop where
  unmoved : Unmoved s r.1
  events : r.2 = []

/-- A request with the next sequence number goes out. -/
structure Requested (s : RadioClockSynchronizer) (localAddress : RadioAddress)
    (r : RadioClockSynchronizer × List ClockEvent) : Prop where
  isValid : localAddress.isValid = true
  nextSequence : r.1.nextSequence = s.takeSequence.1.nextSequence
  pendingSequence : r.1.pendingSequence = s.takeSequence.2 ∨ r.1.pendingSequence = 0
  events : ∃ t1 destination result, r.2 =
    [.requestCaptured s.takeSequence.2 t1,
      .radioSend destination (encodeRequest s.takeSequence.2 t1 localAddress) result]

/-- The request in this payload is answered, at the address it names. -/
structure Answered (s : RadioClockSynchronizer) (payload : List UInt8)
    (r : RadioClockSynchronizer × List ClockEvent) : Prop where
  unmoved : Unmoved s r.1
  events : ∃ sequence t2 t3 destination result,
    decodeHeader payload = some (.request, sequence)
      ∧ destination.same (decodeRequestAddress payload) = true
      ∧ r.2 =
        [.requestProcessed sequence t2 t3,
          .radioSend destination
            (encodeResponse sequence (readU64 payload requestTimestampOffset) t2 t3) result]

/-- The response in this payload is the awaited one; its timestamps are
submitted. -/
structure Submitted (s : RadioClockSynchronizer) (payload : List UInt8)
    (r : RadioClockSynchronizer × List ClockEvent) : Prop where
  awaited : s.pendingSequence ≠ 0
  decodes : decodeHeader payload = some (.response, s.pendingSequence)
  nextSequence : r.1.nextSequence = s.nextSequence
  pendingSequence : r.1.pendingSequence = 0
  events : ∃ t4 adjustmentMode, r.2 =
    [.submitSynchronizationSample
      { localRequestTransmitTime := readU64 payload 8
        remoteRequestReceiveTime := readU64 payload 16
        remoteResponseTransmitTime := readU64 payload 24
        localResponseReceiveTime := t4 } adjustmentMode]

theorem Unmoved.refl (s : RadioClockSynchronizer) : Unmoved s s := ⟨rfl, Or.inl rfl⟩

theorem Quiet.of_unmoved (h : Unmoved s s') : Quiet s (s', []) := ⟨h, rfl⟩

-- ============================================================= lifecycle

theorem shutdown_quiet (s : RadioClockSynchronizer) : Quiet s (s.shutdown, []) :=
  Quiet.of_unmoved ⟨rfl, Or.inr rfl⟩

theorem resetStatistics_quiet (s : RadioClockSynchronizer) :
    Quiet s (s.resetStatistics, []) :=
  Quiet.of_unmoved ⟨rfl, Or.inl rfl⟩

/-- However `Initialize` ends, it sends and submits nothing and takes no
number. -/
theorem initializeWith_quiet (s : RadioClockSynchronizer)
    (config : RadioClockSynchronizationConfig) (reads : InitializeReads) :
    Quiet s ((s.initializeWith config reads).1, []) := by
  apply Quiet.of_unmoved
  unfold initializeWith
  dsimp only
  split
  · exact ⟨rfl, Or.inr rfl⟩
  · split
    · exact ⟨rfl, Or.inr rfl⟩
    · split
      · exact ⟨rfl, Or.inr rfl⟩
      · split <;> exact ⟨rfl, Or.inr rfl⟩

-- ============================================================== requests

/-- What a request about to be sent is made of, and that its number
pends. -/
structure Begun (s : RadioClockSynchronizer) (reads : RequestReads)
    (s' : RadioClockSynchronizer) (request : OutgoingRequest) : Prop where
  isValid : reads.localAddress.isValid = true
  nextSequence : s'.nextSequence = s.takeSequence.1.nextSequence
  pendingSequence : s'.pendingSequence = request.sequence
  sequence : request.sequence = s.takeSequence.2
  t1 : request.t1 = reads.timestamp
  frame : request.frame = encodeRequest request.sequence request.t1 reads.localAddress

/-- `beginRequest` refuses and leaves the numbers alone, or takes a
number and awaits it. -/
theorem beginRequest_cases (s : RadioClockSynchronizer) (reads : RequestReads) :
    (∃ s' result, s.beginRequest reads = (s', .error result)
        ∧ s'.nextSequence = s.nextSequence ∧ s'.pendingSequence = s.pendingSequence)
      ∨ ∃ s' request, s.beginRequest reads = (s', .ok request)
        ∧ Begun s reads s' request := by
  unfold beginRequest
  dsimp only
  split
  · exact Or.inl ⟨_, _, rfl, rfl, rfl⟩
  · split
    · exact Or.inl ⟨_, _, rfl, rfl, rfl⟩
    · next hfit =>
      have hvalid : reads.localAddress.isValid = true := by
        simp only [Bool.or_eq_true, not_or, Bool.not_eq_true] at hfit
        simpa using hfit.2
      rw [count_takeSequence]
      exact Or.inr ⟨_, _, rfl, hvalid, rfl, rfl, rfl, rfl, rfl⟩

theorem Begun.of_eq {reads : RequestReads} {request : OutgoingRequest}
    (h : s.beginRequest reads = (s', .ok request)) : Begun s reads s' request := by
  rcases s.beginRequest_cases reads with ⟨s₀, result, hr, -⟩ | ⟨s₀, request₀, hr, hbegun⟩
  · rw [h] at hr
    cases hr
  · rw [h] at hr
    cases hr
    exact hbegun

/-- A request that is refused before its send leaves `_pendingSequence`
alone. -/
theorem beginRequest_refused {reads : RequestReads} {result : RadioSendResult}
    (h : s.beginRequest reads = (s', .error result)) :
    s'.pendingSequence = s.pendingSequence := by
  rcases s.beginRequest_cases reads with ⟨s₀, result₀, hr, -, hsame⟩ | ⟨s₀, request, hr, -⟩
  · rw [h] at hr
    cases hr
    exact hsame
  · rw [h] at hr
    cases hr

theorem endRequest_unmoved (result : RadioSendResult) : Unmoved s (s.endRequest result) := by
  unfold endRequest
  split
  · exact ⟨rfl, Or.inl rfl⟩
  · exact ⟨rfl, Or.inr rfl⟩

theorem requestSynchronization_cases (s : RadioClockSynchronizer) (reads : RequestReads) :
    Quiet s ((s.requestSynchronization reads).1, (s.requestSynchronization reads).2.2)
      ∨ Requested s reads.localAddress
        ((s.requestSynchronization reads).1, (s.requestSynchronization reads).2.2) := by
  unfold requestSynchronization
  rcases s.beginRequest_cases reads with ⟨s', result, hr, hnext, hpending⟩ |
    ⟨s', request, hr, hbegun⟩
  · rw [hr]
    exact Or.inl (Quiet.of_unmoved ⟨hnext, Or.inl hpending⟩)
  · rw [hr]
    have hend := s'.endRequest_unmoved reads.sent
    refine Or.inr ⟨hbegun.isValid, ?_, ?_, ?_⟩
    · exact hend.nextSequence.trans hbegun.nextSequence
    · rw [← hbegun.sequence, ← hbegun.pendingSequence]
      exact hend.pendingSequence
    · refine ⟨request.t1, request.destination, reads.sent, ?_⟩
      dsimp only
      rw [hbegun.frame, hbegun.sequence]

/-- `Update` does nothing that shows, or makes a request. -/
theorem update_cases (s : RadioClockSynchronizer) (now : UInt64) (reads : RequestReads) :
    Quiet s (s.update now reads)
      ∨ Requested s reads.localAddress (s.update now reads) := by
  have hquiet : Quiet s (s, []) := Quiet.of_unmoved (Unmoved.refl s)
  unfold update
  split
  · exact Or.inl hquiet
  · split
    · exact Or.inl hquiet
    · dsimp only
      split
      · exact s.requestSynchronization_cases reads
      · exact Or.inl hquiet

-- ============================================================== packets

/-- What a response about to be sent is made of, and where it goes: to an
address of the radio's length that agrees with the one in the request. -/
structure Replies (packet : RadioPacketView) (sequence : UInt32) (reads : ReceiveReads)
    (response : OutgoingResponse) : Prop where
  sequence_eq : response.sequence = sequence
  t2 : response.t2 = recoveredTime packet reads
  t3 : response.t3 = reads.transmitTimestamp
  frame : response.frame =
    encodeResponse sequence (readU64 packet.payload requestTimestampOffset)
      (recoveredTime packet reads) reads.transmitTimestamp
  destination : response.destination.same (decodeRequestAddress packet.payload) = true
  isValid : response.destination.isValid = true
  length_eq : reads.addressBytes ≠ 0 → response.destination.length = reads.addressBytes

/-- `ProcessRequest` up to its send: a request that fails a check is
counted as ignored, one that passes them all is counted and given a
response. -/
theorem beginResponse_cases (s : RadioClockSynchronizer) (packet : RadioPacketView)
    (sequence : UInt32) (reads : ReceiveReads) :
    s.beginResponse packet sequence reads = (s.count ignoredFrame, none)
      ∨ ∃ response, Replies packet sequence reads response
        ∧ s.beginResponse packet sequence reads
          = (((s.count requestReceived).recoverSystemTimestamp packet reads).1,
            some response) := by
  unfold beginResponse
  split
  · exact Or.inl rfl
  · dsimp only
    split
    · exact Or.inl rfl
    · next hembedded =>
      split
      · exact Or.inl rfl
      · next hsource =>
        -- a source address is only used after it agreed with the embedded one
        have hsame : (if packet.source.isValid then packet.source
            else decodeRequestAddress packet.payload).same
              (decodeRequestAddress packet.payload) = true := by
          split
          · next hvalid => simpa [hvalid] using hsource
          · simp
        have hvalid : (if packet.source.isValid then packet.source
            else decodeRequestAddress packet.payload).isValid = true := by
          split
          · next hvalid => exact hvalid
          · simpa using hembedded
        generalize (if packet.source.isValid then packet.source
          else decodeRequestAddress packet.payload) = responseDestination
          at hsame hvalid ⊢
        split
        · exact Or.inl rfl
        · next hlength =>
          rw [recoverSystemTimestamp_time]
          refine Or.inr ⟨_, ⟨rfl, rfl, rfl, rfl, hsame, hvalid, fun hbytes => ?_⟩, rfl⟩
          simpa [hbytes] using hlength

@[simp] theorem endResponse_nextSequence (result : RadioSendResult) :
    (s.endResponse result).nextSequence = s.nextSequence := by
  unfold endResponse
  split <;> rfl

@[simp] theorem endResponse_pendingSequence (result : RadioSendResult) :
    (s.endResponse result).pendingSequence = s.pendingSequence := by
  unfold endResponse
  split <;> rfl

/-- A request is ignored, or answered at the address it names. -/
theorem processRequest_outcome (s : RadioClockSynchronizer) (packet : RadioPacketView)
    (sequence : UInt32) (reads : ReceiveReads) :
    s.processRequest packet sequence reads = (s.count ignoredFrame, [])
      ∨ ∃ s' destination, s'.nextSequence = s.nextSequence
        ∧ s'.pendingSequence = s.pendingSequence
        ∧ destination.same (decodeRequestAddress packet.payload) = true
        ∧ s.processRequest packet sequence reads =
          (s', [.requestProcessed sequence (recoveredTime packet reads)
              reads.transmitTimestamp,
            .radioSend destination
              (encodeResponse sequence (readU64 packet.payload requestTimestampOffset)
                (recoveredTime packet reads) reads.transmitTimestamp) reads.sent]) := by
  unfold processRequest
  rcases s.beginResponse_cases packet sequence reads with hignored |
    ⟨response, hreply, hbegun⟩
  · rw [hignored]
    exact Or.inl rfl
  · rw [hbegun]
    dsimp only
    rw [hreply.sequence_eq, hreply.t2, hreply.t3, hreply.frame]
    refine Or.inr ⟨_, response.destination, ?_, ?_, hreply.destination, rfl⟩
    · simp
    · simp

theorem processRequest_cases (s : RadioClockSynchronizer) (packet : RadioPacketView)
    (sequence : UInt32) (reads : ReceiveReads)
    (hd : decodeHeader packet.payload = some (.request, sequence)) :
    Quiet s (s.processRequest packet sequence reads)
      ∨ Answered s packet.payload (s.processRequest packet sequence reads) := by
  rcases s.processRequest_outcome packet sequence reads with hignored |
    ⟨s', destination, hnext, hpending, hsame, hanswered⟩
  · rw [hignored]
    exact Or.inl (Quiet.of_unmoved ⟨rfl, Or.inl rfl⟩)
  · rw [hanswered]
    exact Or.inr ⟨⟨hnext, Or.inl hpending⟩, sequence, _, _, destination, _, hd, hsame, rfl⟩

theorem processResponse_cases (s : RadioClockSynchronizer) (packet : RadioPacketView)
    (sequence : UInt32) (reads : ReceiveReads)
    (hd : decodeHeader packet.payload = some (.response, sequence)) :
    Quiet s (s.processResponse packet sequence reads)
      ∨ Submitted s packet.payload (s.processResponse packet sequence reads) := by
  have hignored : Quiet s
      (s.count ignoredFrame, []) :=
    Quiet.of_unmoved ⟨rfl, Or.inl rfl⟩
  unfold processResponse
  split
  · exact Or.inl hignored
  · split
    · exact Or.inl hignored
    · dsimp only
      split
      · exact Or.inl hignored
      · next hpending =>
        obtain ⟨hne, heq⟩ := not_or.mp hpending
        have heq := not_not.mp heq
        refine Or.inr ⟨hne, ?_, ?_, ?_, ?_⟩
        · rw [heq]
          exact hd
        · dsimp only
          split <;> simp
        · dsimp only
          split <;> simp
        · exact ⟨_, _, rfl⟩

/-- A packet for an initialized synchronizer's own radio, with a header of
the protocol and the timestamp if one is required, goes to `processRequest`
or `processResponse` by its type. -/
theorem onRadioPacketReceived_eq (s : RadioClockSynchronizer) (packet : RadioPacketView)
    (reads : ReceiveReads) :
    s.onRadioPacketReceived packet reads =
      if !s.initialized || !reads.ownRadio then (s, [])
      else
        match decodeHeader packet.payload with
        | none => (s, [])
        | some (type, sequence) =>
            if s.config.requireReceiveTimestamp
                && packet.receiveTimestampNanoseconds == 0 then
              (s.count ignoredFrame, [])
            else
              match type with
              | .request => s.processRequest packet sequence reads
              | .response => s.processResponse packet sequence reads := by
  unfold onRadioPacketReceived beginReceive
  by_cases hready : (!s.initialized || !reads.ownRadio) = true
  · rw [if_pos hready, if_pos hready]
  · rw [if_neg hready, if_neg hready]
    cases decodeHeader packet.payload with
    | none => rfl
    | some header =>
        obtain ⟨type, sequence⟩ := header
        dsimp only
        by_cases hunstamped : (s.config.requireReceiveTimestamp
            && packet.receiveTimestampNanoseconds == 0) = true
        · rw [if_pos hunstamped, if_pos hunstamped]
        · rw [if_neg hunstamped, if_neg hunstamped]
          cases type with
          | request =>
              unfold processRequest
              rcases s.beginResponse packet sequence reads with ⟨s', _ | response⟩
              · rfl
              · rfl
          | response => rfl

theorem onRadioPacketReceived_cases (s : RadioClockSynchronizer) (packet : RadioPacketView)
    (reads : ReceiveReads) :
    Quiet s (s.onRadioPacketReceived packet reads)
      ∨ Answered s packet.payload (s.onRadioPacketReceived packet reads)
      ∨ Submitted s packet.payload (s.onRadioPacketReceived packet reads) := by
  have hquiet : Quiet s (s, []) := Quiet.of_unmoved (Unmoved.refl s)
  rw [onRadioPacketReceived_eq]
  split
  · exact Or.inl hquiet
  · cases hd : decodeHeader packet.payload with
    | none => exact Or.inl hquiet
    | some header =>
        obtain ⟨type, sequence⟩ := header
        dsimp only
        split
        · exact Or.inl (Quiet.of_unmoved ⟨rfl, Or.inl rfl⟩)
        · cases type with
          | request =>
              rcases s.processRequest_cases packet sequence reads hd with h | h
              · exact Or.inl h
              · exact Or.inr (Or.inl h)
          | response =>
              rcases s.processResponse_cases packet sequence reads hd with h | h
              · exact Or.inl h
              · exact Or.inr (Or.inr h)

end RadioClockSynchronizer

end EspressioRadio
