/-
The timestamps of an exchange in time.

`RecoverSystemTimestamp` reads the target before the monotonic clock, and
takes the whole of the time that has passed by the second reading off the
first. So T2 and T4 are the instants of reception less the pause between
the two readings (`recoveredTime_toNat`). T2 then never passes T3, but
the time at the reference grows by the one pause and the time at the
client shrinks by the other: the sample is causally ordered exactly when
the pauses are no longer than the frames were on their way
(`causallyOrdered_iff`).
-/
import EspressioRadio.Clock.Timed
import EspressioRadio.Proofs.Clock.Cuts
import EspressioRadio.Proofs.Clock.Frames

namespace EspressioRadio

open RadioClockSynchronizer

-- ======================================================== recovered times

section Recovered

variable {c : NodeClock} {received system monotonic : Int} {packet : RadioPacketView}
  {reads : ReceiveReads}

/-- The target's time at the reception, less the pause between the
readings, or zero if that is before the target's time began. -/
theorem recoveredTime_toNat (h : HandledAt c received system monotonic packet reads)
    (hsystem : received ≤ system) (hmonotonic : system ≤ monotonic) :
    ((recoveredTime packet reads).toNat : Int)
      = c.target received - min (monotonic - system) (c.target received) := by
  have hreceived := h.received
  have hsys := h.system
  have hmono := h.monotonic
  unfold NodeClock.ShowsMonotonic at hreceived hmono
  unfold NodeClock.ShowsTarget NodeClock.target at hsys
  unfold recoveredTime NodeClock.target
  dsimp only
  split
  · next hnone =>
    -- no time passed at all
    have hle := hnone.resolve_left h.stamped
    rw [UInt64.le_iff_toNat_le] at hle
    omega
  · next hpassed =>
    obtain ⟨-, hlt⟩ := not_or.mp hpassed
    rw [UInt64.le_iff_toNat_le, not_le] at hlt
    have helapsed : (reads.monotonic - packet.receiveTimestampNanoseconds).toNat
        = reads.monotonic.toNat - packet.receiveTimestampNanoseconds.toNat :=
      UInt64.toNat_sub_of_le _ _ (UInt64.le_iff_toNat_le.mpr (Nat.le_of_lt hlt))
    split
    · next hfits =>
      rw [UInt64.toNat_sub_of_le _ _ hfits, helapsed]
      rw [ge_iff_le, UInt64.le_iff_toNat_le, helapsed] at hfits
      omega
    · next hpast =>
      rw [ge_iff_le, UInt64.le_iff_toNat_le, helapsed] at hpast
      simp only [UInt64.toNat_zero]
      omega

end Recovered

-- ============================================================ the sample

namespace TimedExchange

variable (e : TimedExchange)

/-- The four timestamps of the sample are those read in this exchange. -/
theorem sample_times :
    e.sample.localRequestTransmitTime = e.requestReads.timestamp
      ∧ e.sample.remoteRequestReceiveTime = recoveredTime e.requestPacket e.answerReads
      ∧ e.sample.remoteResponseTransmitTime = e.answerReads.transmitTimestamp
      ∧ e.sample.localResponseReceiveTime
        = recoveredTime e.responsePacket e.submitReads := by
  have hbegun := Begun.of_eq (Prod.ext rfl e.asks)
  obtain ⟨sequence, hresponse⟩ := onRadioPacketReceived_sends e.answers
  obtain ⟨-, hsample, -⟩ := submitted_iff.mp e.submits
  -- T1 goes there and back
  rw [e.carries_request, hbegun.frame, encodeRequest_time, hbegun.t1] at hresponse
  obtain ⟨hone, htwo, hthree⟩ := encodeResponse_times sequence e.requestReads.timestamp
    (recoveredTime e.requestPacket e.answerReads) e.answerReads.transmitTimestamp
  rw [← hresponse, ← e.carries_response] at hone htwo hthree
  rw [hsample]
  exact ⟨hone, htwo, hthree, rfl⟩

/-- The instants of an exchange follow each other, one by one. -/
theorem instants :
    e.times.t1 ≤ e.times.requestReceived ∧ e.times.requestReceived ≤ e.times.t2System
      ∧ e.times.t2System ≤ e.times.t2Monotonic ∧ e.times.t2Monotonic ≤ e.times.t3
      ∧ e.times.t3 ≤ e.times.responseReceived
      ∧ e.times.responseReceived ≤ e.times.t4System
      ∧ e.times.t4System ≤ e.times.t4Monotonic := by
  have h := e.times.ordered
  simp only [List.isChain_cons_cons] at h
  omega

/-- T2 is the instant the request came in, less the pause. -/
theorem t2_toNat : (e.sample.remoteRequestReceiveTime.toNat : Int)
    = e.reference.target e.times.requestReceived - e.requestLoss := by
  obtain ⟨-, hreceived, hpause, -⟩ := e.instants
  rw [e.sample_times.2.1]
  exact recoveredTime_toNat e.answers_at hreceived hpause

theorem t4_toNat : (e.sample.localResponseReceiveTime.toNat : Int)
    = e.client.target e.times.responseReceived - e.responseLoss := by
  obtain ⟨-, -, -, -, -, hreceived, hpause⟩ := e.instants
  rw [e.sample_times.2.2.2]
  exact recoveredTime_toNat e.submits_at hreceived hpause

/-- The sample of an exchange is causally ordered in its own numbers exactly
when the pauses of both nodes, between reading the target and the monotonic
clock, fit into the time the frames took. -/
theorem causallyOrdered_iff : e.sample.CausallyOrdered ↔ e.PausesFit := by
  obtain ⟨hone, -, hthree, -⟩ := e.sample_times
  obtain ⟨hflight, hreceived, hpause, htransmit, hback, hreceived', hpause'⟩ := e.instants
  have ht1 := e.asks_at
  have ht2 := e.t2_toNat
  have ht3 := e.transmits_at
  have ht4 := e.t4_toNat
  rw [← hone] at ht1
  rw [← hthree] at ht3
  unfold NodeClock.ShowsTarget at ht1 ht3
  unfold ClockSynchronizationSample.CausallyOrdered PausesFit requestFlight responseFlight
  rw [UInt64.le_iff_toNat_le, UInt64.le_iff_toNat_le]
  unfold requestLoss responseLoss NodeClock.target at *
  omega

-- ====================================================== a long pause

section Preempted

/-- An address of one byte: the client's is 1, the reference's 2. -/
def preemptedAddress (byte : UInt8) : RadioAddress := RadioAddress.fromBytes [byte] 1

def preemptedNode (config : RadioClockSynchronizationConfig) (byte : UInt8) :
    RadioClockSynchronizer :=
  (({} : RadioClockSynchronizer).initializeWith config
    { capabilities := { maximumPayloadBytes := 32, addressBytes := 1 }
      localAddress := preemptedAddress byte
      subscribed := true }).1

def preemptedClient : RadioClockSynchronizer :=
  preemptedNode { mode := .client, referencePeer := preemptedAddress 2 } 1

def preemptedRequestReads : RequestReads where
  isStarted := true
  localAddress := preemptedAddress 1
  timestamp := 1000
  monotonic := 1000
  sent := .accepted

def preemptedReads (timestamp monotonic transmitTimestamp : UInt64) : ReceiveReads where
  addressBytes := 1
  timestamp := timestamp
  monotonic := monotonic
  transmitTimestamp := transmitTimestamp
  sent := .accepted
  accepted := true

/-- Both nodes show the common time, and no frame is on its way for
longer than 2; but the reference is preempted for 500 between its two
readings. -/
def preempted : TimedExchange where
  client := { monotonicOffset := 0, targetOffset := 0 }
  reference := { monotonicOffset := 0, targetOffset := 0 }
  times :=
    { t1 := 1000, requestSent := 1001, requestReceived := 1002
      t2System := 1003, t2Monotonic := 1503, t3 := 1504
      responseSent := 1505, responseReceived := 1506
      t4System := 1507, t4Monotonic := 1508
      ordered := by decide }
  asking := preemptedClient
  requestReads := preemptedRequestReads
  request :=
    { sequence := 1, t1 := 1000, destination := preemptedAddress 2
      frame := encodeRequest 1 1000 (preemptedAddress 1) }
  asks := rfl
  asks_at := rfl
  answering := preemptedNode { mode := .reference } 2
  requestPacket :=
    { payload := encodeRequest 1 1000 (preemptedAddress 1)
      receiveTimestampNanoseconds := 1002 }
  answerReads := preemptedReads 1003 1503 1504
  destination := preemptedAddress 1
  response := encodeResponse 1 1000 502 1504
  result := .accepted
  carries_request := rfl
  answers := List.Mem.tail _ (List.Mem.head _)
  answers_at := ⟨by decide, rfl, rfl, rfl⟩
  transmits_at := rfl
  submitting := (preemptedClient.requestSynchronization preemptedRequestReads).1
  responsePacket :=
    { payload := encodeResponse 1 1000 502 1504, receiveTimestampNanoseconds := 1506 }
  submitReads := preemptedReads 1507 1508 1508
  sample := ⟨1000, 502, 1504, 1505⟩
  adjustmentMode := 0
  carries_response := rfl
  submits := List.Mem.head _
  submits_at := ⟨by decide, rfl, rfl, rfl⟩

/-- Not every sample is ordered: in that exchange the reference took 1002 by
its own account, and the whole exchange 505. -/
theorem preempted_disordered : ¬∀ e : TimedExchange, e.sample.CausallyOrdered := by
  intro hordered
  obtain ⟨-, -, hdelay⟩ := hordered preempted
  revert hdelay
  decide

end Preempted

end TimedExchange

end EspressioRadio
