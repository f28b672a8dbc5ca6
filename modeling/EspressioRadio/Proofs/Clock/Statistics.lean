/-
The balance of the ten counters.

Every moment moves some counters by one (`Moves`), and what it moves is
balanced against the sends that begin or return in it (`Balanced`): a
request or an answer is counted when it is begun and once more when its
send returns, a response together with the verdict on its sample. With
no send under way the books balance (`statistics_conserved`).

# Wrapping

The counters are machine words. `Unwrapped` is a moment at which none
of them wraps: only `ResetStatistics` makes a counter smaller.
-/
import EspressioRadio.Proofs.Clock.Nested
import Mathlib.Data.List.Nodup

namespace EspressioRadio

-- ============================================================== counters

/-- The members of `RadioClockSynchronizationStatistics`, by name. -/
inductive Counter where
  | requestsAttempted
  | requestsSent
  | requestsReceived
  | responsesSent
  | responsesReceived
  | sendFailures
  | ignoredFrames
  | samplesAccepted
  | samplesRejected
  | timestampFallbacks
  deriving DecidableEq, Repr

namespace RadioClockSynchronizationStatistics

def get (c : RadioClockSynchronizationStatistics) : Counter → UInt64
  | .requestsAttempted => c.requestsAttempted
  | .requestsSent => c.requestsSent
  | .requestsReceived => c.requestsReceived
  | .responsesSent => c.responsesSent
  | .responsesReceived => c.responsesReceived
  | .sendFailures => c.sendFailures
  | .ignoredFrames => c.ignoredFrames
  | .samplesAccepted => c.samplesAccepted
  | .samplesRejected => c.samplesRejected
  | .timestampFallbacks => c.timestampFallbacks

/-- The step of the source that moves the counter. -/
def bump : Counter → RadioClockSynchronizationStatistics → RadioClockSynchronizationStatistics
  | .requestsAttempted => requestAttempted
  | .requestsSent => requestSent
  | .requestsReceived => requestReceived
  | .responsesSent => responseSent
  | .responsesReceived => responseReceived
  | .sendFailures => sendFailure
  | .ignoredFrames => ignoredFrame
  | .samplesAccepted => sampleAccepted
  | .samplesRejected => sampleRejected
  | .timestampFallbacks => timestampFallback

/-- The function of a counter moves that counter by one and no other. -/
theorem get_bump (c : RadioClockSynchronizationStatistics) (k k' : Counter) :
    (bump k c).get k' = c.get k' + UInt64.ofNat ([k].count k') := by
  by_cases h : k' = k
  · subst h
    cases k' <;> simp [bump, get, requestAttempted, requestSent, requestReceived,
      responseSent, responseReceived, sendFailure, ignoredFrame, sampleAccepted,
      sampleRejected, timestampFallback]
  · have hcount : [k].count k' = 0 := List.count_eq_zero.mpr (by simpa using h)
    rw [hcount]
    cases k <;> cases k' <;> first | exact absurd rfl h | exact (UInt64.add_zero _).symm

end RadioClockSynchronizationStatistics

namespace RadioClockSynchronizer

open RadioClockSynchronizationStatistics

variable {s s' s'' : RadioClockSynchronizer} {ks ks' : List Counter}

/-- The counters listed are moved by one for each time they are listed,
the others stay. -/
def Moves (s s' : RadioClockSynchronizer) (ks : List Counter) : Prop :=
  ∀ k, s'.statistics.get k = s.statistics.get k + UInt64.ofNat (ks.count k)

theorem Moves.none (h : s'.statistics = s.statistics) : Moves s s' [] := fun k => by
  rw [h]
  exact (UInt64.add_zero _).symm

theorem Moves.count (s : RadioClockSynchronizer) (k : Counter) :
    Moves s (s.count (bump k)) [k] := get_bump s.statistics k

theorem Moves.trans (h : Moves s s' ks) (h' : Moves s' s'' ks') :
    Moves s s'' (ks ++ ks') := fun k => by
  rw [h' k, h k, List.count_append, UInt64.ofNat_add, UInt64.add_assoc]

/-- `RecoverSystemTimestamp` counts a fallback, or moves nothing. -/
theorem Moves.recovered (packet : RadioPacketView) (reads : ReceiveReads) :
    Moves s (s.recoverSystemTimestamp packet reads).1 []
      ∨ Moves s (s.recoverSystemTimestamp packet reads).1 [.timestampFallbacks] := by
  rcases s.recoverSystemTimestamp_state packet reads with h | h
  · exact Or.inl (Moves.none (by rw [h]))
  · rw [h]
    exact Or.inr (Moves.count s .timestampFallbacks)

theorem Moves.verdict (accepted : Bool) :
    Moves s (s.count (verdict accepted))
      [if accepted then .samplesAccepted else .samplesRejected] := by
  unfold RadioClockSynchronizer.verdict
  cases accepted
  · exact Moves.count s .samplesRejected
  · exact Moves.count s .samplesAccepted

end RadioClockSynchronizer

-- =============================================================== balance

/-- What a moment moves, against the sends under way before and after
it. -/
structure Balanced (ks : List Counter) (before after : Nat) : Prop where
  sends : ks.count .requestsAttempted + ks.count .requestsReceived + before
    = ks.count .requestsSent + ks.count .responsesSent + ks.count .sendFailures + after
  samples : ks.count .responsesReceived
    = ks.count .samplesAccepted + ks.count .samplesRejected
  fallbacks : ks.count .timestampFallbacks
    ≤ ks.count .requestsReceived + ks.count .responsesReceived
  once : ks.Nodup

/-- The counters a packet that is handled is entered in. -/
def entries (ks : List Counter) : Nat :=
  ks.count .ignoredFrames + ks.count .requestsReceived + ks.count .responsesReceived

theorem balanced_nil (n : Nat) : Balanced [] n n := ⟨by simp, by simp, by simp, by simp⟩

namespace ClockStack

open RadioClockSynchronizer RadioClockSynchronizationStatistics

variable {c : ClockStack}

/-- The moment brings in a packet that `OnRadioPacketReceived` handles: one
that decodes, on its own radio. -/
def Handles (c : ClockStack) : ClockMoment → Bool
  | .onRadioPacketReceived packet reads => c.synchronizer.handles packet reads
  | _ => false

/-- What a moment adds to the counters balances with the sends it adds or
ends, and the packets it handles. -/
def Booked (c c' : ClockStack) (handled : Nat) : Prop :=
  ∃ ks, Moves c.synchronizer c'.synchronizer ks
    ∧ Balanced ks c.sends.length c'.sends.length ∧ entries ks = handled

theorem Booked.none {c' : ClockStack}
    (hsame : c'.synchronizer.statistics = c.synchronizer.statistics)
    (hsends : c'.sends.length = c.sends.length) : c.Booked c' 0 :=
  ⟨[], Moves.none hsame, by rw [hsends]; exact balanced_nil _, rfl⟩

/-- A request is counted, and its failure too if it is refused. -/
theorem request_booked (c : ClockStack) (reads : RequestReads) :
    c.Booked (c.request reads).1 0 := by
  have hattempted := Moves.count c.synchronizer .requestsAttempted
  unfold request
  rcases c.synchronizer.beginRequest_recorded reads with ⟨result, hr⟩ |
    ⟨s', request, hr, -, -, -, hstatistics⟩
  · rw [hr]
    exact ⟨_, hattempted.trans (Moves.count _ .sendFailures),
      ⟨by simp, rfl, by simp, by simp⟩, rfl⟩
  · rw [hr]
    refine ⟨[.requestsAttempted], fun k => ?_,
      ⟨by simp [Nat.add_comm], rfl, by simp, by simp⟩, rfl⟩
    rw [← hattempted k]
    exact congrArg (·.get k) hstatistics

/-- A packet is counted once if it is handled: ignored, answered, or
submitted with the verdict on its sample. -/
theorem receive_booked (c : ClockStack) (packet : RadioPacketView) (reads : ReceiveReads) :
    c.Booked (c.receive packet reads).1
      (if c.synchronizer.handles packet reads then 1 else 0) := by
  have hreceived := c.synchronizer.beginReceive_received packet reads
  unfold receive
  generalize c.synchronizer.beginReceive packet reads = r at hreceived ⊢
  obtain ⟨s', events, response⟩ := r
  dsimp only at hreceived ⊢
  cases hreceived with
  | untouched h =>
      rw [h]
      exact Booked.none rfl rfl
  | ignored h =>
      rw [h]
      exact ⟨_, Moves.count _ .ignoredFrames, ⟨by simp, rfl, by simp, by simp⟩, rfl⟩
  | answered h response =>
      rw [h]
      have hcounted := Moves.count c.synchronizer .requestsReceived
      -- T2 may have been counted as a fallback
      rcases Moves.recovered packet reads with hrecovered | hrecovered
      · exact ⟨_, hcounted.trans hrecovered,
          ⟨by simp [Nat.add_comm], rfl, by simp, by simp⟩, rfl⟩
      · exact ⟨_, hcounted.trans hrecovered,
          ⟨by simp [Nat.add_comm], rfl, by simp, by simp⟩, rfl⟩
  | submitted h =>
      rw [h]
      have hcounted : Moves c.synchronizer
          (({ c.synchronizer with pendingSequence := 0 }).count responseReceived)
          [.responsesReceived] :=
        Moves.count { c.synchronizer with pendingSequence := 0 } .responsesReceived
      have hjudged := Moves.verdict
        (s := ((({ c.synchronizer with pendingSequence := 0 }).count
          responseReceived).recoverSystemTimestamp packet reads).1) reads.accepted
      rcases Moves.recovered packet reads with hrecovered | hrecovered
      · refine ⟨_, (hcounted.trans hrecovered).trans hjudged, ?_⟩
        cases reads.accepted
        · exact ⟨⟨by simp, rfl, by simp, by simp⟩, rfl⟩
        · exact ⟨⟨by simp, rfl, by simp, by simp⟩, rfl⟩
      · refine ⟨_, (hcounted.trans hrecovered).trans hjudged, ?_⟩
        cases reads.accepted
        · exact ⟨⟨by simp, rfl, by simp, by simp⟩, rfl⟩
        · exact ⟨⟨by simp, rfl, by simp, by simp⟩, rfl⟩

/-- A send that returns is counted by its result. -/
theorem sent_booked (c : ClockStack) (result : RadioSendResult) :
    c.Booked (c.sent result).1 0 := by
  unfold sent
  cases hsends : c.sends with
  | nil => exact Booked.none rfl rfl
  | cons send outer =>
      have hlength : c.sends.length = outer.length + 1 := by rw [hsends]; rfl
      cases send with
      | request request =>
          dsimp only
          unfold endRequest
          split
          · refine ⟨_, Moves.count _ .requestsSent, ⟨?_, rfl, by simp, by simp⟩, rfl⟩
            simp [hlength, Nat.add_comm]
          · have hcounted : Moves c.synchronizer
                (({ c.synchronizer with pendingSequence := 0 }).count sendFailure)
                [.sendFailures] :=
              Moves.count { c.synchronizer with pendingSequence := 0 } .sendFailures
            refine ⟨_, hcounted, ⟨?_, rfl, by simp, by simp⟩, rfl⟩
            simp [hlength, Nat.add_comm]
      | response response =>
          dsimp only
          unfold endResponse
          split
          · refine ⟨_, Moves.count _ .responsesSent, ⟨?_, rfl, by simp, by simp⟩, rfl⟩
            simp [hlength, Nat.add_comm]
          · refine ⟨_, Moves.count _ .sendFailures, ⟨?_, rfl, by simp, by simp⟩, rfl⟩
            simp [hlength, Nat.add_comm]

theorem initializeWith_statistics (s : RadioClockSynchronizer)
    (config : RadioClockSynchronizationConfig) (reads : InitializeReads) :
    (s.initializeWith config reads).1.statistics = s.statistics := by
  unfold initializeWith
  dsimp only
  split
  · rfl
  · split
    · rfl
    · split
      · rfl
      · split <;> rfl

/-- Every moment but a reset keeps the books, entering the packet it
handles, if it does. -/
theorem step_booked (c : ClockStack) {moment : ClockMoment}
    (hreset : moment ≠ .resetStatistics) :
    c.Booked (c.step moment) (if c.Handles moment then 1 else 0) := by
  cases moment with
  | initializeWith config reads =>
      exact Booked.none (initializeWith_statistics ..) rfl
  | shutdown => exact Booked.none rfl rfl
  | resetStatistics => exact absurd rfl hreset
  | requestSynchronization reads => exact request_booked c reads
  | update now reads =>
      unfold step perform
      dsimp only
      split
      · exact request_booked c reads
      · exact Booked.none rfl rfl
  | onRadioPacketReceived packet reads => exact receive_booked c packet reads
  | sent result => exact sent_booked c result

-- ================================================================ runs

/-- The moment moves no counter past the end of its 64 bits. -/
def Unwrapped (c : ClockStack) (moment : ClockMoment) : Prop :=
  moment ≠ .resetStatistics →
    ∀ k, c.synchronizer.statistics.get k ≤ (c.step moment).synchronizer.statistics.get k

/-- A counter's value as a natural number. -/
def reading (c : ClockStack) (k : Counter) : Nat := (c.synchronizer.statistics.get k).toNat

/-- The books balance: everything attempted or received has been sent, has
failed or is under way, and every response received was accepted or
rejected. -/
structure Conserved (c : ClockStack) : Prop where
  sends : c.reading .requestsAttempted + c.reading .requestsReceived
    = c.reading .requestsSent + c.reading .responsesSent + c.reading .sendFailures
      + c.sends.length
  samples : c.reading .responsesReceived
    = c.reading .samplesAccepted + c.reading .samplesRejected
  fallbacks : c.reading .timestampFallbacks
    ≤ c.reading .requestsReceived + c.reading .responsesReceived

/-- A counter that does not wrap is moved by as much as it is listed. -/
private theorem toNat_of_le {x : UInt64} {n : Nat} (hn : n ≤ 1)
    (hle : x ≤ x + UInt64.ofNat n) : (x + UInt64.ofNat n).toNat = x.toNat + n := by
  have hx := x.toNat_lt
  have hle' := UInt64.le_iff_toNat_le.mp hle
  rw [UInt64.toNat_add, UInt64.toNat_ofNat'] at hle' ⊢
  omega

theorem Moves.reading {c' : ClockStack} {ks : List Counter}
    (h : Moves c.synchronizer c'.synchronizer ks) (honce : ks.Nodup)
    (hle : ∀ k, c.synchronizer.statistics.get k ≤ c'.synchronizer.statistics.get k)
    (k : Counter) : c'.reading k = c.reading k + ks.count k := by
  have hk := hle k
  unfold ClockStack.reading
  rw [h k] at hk ⊢
  exact toNat_of_le (List.nodup_iff_count_le_one.mp honce k) hk

theorem Conserved.step (h : c.Conserved) {moment : ClockMoment}
    (hsequential : c.Sequential moment) (hunwrapped : c.Unwrapped moment) :
    (c.step moment).Conserved := by
  by_cases hreset : moment = .resetStatistics
  · subst hreset
    have hidle : c.sends = [] := hsequential
    refine ⟨?_, rfl, Nat.le_refl _⟩
    show 0 + 0 = 0 + 0 + 0 + c.sends.length
    rw [hidle]
    rfl
  · obtain ⟨ks, hmoves, hbalanced, -⟩ := c.step_booked hreset
    have hreading := Moves.reading hmoves hbalanced.once (hunwrapped hreset)
    obtain ⟨hsends, hsamples, hfallbacks⟩ := h
    refine ⟨?_, ?_, ?_⟩
    · have := hbalanced.sends
      simp only [hreading]
      omega
    · have := hbalanced.samples
      simp only [hreading]
      omega
    · have := hbalanced.fallbacks
      simp only [hreading]
      omega

/-- What a packet adds to the counters it is entered in. -/
def entered (c : ClockStack) : Nat :=
  c.reading .ignoredFrames + c.reading .requestsReceived + c.reading .responsesReceived

theorem entered_step {moment : ClockMoment} (hreset : moment ≠ .resetStatistics)
    (hunwrapped : c.Unwrapped moment) :
    (c.step moment).entered = c.entered + if c.Handles moment then 1 else 0 := by
  obtain ⟨ks, hmoves, hbalanced, hentries⟩ := c.step_booked hreset
  have hreading := Moves.reading hmoves hbalanced.once (hunwrapped hreset)
  unfold entered
  rw [← hentries]
  unfold entries
  simp only [hreading]
  omega

/-- Over every run of a new synchronizer in which calls other than
packets are made while none is in progress and no counter wraps: with no
send under way the books balance, and every packet that decodes on an
initialized synchronizer's own radio is entered once, in its own moment,
and nothing else ever is. -/
theorem statistics_conserved (moments : List ClockMoment)
    (hsequential : Observed.Along step Sequential {} moments)
    (hunwrapped : Observed.Along step Unwrapped {} moments) :
    (let c := Observed.run step {} moments
     c.sends = [] →
      c.reading .requestsAttempted + c.reading .requestsReceived
          = c.reading .requestsSent + c.reading .responsesSent + c.reading .sendFailures
        ∧ c.reading .responsesReceived
          = c.reading .samplesAccepted + c.reading .samplesRejected
        ∧ c.reading .timestampFallbacks
          ≤ c.reading .requestsReceived + c.reading .responsesReceived)
      ∧ ∀ past moment later, moments = past ++ moment :: later →
        moment ≠ .resetStatistics →
        ((Observed.run step {} past).step moment).entered
          = (Observed.run step {} past).entered
            + if (Observed.run step {} past).Handles moment then 1 else 0 := by
  constructor
  · intro c hidle
    have hconserved : c.Conserved := by
      refine Observed.invariant_along (P := Conserved)
        (fun c moment hc h => h.step hc.1 hc.2) ⟨rfl, rfl, Nat.le_refl _⟩
        (Observed.along_and hsequential hunwrapped)
    refine ⟨?_, hconserved.samples, hconserved.fallbacks⟩
    have := hconserved.sends
    rwa [hidle] at this
  · intro past moment later hmoments hreset
    rw [hmoments, Observed.along_append] at hunwrapped
    exact entered_step hreset hunwrapped.2.1

section Nested

private def bothConfig : RadioClockSynchronizationConfig :=
  { mode := .clientAndReference, referencePeer := RadioAddress.fromBytes [2] 1 }

private def bothInitialReads : InitializeReads :=
  { capabilities := { maximumPayloadBytes := 64, addressBytes := 1 }
    localAddress := RadioAddress.fromBytes [1] 1
    subscribed := true }

private def bothReads : RequestReads :=
  { isStarted := true
    localAddress := RadioAddress.fromBytes [1] 1
    timestamp := 0
    monotonic := 6
    sent := .accepted }

/-- The request the peer makes of its own. -/
private def peerRequest : RadioPacketView :=
  { payload := encodeRequest 9 0 (RadioAddress.fromBytes [2] 1) }

private def peerReads : ReceiveReads :=
  { addressBytes := 1, timestamp := 0, monotonic := 0, transmitTimestamp := 0
    sent := .accepted, accepted := true }

/-- The peer's request comes in while a request is being sent, and is
answered in there. -/
private def nestedMoments : List ClockMoment :=
  [.initializeWith bothConfig bothInitialReads, .requestSynchronization bothReads,
    .onRadioPacketReceived peerRequest peerReads, .sent .accepted, .sent .accepted]

theorem statistics_conserved_nested :
    let c := Observed.run step {} nestedMoments
    c.reading .requestsAttempted + c.reading .requestsReceived
          = c.reading .requestsSent + c.reading .responsesSent + c.reading .sendFailures
        ∧ c.reading .responsesReceived
          = c.reading .samplesAccepted + c.reading .samplesRejected
        ∧ c.reading .timestampFallbacks
          ≤ c.reading .requestsReceived + c.reading .responsesReceived := by
  refine (statistics_conserved nestedMoments ?_ ?_).1 rfl
  · exact ⟨rfl, rfl, trivial, trivial, trivial, trivial⟩
  · refine ⟨?_, ?_, ?_, ?_, ?_, trivial⟩
    all_goals
      intro _ k
      cases k <;> decide

end Nested

end ClockStack

end EspressioRadio
