/-
The rate of automatic requests.

A request records its reading of the monotonic clock just before its
frame goes to `radio.Send`, and no failing send takes it back. So
between `Initialize` and the next `Initialize` or `Shutdown` the member
is the reading of the last request that reached `radio.Send`, or the
zero `Initialize` stored (`Recorded`), and zero stays out of the way as
long as the clock does not read zero. With readings that do not decrease
the unsigned difference `Update` takes is the time gone by.

# Readings

`readings` lists what `Update` and the requests read, in order: the
hypotheses of `update_rate_limited` are about those. The readings taken
for packets do not matter.
-/
import EspressioRadio.Proofs.Clock.Nested

namespace EspressioRadio

namespace RadioClockSynchronizer

/-- The reading a request records, if it gets as far as its send. -/
def requestReading (s : RadioClockSynchronizer) (reads : RequestReads) : List UInt64 :=
  match (s.beginRequest reads).2 with
  | .ok _ => [reads.monotonic]
  | .error _ => []

/-- `Update` gets past its first checks and reads the monotonic clock. -/
def readsClock (s : RadioClockSynchronizer) : Bool :=
  s.initialized && isClientMode s.config.mode
    && s.config.synchronizationIntervalMilliseconds != 0

/-- `SynchronizationIntervalMilliseconds` in nanoseconds does not overflow
64 bits. -/
theorem interval_toNat (milliseconds : UInt32) :
    (milliseconds.toUInt64 * 1000000).toNat = milliseconds.toNat * 1000000 := by
  have hlt := milliseconds.toNat_lt
  rw [UInt64.toNat_mul, UInt32.toNat_toUInt64]
  exact Nat.mod_eq_of_lt (by simp; omega)

/-- Where an update is due and one was recorded before, the interval has
gone by. -/
theorem isUpdateDue_elapsed {s : RadioClockSynchronizer} {now : UInt64}
    (hdue : s.isUpdateDue now = true) (hlast : s.lastRequestMonotonicNanoseconds ≠ 0)
    (hle : s.lastRequestMonotonicNanoseconds ≤ now) :
    s.lastRequestMonotonicNanoseconds.toNat
        + s.config.synchronizationIntervalMilliseconds.toNat * 1000000
      ≤ now.toNat := by
  simp only [isUpdateDue, Bool.and_eq_true, Bool.or_eq_true, beq_iff_eq, hlast, false_or,
    decide_eq_true_eq] at hdue
  have helapsed := UInt64.le_iff_toNat_le.mp hdue.2
  have hle' := UInt64.le_iff_toNat_le.mp hle
  rw [interval_toNat, UInt64.toNat_sub_of_le _ _ hle] at helapsed
  omega

theorem isUpdateDue_readsClock {s : RadioClockSynchronizer} {now : UInt64}
    (hdue : s.isUpdateDue now = true) : s.readsClock = true := by
  simp only [isUpdateDue, readsClock, Bool.and_eq_true] at hdue ⊢
  exact hdue.1

/-- A successful `Initialize` leaves the configuration it was given and no
request recorded. -/
theorem initializeWith_ok {s : RadioClockSynchronizer}
    {config : RadioClockSynchronizationConfig} {reads : InitializeReads}
    (h : (s.initializeWith config reads).2 = true) :
    (s.initializeWith config reads).1.config = config
      ∧ (s.initializeWith config reads).1.lastRequestMonotonicNanoseconds = 0 := by
  unfold initializeWith at h ⊢
  dsimp only at h ⊢
  split at h
  · cases h
  · next hpayload =>
    rw [if_neg hpayload]
    split at h
    · cases h
    · next htimestamp =>
      rw [if_neg htimestamp]
      split at h
      · cases h
      · next haddresses =>
        rw [if_neg haddresses]
        split at h
        · cases h
        · next hsubscribed =>
          rw [if_neg hsubscribed]
          exact ⟨rfl, rfl⟩

end RadioClockSynchronizer

namespace ClockStack

open RadioClockSynchronizer

variable {c : ClockStack}

/-- The reading a moment records as that of the last request, if it makes
one. -/
def recorded (c : ClockStack) : ClockMoment → List UInt64
  | .requestSynchronization reads => c.synchronizer.requestReading reads
  | .update now reads =>
      if c.synchronizer.isUpdateDue now then c.synchronizer.requestReading reads else []
  | _ => []

/-- What `Update` and the requests read off the clock. -/
def readings (c : ClockStack) : ClockMoment → List UInt64
  | .update now reads =>
      (if c.synchronizer.readsClock then [now] else []) ++ c.recorded (.update now reads)
  | moment => c.recorded moment

theorem recorded_sublist (c : ClockStack) (moment : ClockMoment) :
    (c.recorded moment).Sublist (c.readings moment) := by
  cases moment with
  | update now reads => exact List.sublist_append_right ..
  | _ => exact List.Sublist.refl _

/-- The member holds the last reading recorded, or zero. -/
structure Recorded (config : RadioClockSynchronizationConfig) (c : ClockStack)
    (log : List UInt64) : Prop where
  config_eq : c.synchronizer.config = config
  lastRequest : c.synchronizer.lastRequestMonotonicNanoseconds = log.getLast?.getD 0

variable {config : RadioClockSynchronizationConfig} {log : List UInt64}

/-- A call that keeps the setup and the last reading records nothing. -/
theorem Recorded.kept (h : Recorded config c log) {c' : ClockStack}
    (hkept : Kept c.synchronizer c'.synchronizer) : Recorded config c' (log ++ []) where
  config_eq := hkept.config.trans h.config_eq
  lastRequest := by rw [List.append_nil, hkept.lastRequest, h.lastRequest]

/-- A request records its reading, or is refused and records none. -/
theorem Recorded.request (h : Recorded config c log) (reads : RequestReads) :
    Recorded config (c.request reads).1 (log ++ c.synchronizer.requestReading reads) := by
  unfold ClockStack.request requestReading
  rcases c.synchronizer.beginRequest_recorded reads with ⟨result, hr⟩ |
    ⟨s', request, hr, hconfig, -, hlast, -⟩
  · rw [hr]
    exact h.kept ((count_kept _).trans (count_kept _))
  · rw [hr]
    refine ⟨hconfig.trans h.config_eq, ?_⟩
    simpa using hlast

theorem Recorded.step (h : Recorded config c log) {moment : ClockMoment}
    (hservice : moment.InService) :
    Recorded config (c.step moment) (log ++ c.recorded moment) := by
  cases moment with
  | initializeWith config reads => exact hservice.elim
  | shutdown => exact hservice.elim
  | resetStatistics => exact h.kept ⟨rfl, rfl, rfl⟩
  | requestSynchronization reads => exact h.request reads
  | update now reads =>
      unfold ClockStack.step perform recorded
      dsimp only
      split
      · exact h.request reads
      · exact h.kept (Kept.refl _)
  | onRadioPacketReceived packet reads =>
      refine h.kept ?_
      show Kept c.synchronizer (c.receive packet reads).1.synchronizer
      rw [receive_synchronizer]
      exact beginReceive_kept packet reads
  | sent result => exact h.kept (sent_kept result)

/-- The moment makes a request that gets as far as `radio.Send`. -/
def Sends (c : ClockStack) (moment : ClockMoment) : Prop :=
  ∃ request, (c.step moment).sends = .request request :: c.sends

/-- An `Update` that gets as far as `radio.Send` was due. -/
theorem Sends.isUpdateDue {now : UInt64} {reads : RequestReads}
    (h : c.Sends (.update now reads)) : c.synchronizer.isUpdateDue now = true := by
  obtain ⟨request, h⟩ := h
  by_contra hno
  have hsame : c.step (.update now reads) = c := by
    unfold ClockStack.step perform
    dsimp only
    rw [if_neg hno]
  rw [hsame] at h
  simpa using congrArg List.length h

/-- A synchronizer just after `Initialize`, with nothing under way. -/
def initialized (s : RadioClockSynchronizer) (config : RadioClockSynchronizationConfig)
    (reads : InitializeReads) : ClockStack :=
  { synchronizer := (s.initializeWith config reads).1 }

/-- Between a successful `Initialize` and the next `Initialize` or
`Shutdown`, with readings that are positive and do not decrease: an
`Update` that reaches `radio.Send` has a nonzero interval and a client
mode, and took its reading at least the interval after the one recorded
by the last request that reached `radio.Send`, whatever the sends came
to and whatever came in meanwhile. -/
theorem update_rate_limited (s : RadioClockSynchronizer)
    (config : RadioClockSynchronizationConfig) (initialReads : InitializeReads)
    (hinitialized : (s.initializeWith config initialReads).2 = true)
    (moments : List ClockMoment) (hservice : ∀ moment ∈ moments, moment.InService)
    (hpositive : ∀ reading ∈ Observed.trace step readings
      (initialized s config initialReads) moments, 0 < reading)
    (hmonotone : (Observed.trace step readings
      (initialized s config initialReads) moments).Pairwise (· ≤ ·))
    (past later : List ClockMoment) (now : UInt64) (reads : RequestReads)
    (hmoments : moments = past ++ .update now reads :: later)
    (hsends : (Observed.run step (initialized s config initialReads) past).Sends
      (.update now reads)) :
    config.synchronizationIntervalMilliseconds ≠ 0
      ∧ isClientMode config.mode = true
      ∧ ∀ last, (Observed.trace step recorded
          (initialized s config initialReads) past).getLast? = some last →
        last.toNat + config.synchronizationIntervalMilliseconds.toNat * 1000000
          ≤ now.toNat := by
  generalize hstart : initialized s config initialReads = start at *
  have hnew : Recorded config start [] := by
    obtain ⟨hconfig, hlast⟩ := initializeWith_ok hinitialized
    rw [← hstart]
    exact ⟨hconfig, hlast⟩
  have hpast : ∀ moment ∈ past, moment.InService := fun moment hmoment =>
    hservice moment (by rw [hmoments]; exact List.mem_append_left _ hmoment)
  -- the member is the reading recorded last, for nothing else writes it in service
  have hrecorded : Recorded config (Observed.run step start past)
      ([] ++ Observed.trace step recorded start past) :=
    Observed.history_along (R := Recorded config)
      (fun c log moment hc h => Recorded.step h hc) hnew
      (Observed.along_of_forall hpast start)
  rw [List.nil_append] at hrecorded
  have hdue := hsends.isUpdateDue
  have hreads := isUpdateDue_readsClock hdue
  refine ⟨?_, ?_, fun last hlast => ?_⟩
  · simp only [readsClock, hrecorded.config_eq, Bool.and_eq_true] at hreads
    simpa using hreads.2
  · simp only [readsClock, hrecorded.config_eq, Bool.and_eq_true] at hreads
    exact hreads.1.2
  · -- the recorded reading is among those before `now`
    have hmem : last ∈ Observed.trace step readings start past :=
      (Observed.trace_sublist (P := fun _ => True) (fun _ _ _ => trivial)
        (fun c moment _ => recorded_sublist c moment) trivial past).subset
        (List.mem_of_getLast? hlast)
    rw [hmoments, Observed.trace_append, Observed.trace_cons] at hpositive hmonotone
    have hnow : now ∈ (Observed.run step start past).readings (.update now reads) := by
      unfold readings
      simp [hreads]
    have hle := (List.pairwise_append.mp hmonotone).2.2 last hmem now
      (List.mem_append_left _ hnow)
    have hpos := hpositive last (List.mem_append_left _ hmem)
    have hmember : (Observed.run step start past).synchronizer.lastRequestMonotonicNanoseconds
        = last := by
      rw [hrecorded.lastRequest, hlast]
      rfl
    have helapsed := isUpdateDue_elapsed hdue
      (by rw [hmember]; exact UInt64.pos_iff_ne_zero.mp hpos)
      (by rw [hmember]; exact hle)
    rwa [hmember, hrecorded.config_eq] at helapsed

section Retried

private def rateConfig : RadioClockSynchronizationConfig :=
  { mode := .client, referencePeer := RadioAddress.fromBytes [2] 1 }

private def rateInitialReads : InitializeReads :=
  { capabilities := { maximumPayloadBytes := 64, addressBytes := 1 }
    localAddress := RadioAddress.fromBytes [1] 1
    subscribed := true }

private def rateReads (monotonic : UInt64) : RequestReads :=
  { isStarted := true
    localAddress := RadioAddress.fromBytes [1] 1
    timestamp := 0
    monotonic := monotonic
    sent := { status := .busy } }

/-- A request at reading six, which the radio is too busy for. -/
private def busyMoments : List ClockMoment :=
  [.update 5 (rateReads 6), .sent { status := .busy }]

/-- The next request is made a second later, although the radio was too busy
for the first. -/
theorem update_rate_limited_busy :
    rateConfig.synchronizationIntervalMilliseconds ≠ 0
      ∧ isClientMode rateConfig.mode = true
      ∧ ∀ last, (Observed.trace step recorded
          (initialized {} rateConfig rateInitialReads) busyMoments).getLast? = some last →
        last.toNat + rateConfig.synchronizationIntervalMilliseconds.toNat * 1000000
          ≤ (1000000006 : UInt64).toNat := by
  have hreadings : Observed.trace step readings
      (initialized {} rateConfig rateInitialReads)
        (busyMoments ++ [.update 1000000006 (rateReads 1000000007)])
      = [5, 6, 1000000006, 1000000007] := rfl
  refine update_rate_limited {} rateConfig rateInitialReads rfl
    (busyMoments ++ [.update 1000000006 (rateReads 1000000007)]) ?_ ?_ ?_ busyMoments []
    1000000006 (rateReads 1000000007) rfl ⟨_, rfl⟩
  · intro moment hmoment
    simp only [busyMoments, List.cons_append, List.nil_append, List.mem_cons,
      List.not_mem_nil, or_false] at hmoment
    rcases hmoment with rfl | rfl | rfl <;> trivial
  · rw [hreadings]
    simp
  · rw [hreadings]
    simp

end Retried

end ClockStack

end EspressioRadio
