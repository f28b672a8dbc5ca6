/-
How old the last request can get.

`update_rate_limited` keeps the automatic requests apart; this is the
other side. An `Update` that finds the last request an interval old makes
another, and one that finds none makes the first. So no `Update` that is
in a position to send leaves the last request as old as that
(`Serving.fresh`), and polled often enough the synchronizer is never
silent for longer than the interval and one poll.
-/
import EspressioRadio.Proofs.Clock.Rate

namespace EspressioRadio

namespace RadioClockSynchronizer

variable {s : RadioClockSynchronizer}

/-- What a successful `Initialize` has checked of a client. -/
theorem initializeWith_client {config : RadioClockSynchronizationConfig}
    {reads : InitializeReads} (h : (s.initializeWith config reads).2 = true)
    (hclient : isClientMode config.mode = true) :
    (s.initializeWith config reads).1.initialized = true
      ∧ config.referencePeer.isValid = true := by
  unfold initializeWith at h ⊢
  dsimp only at h ⊢
  split at h
  · cases h
  · next hpayload =>
    rw [if_neg hpayload]
    split at h
    · cases h
    · next htimestamp =>
      rw [if_neg htimestamp]
      split at h
      · cases h
      · next haddresses =>
        rw [if_neg haddresses]
        split at h
        · cases h
        · next hsubscribed =>
          rw [if_neg hsubscribed]
          refine ⟨rfl, ?_⟩
          simp only [hclient, clientAddressesFit, Bool.true_and, Bool.not_eq_true',
            Bool.not_eq_false, Bool.and_eq_true] at haddresses
          exact haddresses.1.1

/-- The radio is started and knows its address. -/
structure RequestReads.Ready (reads : RequestReads) : Prop where
  isStarted : reads.isStarted = true
  localAddress : reads.localAddress.isValid = true

/-- With the radio ready, an initialized client that knows its peer gets as
far as its send, and records the reading before it. -/
theorem requestReading_ready {reads : RequestReads} (hready : RequestReads.Ready reads)
    (hinitialized : s.initialized = true) (hclient : isClientMode s.config.mode = true)
    (hpeer : s.config.referencePeer.isValid = true) :
    s.requestReading reads = [reads.monotonic] := by
  have hstarted : ¬(!s.initialized || !reads.isStarted) = true := by
    simp [hinitialized, hready.isStarted]
  have hvalid : ¬(!isClientMode s.config.mode || !s.config.referencePeer.isValid
      || !reads.localAddress.isValid) = true := by
    simp [hclient, hpeer, hready.localAddress]
  have hbegin : ∃ s' request, s.beginRequest reads = (s', .ok request) := by
    unfold beginRequest
    dsimp only
    split
    · next h => exact absurd h hstarted
    · split
      · next h => exact absurd h hvalid
      · exact ⟨_, _, rfl⟩
  obtain ⟨s', request, hbegin⟩ := hbegin
  unfold requestReading
  rw [hbegin]

/-- Where no update is due at a client, one was recorded less than the
interval ago. -/
theorem not_isUpdateDue {now : UInt64} (hdue : s.isUpdateDue now = false)
    (hreads : s.readsClock = true) (hle : s.lastRequestMonotonicNanoseconds ≤ now) :
    s.lastRequestMonotonicNanoseconds ≠ 0
      ∧ now.toNat < s.lastRequestMonotonicNanoseconds.toNat
        + s.config.synchronizationIntervalMilliseconds.toNat * 1000000 := by
  unfold readsClock at hreads
  unfold isUpdateDue at hdue
  dsimp only at hdue
  rw [hreads, Bool.true_and, Bool.or_eq_false_iff] at hdue
  obtain ⟨hnone, hshort⟩ := hdue
  refine ⟨by simpa using hnone, ?_⟩
  have hnot := of_decide_eq_false hshort
  have hlt := UInt64.lt_iff_toNat_lt.mp (UInt64.not_le.mp hnot)
  have hle' := UInt64.le_iff_toNat_le.mp hle
  rw [interval_toNat, UInt64.toNat_sub_of_le _ _ hle] at hlt
  omega

end RadioClockSynchronizer

namespace ClockStack

open RadioClockSynchronizer

variable {c : ClockStack} {config : RadioClockSynchronizationConfig} {log : List UInt64}

/-- No moment in service initializes the synchronizer or shuts it down. -/
theorem step_initialized {moment : ClockMoment} (hservice : moment.InService) :
    (c.step moment).synchronizer.initialized = c.synchronizer.initialized := by
  have hrequest : ∀ reads, (c.request reads).1.synchronizer.initialized
      = c.synchronizer.initialized := by
    intro reads
    unfold ClockStack.request
    rcases c.synchronizer.beginRequest_recorded reads with ⟨result, hr⟩ |
      ⟨s', request, hr, -, hinitialized, -⟩
    · rw [hr]
      rfl
    · rw [hr]
      exact hinitialized
  cases moment with
  | initializeWith config reads => exact hservice.elim
  | shutdown => exact hservice.elim
  | resetStatistics => rfl
  | requestSynchronization reads => exact hrequest reads
  | update now reads =>
      unfold ClockStack.step perform
      dsimp only
      split
      · exact hrequest reads
      · rfl
  | onRadioPacketReceived packet reads =>
      show (c.receive packet reads).1.synchronizer.initialized = _
      rw [receive_synchronizer]
      exact (beginReceive_kept packet reads).initialized
  | sent result => exact (sent_kept result).initialized

/-- An initialized synchronizer, with the readings it has recorded since. -/
structure Serving (config : RadioClockSynchronizationConfig) (c : ClockStack)
    (log : List UInt64) : Prop extends Recorded config c log where
  initialized : c.synchronizer.initialized = true

theorem Serving.step (h : Serving config c log) {moment : ClockMoment}
    (hservice : moment.InService) :
    Serving config (c.step moment) (log ++ c.recorded moment) where
  toRecorded := h.toRecorded.step hservice
  initialized := (step_initialized hservice).trans h.initialized

/-- What an `Update` leaves: the last request is its own, or less than the
interval old. -/
theorem Serving.fresh (h : Serving config c log)
    (hclient : isClientMode config.mode = true)
    (hpeer : config.referencePeer.isValid = true)
    (hinterval : config.synchronizationIntervalMilliseconds ≠ 0) {now : UInt64}
    {reads : RequestReads} (hready : RequestReads.Ready reads)
    (hmonotone : (log ++ c.readings (.update now reads)).Pairwise (· ≤ ·)) :
    ∃ last, (log ++ c.recorded (.update now reads)).getLast? = some last
      ∧ now.toNat < last.toNat
        + config.synchronizationIntervalMilliseconds.toNat * 1000000 := by
  have hreads : c.synchronizer.readsClock = true := by
    unfold readsClock
    rw [h.initialized, h.config_eq, hclient]
    simpa using hinterval
  have hpositive : 0 < config.synchronizationIntervalMilliseconds.toNat := by
    rw [Nat.pos_iff_ne_zero]
    exact fun hzero => hinterval (UInt32.toNat_inj.mp hzero)
  have hreadings : c.readings (.update now reads)
    = now :: c.recorded (.update now reads) := by
    unfold readings
    dsimp only
    rw [if_pos hreads]
    rfl
  rw [hreadings] at hmonotone
  obtain ⟨-, hnow, hbefore⟩ := List.pairwise_append.mp hmonotone
  have hrecorded : c.recorded (.update now reads)
      = if c.synchronizer.isUpdateDue now then c.synchronizer.requestReading reads else [] :=
    rfl
  cases hdue : c.synchronizer.isUpdateDue now with
  | true =>
      have hreading : c.synchronizer.requestReading reads = [reads.monotonic] :=
        requestReading_ready hready h.initialized (h.config_eq ▸ hclient)
          (h.config_eq ▸ hpeer)
      rw [hdue, if_pos rfl, hreading] at hrecorded
      rw [hrecorded] at hnow ⊢
      refine ⟨reads.monotonic, List.getLast?_concat .., ?_⟩
      have hlater := List.rel_of_pairwise_cons hnow List.mem_cons_self
      have := UInt64.le_iff_toNat_le.mp hlater
      omega
  | false =>
      rw [hdue, if_neg (by simp)] at hrecorded
      rw [hrecorded, List.append_nil]
      have hlast := h.lastRequest
      cases hlog : log.getLast? with
      | none =>
          -- the member is still zero, so an update was due
          rw [hlog] at hlast
          have hle : c.synchronizer.lastRequestMonotonicNanoseconds ≤ now := by
            rw [hlast]
            exact UInt64.zero_le
          exact absurd hlast (not_isUpdateDue hdue hreads hle).1
      | some last =>
          rw [hlog] at hlast
          have hle : c.synchronizer.lastRequestMonotonicNanoseconds ≤ now := by
            rw [hlast]
            exact hbefore last (List.mem_of_getLast? hlog) now List.mem_cons_self
          have hshort := (not_isUpdateDue hdue hreads hle).2
          rw [hlast, h.config_eq] at hshort
          exact ⟨last, rfl, hshort⟩

theorem recorded_trace_sublist (c : ClockStack) (moments : List ClockMoment) :
    (Observed.trace step recorded c moments).Sublist
    (Observed.trace step readings c moments) :=
  Observed.trace_sublist (P := fun _ => True) (fun _ _ _ => trivial)
    (fun c moment _ => recorded_sublist c moment) trivial moments

/-- Between a successful `Initialize` of a client with an interval and the
next `Initialize` or `Shutdown`, with readings that do not decrease: an
`Update` at which the radio is ready leaves a request less than the
interval old, whatever came before; and the next `Update`, if at most
`gap` later, finds none older than the interval and the gap, whatever came
in between. -/
theorem update_keeps_cadence (s : RadioClockSynchronizer)
    (config : RadioClockSynchronizationConfig) (initialReads : InitializeReads)
    (hinitialized : (s.initializeWith config initialReads).2 = true)
    (hclient : isClientMode config.mode = true)
    (hinterval : config.synchronizationIntervalMilliseconds ≠ 0)
    (moments : List ClockMoment) (hservice : ∀ moment ∈ moments, moment.InService)
    (hmonotone : (Observed.trace step readings
      (initialized s config initialReads) moments).Pairwise (· ≤ ·))
    (past between later : List ClockMoment) (now next : UInt64)
    (reads nextReads : RequestReads)
    (hmoments : moments
      = past ++ .update now reads :: (between ++ .update next nextReads :: later))
    (hready : RequestReads.Ready reads) {gap : Nat}
    (hgap : next.toNat ≤ now.toNat + gap) :
    ∃ last, (Observed.trace step recorded (initialized s config initialReads)
          (past ++ .update now reads :: between)).getLast? = some last
      ∧ now.toNat < last.toNat
        + config.synchronizationIntervalMilliseconds.toNat * 1000000
      ∧ next.toNat < last.toNat
        + config.synchronizationIntervalMilliseconds.toNat * 1000000 + gap := by
  subst hmoments
  obtain ⟨hserving, hpeer⟩ := initializeWith_client hinitialized hclient
  obtain ⟨hconfig, hlast⟩ := initializeWith_ok hinitialized
  generalize hstart : initialized s config initialReads = start at *
  have hnew : Serving config start [] := by
    rw [← hstart]
    exact ⟨⟨hconfig, hlast⟩, hserving⟩
  have hpast := Observed.history_along (R := Serving config)
    (fun c log moment hmoment h => Serving.step h hmoment) hnew
    (Observed.along_of_forall
      (fun moment hmoment => hservice moment (List.mem_append_left _ hmoment)) start)
  rw [List.nil_append] at hpast
  rw [Observed.trace_append, Observed.trace_cons, Observed.trace_append] at hmonotone
  rw [Observed.trace_append, Observed.trace_cons, ← List.append_assoc]
  generalize Observed.run step start past = c at *
  have hsub := recorded_trace_sublist start past
  have hsub' := recorded_trace_sublist (c.step (.update now reads)) between
  obtain ⟨last, hlog, hfresh⟩ := hpast.fresh hclient hpeer hinterval hready
    (hmonotone.sublist (hsub.append (List.sublist_append_left _ _)))
  have hordered := hmonotone.sublist (hsub.append
    ((recorded_sublist c (.update now reads)).append
      (hsub'.trans (List.sublist_append_left _ _))))
  rw [← List.append_assoc] at hordered
  have hrequested : ∀ last' : UInt64, last.toNat ≤ last'.toNat →
      now.toNat < last'.toNat + config.synchronizationIntervalMilliseconds.toNat * 1000000
        ∧ next.toNat < last'.toNat
          + config.synchronizationIntervalMilliseconds.toNat * 1000000 + gap := by
    intro last' hle
    omega
  -- the last request after `between`: one made meanwhile, or the one `Update` left;
  -- either is no older than that
  cases hbetween : (Observed.trace step recorded
    (c.step (.update now reads)) between).getLast? with
  | none =>
      rw [List.getLast?_eq_none_iff.mp hbetween, List.append_nil]
      exact ⟨last, hlog, hrequested last (Nat.le_refl _)⟩
  | some last' =>
      have hle := (List.pairwise_append.mp hordered).2.2 last
        (List.mem_of_getLast? hlog) last'
        (List.mem_of_getLast? hbetween)
      refine ⟨last', ?_, hrequested last' (UInt64.le_iff_toNat_le.mp hle)⟩
      rw [List.getLast?_append, hbetween]
      rfl

section Polled

private def polledConfig : RadioClockSynchronizationConfig :=
  { mode := .client, referencePeer := RadioAddress.fromBytes [2] 1 }

private def polledInitialReads : InitializeReads :=
  { capabilities := { maximumPayloadBytes := 64, addressBytes := 1 }
    localAddress := RadioAddress.fromBytes [1] 1
    subscribed := true }

private def polledReads (monotonic : UInt64) : RequestReads :=
  { isStarted := true
    localAddress := RadioAddress.fromBytes [1] 1
    timestamp := 0
    monotonic := monotonic
    sent := { status := .busy } }

/-- Polled every 400 ms at an interval of a second, the radio busy at the
first request: at the second poll the last request is less than 1.4 s
old. -/
theorem update_keeps_cadence_polled :
    ∃ last, (Observed.trace step recorded (initialized {} polledConfig polledInitialReads)
          ([] ++ .update 5 (polledReads 6) :: [.sent { status := .busy }])).getLast?
            = some last
      ∧ (5 : UInt64).toNat < last.toNat
        + polledConfig.synchronizationIntervalMilliseconds.toNat * 1000000
      ∧ (400000005 : UInt64).toNat < last.toNat
        + polledConfig.synchronizationIntervalMilliseconds.toNat * 1000000 + 400000000 := by
  have hreadings : Observed.trace step readings
    (initialized {} polledConfig polledInitialReads)
      [.update 5 (polledReads 6), .sent { status := .busy },
        .update 400000005 (polledReads 400000006)] = [5, 6, 400000005] := rfl
  refine update_keeps_cadence {} polledConfig polledInitialReads rfl rfl (by decide)
    [.update 5 (polledReads 6), .sent { status := .busy },
      .update 400000005 (polledReads 400000006)] ?_ ?_ [] [.sent { status := .busy }] []
    5 400000005 (polledReads 6) (polledReads 400000006) rfl ⟨rfl, rfl⟩ (by decide)
  · intro moment hmoment
    simp only [List.mem_cons, List.not_mem_nil, or_false] at hmoment
    rcases hmoment with rfl | rfl | rfl <;> trivial
  · rw [hreadings]
    simp

end Polled

end ClockStack

end EspressioRadio
