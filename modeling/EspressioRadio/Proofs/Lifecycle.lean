/-
What lifecycle observers are told, against what the transport is.

`Stop` notifies when it leaves the started state. `Start` notifies
whenever every radio starts, also from the started state, and clears the
flag in silence when a radio fails a later `Start`. So the notifications
describe the transitions (`Described`) as long as every `Start` finds
the transport stopped (`Described.step`), and in no run in which one
does not (`start_when_started`).
-/
import EspressioRadio.Proofs.Invariant
import Mathlib.Data.List.Chain

namespace EspressioRadio

variable {b : Bounds} {ρ : Type}

-- ======================================================= notifications

/-- What an `IRadioTransportLifecycleObserver` is told: its two calls. -/
inductive LifecycleNotification where
  | started
  | stopped
  deriving DecidableEq, Repr

def Event.lifecycle? : Event ρ → Option LifecycleNotification
  | .started => some .started
  | .stopped => some .stopped
  | _ => none

/-- What a lifecycle observer sees of these events. -/
def lifecycleNotifications (events : List (Event ρ)) : List LifecycleNotification :=
  events.filterMap Event.lifecycle?

@[simp] theorem lifecycleNotifications_nil :
    lifecycleNotifications ([] : List (Event ρ)) = [] := rfl

@[simp] theorem lifecycleNotifications_append (xs ys : List (Event ρ)) :
    lifecycleNotifications (xs ++ ys)
      = lifecycleNotifications xs ++ lifecycleNotifications ys :=
  List.filterMap_append

@[simp] theorem lifecycleNotifications_cons (e : Event ρ) (events : List (Event ρ)) :
    lifecycleNotifications (e :: events)
      = e.lifecycle?.toList ++ lifecycleNotifications events := by
  cases h : e.lifecycle? <;> simp [lifecycleNotifications, h]

/-- Events an observer of the lifecycle does not see. -/
theorem lifecycleNotifications_map {α : Type} {f : α → Event ρ}
    (hf : ∀ x, (f x).lifecycle? = none) (xs : List α) :
    lifecycleNotifications (xs.map f) = [] := by
  induction xs with
  | nil => rfl
  | cons x xs ih => simp [hf, ih]

namespace RadioTransport

variable {t t' : RadioTransport b ρ} {seen : List LifecycleNotification}

/-- The notifications so far describe the transport: they alternate,
`Started` comes first, and the last is `Started` exactly when the
transport is started. -/
structure Described (t : RadioTransport b ρ) (seen : List LifecycleNotification) :
    Prop where
  alternate : seen.IsChain (· ≠ ·)
  begins : ∀ first ∈ seen.head?, first = .started
  last_iff : seen.getLast? = some .started ↔ t.started = true

/-- A new transport has told nobody anything, and is not started. -/
theorem described_create (localNode : RadioNodeId) (defaultHopLimit : UInt8) :
    (create localNode defaultHopLimit : RadioTransport b ρ).Described [] where
  alternate := List.IsChain.nil
  begins := by simp
  last_iff := by simp [create]

/-- One more notification, other than the last one and in keeping with the
state it leaves, describes that state. -/
private theorem Described.notify (hd : t.Described seen) {next : LifecycleNotification}
    (hother : seen.getLast? ≠ some next) (hfirst : seen = [] → next = .started)
    (hflag : next = .started ↔ t'.started = true) : t'.Described (seen ++ [next]) where
  alternate := by
    refine hd.alternate.append (List.isChain_singleton next) fun last hlast first hf => ?_
    simp only [List.head?_cons, Option.mem_def, Option.some.injEq] at hf hlast
    rintro rfl
    exact hother (hf ▸ hlast)
  begins := by
    intro first hf
    cases seen with
    | nil =>
        simp only [List.nil_append, List.head?_cons, Option.mem_def,
          Option.some.injEq] at hf
        exact hf ▸ hfirst rfl
    | cons other rest => exact hd.begins first (by simpa using hf)
  last_iff := by simpa using hflag

theorem Described.start (hd : t.Described seen) (hstopped : t.started = false)
    (hstarted : t'.started = true) : t'.Described (seen ++ [.started]) := by
  refine hd.notify (fun hlast => ?_) (fun _ => rfl) (by simp [hstarted])
  have := hd.last_iff.mp hlast
  simp [hstopped] at this

theorem Described.stop (hd : t.Described seen) (hstarted : t.started = true)
    (hstopped : t'.started = false) : t'.Described (seen ++ [.stopped]) := by
  have hlast := hd.last_iff.mpr hstarted
  refine hd.notify (by simp [hlast]) (fun hnil => ?_) (by simp [hstopped])
  simp [hnil] at hlast

/-- With the started flag where it was, and nothing told, the notifications
still describe the state. -/
theorem Described.quiet (hd : t.Described seen) (hflag : t'.started = t.started) :
    t'.Described seen where
  alternate := hd.alternate
  begins := hd.begins
  last_iff := by rw [hflag]; exact hd.last_iff

-- ============================================================ one call

@[simp] theorem start_started (radios : Radios ρ) :
    (t.start radios).1.started = (t.start radios).2.1 := rfl

private theorem dispatch_notifications (t : RadioTransport b ρ) (radios : Radios ρ)
    (slot : ReassemblyRecord) :
    lifecycleNotifications (t.dispatch radios slot) = [] := by
  unfold dispatch
  split
  · split <;> rfl
  · split
    · dsimp only
      rw [lifecycleNotifications_append, lifecycleNotifications_map (fun _ => rfl)]
      rfl
    · rfl

private theorem processInboundPacket_notifications (t : RadioTransport b ρ)
    (radios : Radios ρ) (packet : List UInt8) :
    lifecycleNotifications (t.processInboundPacket radios packet).2 = [] := by
  unfold processInboundPacket complete
  split
  · rfl
  · split
    · dsimp only
      split
      · rfl
      · exact dispatch_notifications ..
    · rfl

variable [DecidableEq ρ]

/-- What a lifecycle observer sees of one call. -/
def notifications (t : RadioTransport b ρ) (input : Input ρ) :
    List LifecycleNotification :=
  lifecycleNotifications (t.effects input)

/-- `Start` and `Stop` apart, a call moves neither the flag nor the
observers. -/
theorem perform_silent {input : Input ρ} (hstart : input.call ≠ .start)
    (hstop : input.call ≠ .stop) :
    (t.after input).started = t.started
      ∧ t.notifications input = [] := by
  obtain ⟨radios, call⟩ := input
  unfold after notifications effects perform
  cases call with
  | processInboundPacket packet =>
      obtain ⟨slots, recent, cursor, touch, hmoved⟩ :=
        t.processInboundPacket_moves radios packet
      refine ⟨?_, processInboundPacket_notifications t radios packet⟩
      simp only [hmoved]
  | send destination channel payload =>
      dsimp only [send]
      split
      · exact ⟨rfl, rfl⟩
      · split
        · exact ⟨rfl, rfl⟩
        · refine ⟨rfl, ?_⟩
          rw [lifecycleNotifications_append, lifecycleNotifications_map (fun _ => rfl)]
          rfl
  | start => exact absurd rfl hstart
  | stop => exact absurd rfl hstop
  | addInterface radio defaultRoute =>
      dsimp only [addInterface]
      split
      · exact ⟨rfl, rfl⟩
      · split <;> exact ⟨rfl, rfl⟩
  | setRoute destination radio nextHop =>
      dsimp only [setRoute]
      split
      · exact ⟨rfl, rfl⟩
      · split
        · exact ⟨rfl, rfl⟩
        · split <;> exact ⟨rfl, rfl⟩
  | removeRoute destination =>
      dsimp only [removeRoute]
      split <;> exact ⟨rfl, rfl⟩
  | setReceiver present => exact ⟨rfl, rfl⟩

theorem after_start {input : Input ρ} (hstart : input.call = .start) :
    t.after input = (t.start input.radios).1 := by
  unfold after perform
  rw [hstart]

theorem after_stop {input : Input ρ} (hstop : input.call = .stop) :
    t.after input = t.stop.1 := by
  unfold after perform
  rw [hstop]

/-- `Start` tells the observers of every success, whatever the state before. -/
theorem notifications_start {input : Input ρ} (hstart : input.call = .start) :
    t.notifications input
      = if (t.start input.radios).2.1 then [.started] else [] := by
  unfold notifications effects perform
  rw [hstart]
  show lifecycleNotifications (t.radioList.map .radioStart
    ++ if (t.start input.radios).2.1 then [.started] else []) = _
  rw [lifecycleNotifications_append, lifecycleNotifications_map (fun _ => rfl)]
  split <;> rfl

/-- `Stop` tells the observers only of leaving the started state. -/
theorem notifications_stop {input : Input ρ} (hstop : input.call = .stop) :
    t.notifications input = if t.started then [.stopped] else [] := by
  unfold notifications effects perform
  rw [hstop]
  dsimp only [stop]
  rw [lifecycleNotifications_append, lifecycleNotifications_map (fun _ => rfl)]
  split <;> rfl

/-- A `Start` that finds the transport stopped, and every other call,
keeps the notifications a description. -/
theorem Described.step (hd : t.Described seen) {input : Input ρ}
    (hfresh : input.call = .start → t.started = false) :
    (t.after input).Described (seen ++ t.notifications input) := by
  by_cases hstart : input.call = .start
  · rw [after_start hstart, notifications_start hstart]
    cases hok : (t.start input.radios).2.1 with
    | true => exact hd.start (hfresh hstart) (by rw [start_started, hok])
    | false =>
        simp only [Bool.false_eq_true, if_false, List.append_nil]
        exact hd.quiet (by rw [start_started, hok, hfresh hstart])
  · by_cases hstop : input.call = .stop
    · rw [after_stop hstop, notifications_stop hstop]
      cases hwas : t.started with
      | true => exact hd.stop hwas rfl
      | false =>
          simp only [Bool.false_eq_true, if_false, List.append_nil]
          exact hd.quiet hwas.symm
    · obtain ⟨hflag, hsilent⟩ := perform_silent hstart hstop
      rw [hsilent, List.append_nil]
      exact hd.quiet hflag

/-- A `Start` of a started transport breaks the description: a second
`Started` if it succeeds, a flag cleared in silence if it does not. -/
theorem start_when_started (hd : t.Described seen) (hwas : t.started = true)
    {input : Input ρ} (hstart : input.call = .start) :
    ¬ (t.after input).Described (seen ++ t.notifications input) := by
  intro hafter
  have hlast := hd.last_iff.mpr hwas
  rw [after_start hstart, notifications_start hstart] at hafter
  cases hok : (t.start input.radios).2.1 with
  | true =>
      simp only [hok, if_true] at hafter
      have := (List.isChain_append.mp hafter.alternate).2.2
      exact this .started hlast .started rfl rfl
  | false =>
      simp only [hok, Bool.false_eq_true, if_false, List.append_nil] at hafter
      have := hafter.last_iff.mp hlast
      rw [start_started, hok] at this
      cases this

-- ================================================================ runs

/-- The notifications describe the transport after every call of a run
exactly when no `Start` of it finds the transport started. -/
theorem lifecycle_described_iff (localNode : RadioNodeId) (defaultHopLimit : UInt8)
    (inputs : List (Input ρ)) :
    (∀ past, past <+: inputs →
        (Observed.run (after (b := b)) (create localNode defaultHopLimit) past).Described
          (Observed.trace (after (b := b)) notifications
            (create localNode defaultHopLimit) past))
      ↔ Observed.Along (after (b := b))
          (fun t input => input.call = .start → t.started = false)
          (create localNode defaultHopLimit) inputs := by
  refine Observed.history_iff_along (R := Described) (h := []) (fun t seen input hd => ?_)
    (described_create localNode defaultHopLimit)
  constructor
  · intro hafter hstart
    by_contra hwas
    exact start_when_started hd (by simpa using hwas) hstart hafter
  · exact hd.step

section Restarts

/-- Whether the radio starts is up to each call. -/
private def lifecycleRadios (starts : Bool) : Radios Unit where
  start := fun _ => starts
  isStarted := fun _ => starts
  capabilities := fun _ => {}
  send := fun _ _ => .accepted

/-- One radio is added, started with success, and started once more with
this outcome. -/
def startedTwice (second : Bool) : List (Input Unit) :=
  [⟨lifecycleRadios true, .addInterface () true⟩, ⟨lifecycleRadios true, .start⟩,
    ⟨lifecycleRadios second, .start⟩]

/-- The second `Start` succeeds: observers see two `Started` in a row.
It fails: the transport is not started and the last notification is
`Started`. -/
theorem startedTwice_not_described :
    (¬ (Observed.run (after (b := .defaults)) (create 1 4) (startedTwice true)).Described
        (Observed.trace (after (b := .defaults)) notifications (create 1 4)
          (startedTwice true)))
      ∧ ¬ (Observed.run (after (b := .defaults)) (create 1 4) (startedTwice false)).Described
        (Observed.trace (after (b := .defaults)) notifications (create 1 4)
          (startedTwice false)) := by
  refine ⟨fun hd => ?_, fun hd => ?_⟩
  · have hseen : Observed.trace (after (b := .defaults)) notifications (create 1 4)
        (startedTwice true) = [.started, .started] := rfl
    have := hd.alternate
    simp [hseen] at this
  · have hlast : (Observed.trace (after (b := .defaults)) notifications (create 1 4)
        (startedTwice false)).getLast? = some .started := rfl
    have hflag := hd.last_iff.mp hlast
    cases hflag

end Restarts

end RadioTransport

end EspressioRadio
