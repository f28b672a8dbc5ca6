/-
Deterministic machines and what is observed along their runs.

A machine is a step function `step : σ → ι → σ`; an observation is any
function of the state before a step and the input of that step. The
same machine carries several observations: its real outputs, and ghost
ones that only a proof reads.

`history_along` is the induction every run-level fact goes through: a
relation between the state and everything observed so far, preserved by
one step, holds of the whole run. `Along` restricts it to runs whose
steps all meet a condition on the state they are taken in.
-/
import Mathlib.Data.List.Basic
import Mathlib.Data.List.Induction

namespace Observed

variable {σ ι ω : Type _}

/-- The state a run over the inputs ends in. -/
def run (step : σ → ι → σ) (s : σ) (is : List ι) : σ := is.foldl step s

/-- Everything the steps of a run show, in order. -/
def trace (step : σ → ι → σ) (obs : σ → ι → List ω) : σ → List ι → List ω
  | _, [] => []
  | s, i :: is => obs s i ++ trace step obs (step s i) is

variable {step : σ → ι → σ} {obs : σ → ι → List ω}

@[simp] theorem run_nil (s : σ) : run step s [] = s := rfl

@[simp] theorem run_cons (s : σ) (i : ι) (is : List ι) :
    run step s (i :: is) = run step (step s i) is := rfl

theorem run_append (s : σ) (is js : List ι) :
    run step s (is ++ js) = run step (run step s is) js :=
  List.foldl_append

@[simp] theorem trace_nil (s : σ) : trace step obs s [] = [] := rfl

@[simp] theorem trace_cons (s : σ) (i : ι) (is : List ι) :
    trace step obs s (i :: is) = obs s i ++ trace step obs (step s i) is := rfl

theorem trace_append (s : σ) (is js : List ι) :
    trace step obs s (is ++ js)
      = trace step obs s is ++ trace step obs (run step s is) js := by
  induction is generalizing s with
  | nil => rfl
  | cons i is ih => simp [ih]

/-- If what a step shows depends on its input alone, so does what a run
shows. -/
theorem trace_static (f : ι → List ω) (s : σ) (is : List ι) :
    trace step (fun _ i => f i) s is = is.flatMap f := by
  induction is generalizing s with
  | nil => rfl
  | cons i is ih => simp [ih]

/-- Selecting from what a run shows is selecting from what each step shows. -/
theorem filterMap_trace {ψ : Type _} (f : ω → Option ψ) (s : σ) (is : List ι) :
    (trace step obs s is).filterMap f = trace step (fun s i => (obs s i).filterMap f) s is := by
  induction is generalizing s with
  | nil => rfl
  | cons i is ih => simp [ih]

/-- A run over inputs translated one by one is a run of the machine that
translates its own inputs. -/
theorem trace_map {κ : Type _} (f : κ → ι) (s : σ) (ks : List κ) :
    trace step obs s (ks.map f)
      = trace (fun s k => step s (f k)) (fun s k => obs s (f k)) s ks := by
  induction ks generalizing s with
  | nil => rfl
  | cons k ks ih => simp [ih]

/-- Every step of the run is taken under the condition, which may speak of
the state the step starts from. -/
def Along (step : σ → ι → σ) (C : σ → ι → Prop) : σ → List ι → Prop
  | _, [] => True
  | s, i :: is => C s i ∧ Along step C (step s i) is

/-- A condition on inputs alone is met along the run if each input meets it. -/
theorem along_of_forall {C : ι → Prop} {is : List ι} (h : ∀ i ∈ is, C i) (s : σ) :
    Along step (fun _ i => C i) s is := by
  induction is generalizing s with
  | nil => trivial
  | cons i is ih =>
      exact ⟨h i List.mem_cons_self,
        ih (fun j hj => h j (List.mem_cons_of_mem i hj)) (step s i)⟩

theorem along_append {C : σ → ι → Prop} {s : σ} {is js : List ι} :
    Along step C s (is ++ js)
      ↔ Along step C s is ∧ Along step C (run step s is) js := by
  induction is generalizing s with
  | nil => simp [Along]
  | cons i is ih => simp [Along, ih, and_assoc]

/-- What every step under the condition preserves, every run along it
preserves. -/
theorem invariant_along {C : σ → ι → Prop} {P : σ → Prop}
    (hstep : ∀ s i, C s i → P s → P (step s i)) {s : σ} (hs : P s) {is : List ι}
    (ha : Along step C s is) : P (run step s is) := by
  induction is generalizing s with
  | nil => exact hs
  | cons i is ih => exact ih (hstep s i ha.1 hs) ha.2

theorem along_imp {C D : σ → ι → Prop} (himp : ∀ s i, C s i → D s i) {s : σ}
    {is : List ι} (ha : Along step C s is) : Along step D s is := by
  induction is generalizing s with
  | nil => trivial
  | cons i is ih => exact ⟨himp s i ha.1, ih ha.2⟩

theorem along_and {C D : σ → ι → Prop} {s : σ} {is : List ι}
    (hc : Along step C s is) (hd : Along step D s is) :
    Along step (fun s i => C s i ∧ D s i) s is := by
  induction is generalizing s with
  | nil => trivial
  | cons i is ih => exact ⟨⟨hc.1, hd.1⟩, ih hc.2 hd.2⟩

/-- What the invariant gives of a step under the condition, it gives of
every step of a run along it. -/
theorem along_of_invariant {C D : σ → ι → Prop} {P : σ → Prop}
    (hstep : ∀ s i, C s i → P s → P (step s i)) (hgives : ∀ s i, C s i → P s → D s i)
    {s : σ} (hs : P s) {is : List ι} (ha : Along step C s is) : Along step D s is := by
  induction is generalizing s with
  | nil => trivial
  | cons i is ih => exact ⟨hgives s i ha.1 hs, ih (hstep s i ha.1 hs) ha.2⟩

/-- What every step preserves, every run preserves. -/
theorem invariant_run {P : σ → Prop} (hstep : ∀ s i, P s → P (step s i))
    {s : σ} (hs : P s) (is : List ι) : P (run step s is) :=
  invariant_along (C := fun _ _ => True) (fun s i _ => hstep s i) hs
    (along_of_forall (C := fun _ => True) (fun _ _ => trivial) s)

/-- A relation between state and observations so far, kept by each step
under the condition, holds of every run along it. -/
theorem history_along {C : σ → ι → Prop} {R : σ → List ω → Prop}
    (hstep : ∀ s h i, C s i → R s h → R (step s i) (h ++ obs s i))
    {s : σ} {h : List ω} (hs : R s h) {is : List ι} (ha : Along step C s is) :
    R (run step s is) (h ++ trace step obs s is) := by
  induction is generalizing s h with
  | nil => simpa using hs
  | cons i is ih =>
      have := ih (hstep s h i ha.1 hs) ha.2
      rwa [List.append_assoc] at this

/-- A relation between state and observations so far, kept by every step,
holds of every run. -/
theorem history_run {R : σ → List ω → Prop}
    (hstep : ∀ s h i, R s h → R (step s i) (h ++ obs s i))
    {s : σ} {h : List ω} (hs : R s h) (is : List ι) :
    R (run step s is) (h ++ trace step obs s is) :=
  history_along (C := fun _ _ => True) (fun s h i _ => hstep s h i) hs
    (along_of_forall (C := fun _ => True) (fun _ _ => trivial) s)

/-- A relation that a step keeps exactly under the condition holds after
every step of a run exactly when the run is taken along it. -/
theorem history_iff_along {C : σ → ι → Prop} {R : σ → List ω → Prop}
    (hstep : ∀ s h i, R s h → (R (step s i) (h ++ obs s i) ↔ C s i))
    {s : σ} {h : List ω} (hs : R s h) {is : List ι} :
    (∀ past, past <+: is → R (run step s past) (h ++ trace step obs s past))
      ↔ Along step C s is := by
  induction is generalizing s h with
  | nil => simpa [Along] using hs
  | cons i is ih =>
      constructor
      · intro hall
        have hfirst := hall [i] (by simp)
        simp only [run_cons, run_nil, trace_cons, trace_nil, List.append_nil] at hfirst
        refine ⟨(hstep s h i hs).mp hfirst, (ih hfirst).mp fun past hpast => ?_⟩
        rw [List.append_assoc]
        exact hall (i :: past) (by simpa using hpast)
      · rintro ⟨hc, ha⟩ past hpast
        have hfirst := (hstep s h i hs).mpr hc
        rcases List.prefix_cons_iff.mp hpast with rfl | ⟨rest, rfl, hrest⟩
        · simpa using hs
        · have := (ih hfirst).mpr ha rest hrest
          rwa [List.append_assoc] at this

/-- Two machines whose steps, from related states, show the same and leave
related states show the same over a whole run. -/
theorem simulation_along {τ : Type _} {step' : τ → ι → τ} {obs' : τ → ι → List ω}
    {C : σ → ι → Prop} {R : σ → τ → Prop}
    (hstep : ∀ s x i, C s i → R s x →
      R (step s i) (step' x i) ∧ obs s i = obs' x i)
    {s : σ} {x : τ} (hs : R s x) {is : List ι} (ha : Along step C s is) :
    R (run step s is) (run step' x is) ∧ trace step obs s is = trace step' obs' x is := by
  induction is generalizing s x with
  | nil => exact ⟨hs, rfl⟩
  | cons i is ih =>
      obtain ⟨hnext, hnow⟩ := hstep s x i ha.1 hs
      obtain ⟨hend, hrest⟩ := ih hnext ha.2
      refine ⟨hend, ?_⟩
      rw [trace_cons, trace_cons, hnow, hrest]

/-- Each step gives another machine inputs of its own. If from related
states it shows what those do and leaves related states, then so does the
whole run. -/
theorem simulation_onto {τ κ : Type _} {step' : τ → κ → τ} {obs' : τ → κ → List ω}
    {inputs : σ → ι → List κ} {R : σ → τ → Prop}
    (hstep : ∀ s x i, R s x → R (step s i) (run step' x (inputs s i))
      ∧ obs s i = trace step' obs' x (inputs s i))
    {s : σ} {x : τ} (hs : R s x) (is : List ι) :
    R (run step s is) (run step' x (trace step inputs s is))
      ∧ trace step obs s is = trace step' obs' x (trace step inputs s is) := by
  induction is generalizing s x with
  | nil => exact ⟨hs, rfl⟩
  | cons i is ih =>
      obtain ⟨hnext, hnow⟩ := hstep s x i hs
      obtain ⟨hend, hrest⟩ := ih hnext
      rw [trace_cons, trace_cons, run_append, trace_append, hnow, hrest]
      exact ⟨hend, rfl⟩

/-- A machine for which the inputs that are not kept make no difference,
and show nothing, might as well be run without them. -/
theorem simulation_filter {keep : ι → Bool} {R : σ → σ → Prop}
    (hkept : ∀ s x i, keep i = true → R s x → R (step s i) (step x i) ∧ obs s i = obs x i)
    (hskipped : ∀ s x i, keep i = false → R s x → R (step s i) x)
    {s x : σ} (hs : R s x) (is : List ι) :
    R (run step s is) (run step x (is.filter keep))
      ∧ trace step (fun s i => if keep i then obs s i else []) s is
        = trace step obs x (is.filter keep) := by
  induction is generalizing s x with
  | nil => exact ⟨hs, rfl⟩
  | cons i is ih =>
      cases hk : keep i with
      | true =>
          obtain ⟨hnext, hnow⟩ := hkept s x i hk hs
          obtain ⟨hend, hrest⟩ := ih hnext
          rw [List.filter_cons_of_pos hk, trace_cons, trace_cons, if_pos hk, hnow, hrest]
          exact ⟨hend, rfl⟩
      | false =>
          obtain ⟨hend, hrest⟩ := ih (hskipped s x i hk hs)
          have hne : ¬ keep i = true := by simp [hk]
          rw [List.filter_cons_of_neg hne, trace_cons, if_neg hne, hrest]
          exact ⟨hend, rfl⟩

/-- What each step shows of one observation within another, the whole
run shows within it. -/
theorem trace_sublist {obs' : σ → ι → List ω} {P : σ → Prop}
    (hstep : ∀ s i, P s → P (step s i))
    (hsub : ∀ s i, P s → (obs s i).Sublist (obs' s i)) {s : σ} (hs : P s)
    (is : List ι) : (trace step obs s is).Sublist (trace step obs' s is) := by
  induction is generalizing s with
  | nil => exact List.Sublist.refl _
  | cons i is ih => exact (hsub s i hs).append (ih (hstep s i hs))

/-- If a property of the inputs so far does not hold at first and holds in
the end, there is an input with which it comes to hold. -/
theorem exists_turning {P : List ι → Prop} (hnil : ¬ P []) {is : List ι} (h : P is) :
    ∃ pre i post, is = pre ++ i :: post ∧ ¬ P pre ∧ P (pre ++ [i]) := by
  induction is using List.reverseRecOn with
  | nil => exact absurd h hnil
  | append_singleton is i ih =>
      by_cases hbefore : P is
      · obtain ⟨pre, j, post, rfl, hpre, hj⟩ := ih hbefore
        exact ⟨pre, j, post ++ [i], by simp, hpre, hj⟩
      · exact ⟨is, i, [], rfl, hbefore, h⟩

/-- Something a run shows is shown by one of its steps, taken from a
state the run passes through. -/
theorem mem_trace {s : σ} {is : List ι} {x : ω} (h : x ∈ trace step obs s is) :
    ∃ pre i post, is = pre ++ i :: post ∧ x ∈ obs (run step s pre) i := by
  induction is generalizing s with
  | nil => cases h
  | cons i is ih =>
      rcases List.mem_append.mp h with hnow | hlater
      · exact ⟨[], i, is, rfl, hnow⟩
      · obtain ⟨pre, j, post, rfl, hx⟩ := ih hlater
        exact ⟨i :: pre, j, post, rfl, hx⟩

end Observed
