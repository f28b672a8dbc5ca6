/-
Deterministic machines in a row, joined by queues that keep the order.

Stage `i` takes its inputs off queue `i`, one at a time, and what it
shows may put inputs on queue `i + 1`. Which queue moves next is free.
The order does not matter: in every run each stage has gone through a
prefix of what was ever fed to it, and is where that prefix alone takes
it (`Progress`, `Run.progress`). So a run that has emptied the queues
shows at each stage the trace over everything fed (`Progress.settled`),
and the number of deliveries is the number of inputs taken.
-/
import EspressioRadio.Lib.Observed
import Mathlib.Algebra.BigOperators.Fin
import Mathlib.Algebra.BigOperators.Intervals

namespace Pipeline

open Observed

variable {σ ι ω : Type _}

/-- A machine with what its steps show, and which of its observations go on
to the next stage as inputs. -/
structure Stage (σ ι ω : Type _) where
  step : σ → ι → σ
  obs : σ → ι → List ω
  out : ω → Option ι

structure Config (σ ι ω : Type _) where
  state : Nat → σ
  queue : Nat → List ι
  log : Nat → List ω

/-- All stages in the states given, the input in the queue of the first, and
nothing shown yet. -/
def start (state : Nat → σ) (input : List ι) : Config σ ι ω where
  state := state
  queue := fun i => if i = 0 then input else []
  log := fun _ => []

/-- Stage `i` takes `x` off its queue: it steps, what it shows goes into its
log, and what goes on of that to the back of the next queue. -/
def Config.deliver (stage : Nat → Stage σ ι ω) (c : Config σ ι ω) (i : Nat) (x : ι)
    (rest : List ι) : Config σ ι ω :=
  let shown := (stage i).obs (c.state i) x
  { state := Function.update c.state i ((stage i).step (c.state i) x)
    queue := Function.update (Function.update c.queue i rest) (i + 1)
      (c.queue (i + 1) ++ shown.filterMap (stage i).out)
    log := Function.update c.log i (c.log i ++ shown) }

/-- The configurations the first `k` stages reach in `n` deliveries, taken
in any order. -/
inductive Run (stage : Nat → Stage σ ι ω) (k : Nat) (c₀ : Config σ ι ω) :
    Nat → Config σ ι ω → Prop where
  | start : Run stage k c₀ 0 c₀
  | deliver {n i : Nat} {c : Config σ ι ω} {x : ι} {rest : List ι} :
      Run stage k c₀ n c → i < k → c.queue i = x :: rest →
      Run stage k c₀ (n + 1) (c.deliver stage i x rest)

/-- Everything ever put on queue `i`: the input for the first, what goes on
of the log before for any other. -/
def fed (stage : Nat → Stage σ ι ω) (input : List ι) (log : Nat → List ω) :
    Nat → List ι
  | 0 => input
  | i + 1 => (log i).filterMap (stage i).out

/-- Stage `i` has gone through the first `taken i` inputs fed to it, as it
would alone; the others are in its queue, and a run is as long as all that
was taken. -/
structure Progress (stage : Nat → Stage σ ι ω) (k : Nat) (state : Nat → σ)
    (input : List ι) (n : Nat) (c : Config σ ι ω) (taken : Nat → Nat) : Prop where
  le : ∀ i, taken i ≤ (fed stage input c.log i).length
  queue_eq : ∀ i, c.queue i = (fed stage input c.log i).drop (taken i)
  state_eq : ∀ i, c.state i
    = run (stage i).step (state i) ((fed stage input c.log i).take (taken i))
  log_eq : ∀ i, c.log i = trace (stage i).step (stage i).obs (state i)
    ((fed stage input c.log i).take (taken i))
  count : n = ∑ i ∈ Finset.range k, taken i

variable {stage : Nat → Stage σ ι ω} {k n : Nat} {state : Nat → σ}
  {input : List ι} {c : Config σ ι ω} {taken : Nat → Nat}

theorem progress_start :
    Progress stage k state input 0 (start state input) fun _ => 0 where
  le := fun _ => Nat.zero_le _
  queue_eq := fun i => by
    cases i with
    | zero => rfl
    | succ i => rfl
  state_eq := fun _ => rfl
  log_eq := fun _ => rfl
  count := by simp

/-- A delivery at `i` feeds the next queue and no other. -/
theorem fed_deliver (i : Nat) (x : ι) (rest : List ι) (j : Nat) :
    fed stage input (c.deliver stage i x rest).log j
      = fed stage input c.log j
        ++ if j = i + 1 then
            ((stage i).obs (c.state i) x).filterMap (stage i).out
          else [] := by
  cases j with
  | zero => simp [fed]
  | succ j =>
      show ((Function.update c.log i _) j).filterMap (stage j).out = _
      by_cases hj : j = i
      · subst hj
        rw [Function.update_self, if_pos rfl, List.filterMap_append]
        rfl
      · rw [Function.update_of_ne hj, if_neg (by omega), List.append_nil]
        rfl

/-- A delivery at `i` is one more input taken there, and keeps every stage's
account. -/
theorem Progress.deliver (hp : Progress stage k state input n c taken) {i : Nat}
    {x : ι} {rest : List ι} (hi : i < k) (hq : c.queue i = x :: rest) :
    Progress stage k state input (n + 1) (c.deliver stage i x rest)
      (Function.update taken i (taken i + 1)) := by
  have hdrop : (fed stage input c.log i).drop (taken i) = x :: rest :=
    (hp.queue_eq i).symm.trans hq
  have hlt : taken i < (fed stage input c.log i).length := by
    by_contra hge
    rw [List.drop_of_length_le (by omega)] at hdrop
    cases hdrop
  have htake : (fed stage input c.log i).take (taken i + 1)
      = (fed stage input c.log i).take (taken i) ++ [x] := by
    have hx : (fed stage input c.log i)[taken i]? = some x := by
      rw [← List.head?_drop, hdrop]
      rfl
    rw [List.take_add_one, hx]
    rfl
  -- what stage `j` has taken of the longer feed
  have hfront : ∀ j, (fed stage input (c.deliver stage i x rest).log j).take
      (Function.update taken i (taken i + 1) j)
      = if j = i then (fed stage input c.log i).take (taken i) ++ [x]
        else (fed stage input c.log j).take (taken j) := by
    intro j
    rw [fed_deliver]
    by_cases hj : j = i
    · subst hj
      rw [Function.update_self, if_neg (by omega), List.append_nil, if_pos rfl, htake]
    · rw [Function.update_of_ne hj, if_neg hj,
        List.take_append_of_le_length (hp.le j)]
  refine ⟨?_, ?_, ?_, ?_, ?_⟩
  · intro j
    rw [fed_deliver, List.length_append]
    by_cases hj : j = i
    · subst hj
      rw [Function.update_self]
      omega
    · rw [Function.update_of_ne hj]
      exact Nat.le_add_right_of_le (hp.le j)
  · intro j
    -- the next queue has more fed to it, its own has lost `x`, and the others are as
    -- they were
    show Function.update (Function.update c.queue i rest) (i + 1) _ j = _
    rw [fed_deliver]
    by_cases hnext : j = i + 1
    · subst hnext
      rw [Function.update_self, Function.update_of_ne (by omega), if_pos rfl,
        List.drop_append_of_le_length (hp.le _), hp.queue_eq (i + 1)]
    · rw [Function.update_of_ne hnext, if_neg hnext, List.append_nil]
      by_cases hj : j = i
      · subst hj
        rw [Function.update_self, Function.update_self, ← List.drop_drop, hdrop]
        rfl
      · rw [Function.update_of_ne hj, Function.update_of_ne hj]
        exact hp.queue_eq j
  · intro j
    rw [hfront]
    show Function.update c.state i _ j = _
    by_cases hj : j = i
    · subst hj
      rw [Function.update_self, if_pos rfl, run_append, ← hp.state_eq j]
      rfl
    · rw [Function.update_of_ne hj, if_neg hj]
      exact hp.state_eq j
  · intro j
    rw [hfront]
    show Function.update c.log i _ j = _
    by_cases hj : j = i
    · subst hj
      rw [Function.update_self, if_pos rfl, trace_append, ← hp.state_eq j,
        ← hp.log_eq j, trace_cons, trace_nil, List.append_nil]
    · rw [Function.update_of_ne hj, if_neg hj]
      exact hp.log_eq j
  · rw [Finset.sum_update_of_mem (Finset.mem_range.mpr hi), hp.count,
      ← Finset.sum_sdiff (Finset.singleton_subset_iff.mpr (Finset.mem_range.mpr hi)),
      Finset.sum_singleton]
    omega

/-- In every run, in whatever order its deliveries came, each stage has done
what it does alone on the first inputs fed to it. -/
theorem Run.progress (hr : Run stage k (Pipeline.start state input) n c) :
    ∃ taken, Progress stage k state input n c taken := by
  induction hr with
  | start => exact ⟨_, progress_start⟩
  | deliver _ hi hq ih =>
      obtain ⟨taken, hp⟩ := ih
      exact ⟨_, hp.deliver hi hq⟩

/-- A stage whose queue is empty has gone through all that was fed to it. -/
theorem Progress.settled (hp : Progress stage k state input n c taken) {i : Nat}
    (hq : c.queue i = []) :
    c.log i = trace (stage i).step (stage i).obs (state i)
      (fed stage input c.log i) := by
  have hdrop := (hp.queue_eq i).symm.trans hq
  have hle := List.drop_eq_nil_iff.mp hdrop
  have hlog := hp.log_eq i
  rw [List.take_of_length_le hle] at hlog
  exact hlog

end Pipeline
