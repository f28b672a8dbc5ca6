/-
The synchronizers of stations on one medium, as a network of their own.

A clock frame a radio is handed is on the air of the synchronizers, for
that radio's address, and any other packet they pass over. One packet may
have several observers; the synchronizers' network moves one node at a
time, but what each of them does depends on no other, so moves at one
moment are moves one after another (`ClockNetwork.Reachable.moved`).
-/
import EspressioRadio.Clock.Network
import EspressioRadio.Proofs.Stations.Frames
import Mathlib.Data.Finset.Prod
import Mathlib.Data.Fintype.Basic

namespace EspressioRadio

variable {b : Bounds} {ρ ν : Type} {n : Nat}

namespace ClockNetwork

variable {κ : Type} [DecidableEq κ] {address : κ → RadioAddress} {cn cn' : ClockNetwork κ}
  {move : κ → RadioClockSynchronizer × List ClockEvent} {done : Finset κ}

/-- The samples that node `k` submitted, in order. -/
def samplesAt (cn : ClockNetwork κ) (k : κ) : List ClockSynchronizationSample :=
  cn.samples.filterMap fun s => if s.client = k then some s.sample else none

theorem act_samplesAt (k j : κ) (about : κ × Nat)
    (result : RadioClockSynchronizer × List ClockEvent) :
    (cn.act k about result).samplesAt j
      = cn.samplesAt j
        ++ if j = k then result.2.filterMap ClockEvent.submitted else [] := by
  unfold samplesAt
  rw [show (cn.act k about result).samples = cn.samples
      ++ (result.2.filterMap ClockEvent.submitted).map fun sample =>
        ⟨k, (cn.requests k).length, sample⟩ from rfl,
    List.filterMap_append, List.filterMap_map]
  congr 1
  split
  · next hj =>
    subst hj
    simp
  · next hj => simp [Ne.symm hj]

/-- This frame has been sent to that address. -/
def OnAir (cn : ClockNetwork κ) (destination : RadioAddress) (frame : List UInt8) :
    Prop :=
  ∃ t ∈ cn.air, t.destination = destination ∧ t.frame = frame

/-- Some execution of `ProcessRequest` came to these timestamps. -/
def Executed (cn : ClockNetwork κ) (t2 t3 : UInt64) : Prop :=
  ∃ e ∈ cn.executions, e.t2 = t2 ∧ e.t3 = t3

theorem act_onAir (k : κ) (about : κ × Nat)
    (result : RadioClockSynchronizer × List ClockEvent) {destination : RadioAddress}
    {frame : List UInt8} :
    (cn.act k about result).OnAir destination frame
      ↔ cn.OnAir destination frame
        ∨ ∃ sent, .radioSend destination frame sent ∈ result.2 := by
  constructor
  · intro hair
    obtain ⟨t, ht, hdestination, hframe⟩ := hair
    rcases List.mem_append.mp ht with hold | hnew
    · exact Or.inl ⟨t, hold, hdestination, hframe⟩
    · obtain ⟨event, hevent, heq⟩ := List.mem_filterMap.mp hnew
      cases event with
      | radioSend destination' frame' sent =>
          cases heq
          subst hdestination hframe
          exact Or.inr ⟨sent, hevent⟩
      | _ => cases heq
  · intro hair
    rcases hair with ⟨t, ht, hsent⟩ | ⟨sent, hevent⟩
    · exact ⟨t, List.mem_append_left _ ht, hsent⟩
    · refine ⟨_, List.mem_append_right _ (List.mem_filterMap.mpr ⟨_, hevent, rfl⟩), ?_⟩
      exact ⟨rfl, rfl⟩

theorem act_executed (k : κ) (about : κ × Nat)
    (result : RadioClockSynchronizer × List ClockEvent) {t2 t3 : UInt64} :
    (cn.act k about result).Executed t2 t3
      ↔ cn.Executed t2 t3 ∨ ∃ sequence, .requestProcessed sequence t2 t3 ∈ result.2 := by
  constructor
  · intro hexecuted
    obtain ⟨e, he, ht2, ht3⟩ := hexecuted
    rcases List.mem_append.mp he with hold | hnew
    · exact Or.inl ⟨e, hold, ht2, ht3⟩
    · obtain ⟨event, hevent, heq⟩ := List.mem_filterMap.mp hnew
      cases event with
      | requestProcessed sequence t2' t3' =>
          cases heq
          subst ht2 ht3
          exact Or.inr ⟨sequence, hevent⟩
      | _ => cases heq
  · intro hexecuted
    rcases hexecuted with ⟨e, he, htimes⟩ | ⟨sequence, hevent⟩
    · exact ⟨e, List.mem_append_left _ he, htimes⟩
    · refine ⟨_, List.mem_append_right _ (List.mem_filterMap.mpr ⟨_, hevent, rfl⟩), ?_⟩
      exact ⟨rfl, rfl⟩

/-- Node `k` can make this move, also after others have made theirs. -/
def CanMove (address : κ → RadioAddress) (cn : ClockNetwork κ) (k : κ)
    (result : RadioClockSynchronizer × List ClockEvent) : Prop :=
  ∀ cn' : ClockNetwork κ, cn'.node k = cn.node k → cn.air ⊆ cn'.air →
    ∃ about, Step address cn' (cn'.act k about result)

/-- These nodes have made their moves and the others none. -/
structure Moved (cn : ClockNetwork κ)
    (move : κ → RadioClockSynchronizer × List ClockEvent) (done : Finset κ)
    (cn' : ClockNetwork κ) : Prop where
  node : ∀ k, cn'.node k = if k ∈ done then (move k).1 else cn.node k
  requests : ∀ k, cn'.requests k
    = cn.requests k ++ if k ∈ done then (move k).2.filterMap ClockEvent.captured else []
  samples : ∀ k, cn'.samplesAt k
    = cn.samplesAt k ++ if k ∈ done then (move k).2.filterMap ClockEvent.submitted else []
  air : cn.air ⊆ cn'.air
  onAir : ∀ destination frame, cn'.OnAir destination frame ↔ cn.OnAir destination frame
    ∨ ∃ k ∈ done, ∃ result, .radioSend destination frame result ∈ (move k).2
  executed : ∀ t2 t3, cn'.Executed t2 t3 ↔ cn.Executed t2 t3
    ∨ ∃ k ∈ done, ∃ sequence, .requestProcessed sequence t2 t3 ∈ (move k).2

/-- One more node makes its move, after those that have made theirs. -/
theorem Moved.insert (h : cn.Moved move done cn') {k : κ} (hk : k ∉ done)
    (about : κ × Nat) :
    cn.Moved move (insert k done) (cn'.act k about (move k)) := by
  refine ⟨fun j => ?_, fun j => ?_, fun j => ?_, ?_, fun destination frame => ?_,
    fun t2 t3 => ?_⟩
  · rcases eq_or_ne j k with rfl | hne
    · simp [act]
    · simp [act, hne, h.node j]
  · rcases eq_or_ne j k with rfl | hne
    · simp [act, h.requests j, hk]
    · simp [act, hne, h.requests j]
  · rw [act_samplesAt, h.samples j]
    rcases eq_or_ne j k with rfl | hne
    · simp [hk]
    · simp [hne]
  · exact List.Subset.trans h.air (List.subset_append_left _ _)
  · rw [act_onAir, h.onAir, Finset.exists_mem_insert, or_assoc]
    exact or_congr_right or_comm
  · rw [act_executed, h.executed, Finset.exists_mem_insert, or_assoc]
    exact or_congr_right or_comm

/-- Moves at one moment are moves one after another. -/
theorem Reachable.moved (hr : Reachable address cn)
    (hmove : ∀ k ∈ done, cn.CanMove address k (move k)) :
    ∃ cn', Reachable address cn' ∧ cn.Moved move done cn' := by
  induction done using Finset.induction_on with
  | empty =>
      refine ⟨cn, hr, ⟨?_, ?_, ?_, List.Subset.refl _, ?_, ?_⟩⟩ <;> simp
  | insert k done hk ih =>
      obtain ⟨cn', hr', hmoved⟩ := ih fun j hj => hmove j (Finset.mem_insert_of_mem hj)
      obtain ⟨about, hstep⟩ := hmove k (Finset.mem_insert_self k done) cn'
        ((hmoved.node k).trans (if_neg hk)) hmoved.air
      exact ⟨_, hr'.step hstep, hmoved.insert hk about⟩

/-- A public call of a node's synchronizer is a move it can make. -/
theorem public_canMove {k : κ} {c : ClockSession} (hc : cn.node k = c.synchronizer)
    {call : ClockCall} (hcall : call.IsPublic (address k)) :
    cn.CanMove address k ((c.step call).synchronizer, c.effects call) := by
  intro cn' hnode _
  obtain ⟨s, sending⟩ := c
  obtain rfl : cn'.node k = s := hnode.trans hc
  cases call with
  | initializeWith config reads => exact ⟨_, .initializeWith k config reads hcall⟩
  | shutdown => exact ⟨_, .shutdown k⟩
  | resetStatistics => exact ⟨_, .resetStatistics k⟩
  | requestSynchronization reads => exact ⟨_, .requestSynchronization k reads hcall⟩
  | update now reads => exact ⟨_, .update k now reads hcall⟩
  | beginRequest reads => exact hcall.elim
  | beginUpdate now reads => exact hcall.elim
  | endRequest result => exact hcall.elim
  | onRadioPacketReceived packet reads => exact hcall.elim

/-- Handling a frame that is on the air for the node is a move it can make. -/
theorem packet_canMove {k : κ} {c : ClockSession} (hc : cn.node k = c.synchronizer)
    {t : Transmission κ} (ht : t ∈ cn.air)
    (hdestination : t.destination.same (address k) = true) {packet : RadioPacketView}
    (hpayload : packet.payload = t.frame) (reads : ReceiveReads) :
    cn.CanMove address k
      ((c.step (.onRadioPacketReceived packet reads)).synchronizer,
        c.effects (.onRadioPacketReceived packet reads)) := by
  intro cn' hnode hair
  obtain ⟨s, sending⟩ := c
  obtain rfl : cn'.node k = s := hnode.trans hc
  exact ⟨_, .receive k t packet reads (hair ht) hdestination hpayload⟩

end ClockNetwork

namespace StationNetwork

variable {net net' : StationNetwork b ρ ν n} {m : ν}
  {r : Station b ρ n × List (StationEvent ρ n)} {made : List Outbound}
  {localNode : ν → RadioNodeId} {defaultHopLimit : ν → UInt8} {radioOf : ν → Fin n → ρ}
  {address : ν → ρ → RadioAddress} {cn : ClockNetwork (ν × Fin n)}

variable [DecidableEq ν]

/-- Some synchronizer of the network did this. -/
def Shows (net : StationNetwork b ρ ν n) (event : ClockEvent) : Prop :=
  ∃ k i, event ∈ Station.clockEvents i (net.shown k)

theorem act_shows {event : ClockEvent} :
    (net.act m r made).Shows event
      ↔ net.Shows event ∨ ∃ i, event ∈ Station.clockEvents i r.2 := by
  constructor
  · intro hshows
    obtain ⟨k, i, he⟩ := hshows
    rw [act_clockEvents] at he
    rcases List.mem_append.mp he with hold | hnew
    · exact Or.inl ⟨k, i, hold⟩
    · split at hnew
      · exact Or.inr ⟨i, hnew⟩
      · cases hnew
  · intro hshows
    rcases hshows with ⟨k, i, he⟩ | ⟨i, he⟩
    · refine ⟨k, i, ?_⟩
      rw [act_clockEvents]
      exact List.mem_append_left _ he
    · refine ⟨m, i, ?_⟩
      rw [act_clockEvents, if_pos rfl]
      exact List.mem_append_right _ he

/-- The synchronizers of the stations, as a network of their own. -/
structure Clocks (net : StationNetwork b ρ ν n) (cn : ClockNetwork (ν × Fin n)) :
    Prop where
  node : ∀ k i, cn.node (k, i) = ((net.station k).sessions i).synchronizer
  requests : ∀ k i, cn.requests (k, i)
    = (Station.clockEvents i (net.shown k)).filterMap ClockEvent.captured
  samples : ∀ k i, cn.samplesAt (k, i)
    = (Station.clockEvents i (net.shown k)).filterMap ClockEvent.submitted
  onAir : ∀ destination frame, cn.OnAir destination frame
    ↔ ∃ result, net.Shows (.radioSend destination frame result)
  executed : ∀ t2 t3, cn.Executed t2 t3
    ↔ ∃ sequence, net.Shows (.requestProcessed sequence t2 t3)

/-- The address of the radio that a synchronizer was constructed with. -/
def clockAddress (address : ν → ρ → RadioAddress) (radioOf : ν → Fin n → ρ)
    (k : ν × Fin n) : RadioAddress :=
  address k.1 (radioOf k.1 k.2)

/-- A station's step is that of some of its synchronizers. -/
theorem Clocks.act (h : net.Clocks cn) {address : ν × Fin n → RadioAddress}
    (hr : ClockNetwork.Reachable address cn) (moving : Finset (Fin n))
    (hmoving : ∀ i ∈ moving, cn.CanMove address (m, i)
      ((r.1.sessions i).synchronizer, Station.clockEvents i r.2))
    (hkept : ∀ i ∉ moving,
      (r.1.sessions i).synchronizer = ((net.station m).sessions i).synchronizer
        ∧ Station.clockEvents i r.2 = []) :
    ∃ cn', ClockNetwork.Reachable address cn' ∧ (net.act m r made).Clocks cn' := by
  let move (k : ν × Fin n) : RadioClockSynchronizer × List ClockEvent :=
    ((r.1.sessions k.2).synchronizer, Station.clockEvents k.2 r.2)
  have hmem : ∀ k i, (k, i) ∈ ({m} : Finset ν) ×ˢ moving ↔ k = m ∧ i ∈ moving := by
    intro k i
    rw [Finset.mem_product, Finset.mem_singleton]
  have hmove : ∀ k ∈ ({m} : Finset ν) ×ˢ moving, cn.CanMove address k (move k) := by
    intro k hk
    obtain ⟨k, i⟩ := k
    obtain ⟨rfl, hi⟩ := (hmem k i).mp hk
    exact hmoving i hi
  obtain ⟨cn', hr', hmoved⟩ := hr.moved hmove
  -- what was read off the events of those that moved is read off the station's
  have hread : ∀ {α : Type} (f : ClockEvent → Option α) k i,
      (if (k, i) ∈ ({m} : Finset ν) ×ˢ moving then (move (k, i)).2.filterMap f else [])
        = (if k = m then Station.clockEvents i r.2 else []).filterMap f := by
    intro α f k i
    by_cases hk : k = m
    · by_cases hi : i ∈ moving
      · rw [if_pos ((hmem k i).mpr ⟨hk, hi⟩), if_pos hk]
      · rw [if_neg (fun h => hi ((hmem k i).mp h).2), if_pos hk, (hkept i hi).2]
        rfl
    · rw [if_neg (fun h => hk ((hmem k i).mp h).1), if_neg hk]
      rfl
  have hshown : ∀ {α : Type} (event : α → ClockEvent),
      (∃ k ∈ ({m} : Finset ν) ×ˢ moving, ∃ a, event a ∈ (move k).2)
        ↔ ∃ a i, event a ∈ Station.clockEvents i r.2 := by
    intro α event
    constructor
    · intro hmoves
      obtain ⟨⟨k, i⟩, -, a, he⟩ := hmoves
      exact ⟨a, i, he⟩
    · intro hevent
      obtain ⟨a, i, he⟩ := hevent
      by_cases hi : i ∈ moving
      · exact ⟨(m, i), (hmem m i).mpr ⟨rfl, hi⟩, a, he⟩
      · rw [(hkept i hi).2] at he
        cases he
  refine ⟨cn', hr', fun k i => ?_, fun k i => ?_, fun k i => ?_,
    fun destination frame => ?_, fun t2 t3 => ?_⟩
  · rw [hmoved.node]
    rcases eq_or_ne k m with rfl | hne
    · by_cases hi : i ∈ moving
      · rw [if_pos ((hmem k i).mpr ⟨rfl, hi⟩)]
        simp [StationNetwork.act, move]
      · rw [if_neg (fun h => hi ((hmem k i).mp h).2), h.node, ← (hkept i hi).1]
        simp [StationNetwork.act]
    · rw [if_neg (fun h => hne ((hmem k i).mp h).1), h.node]
      simp [StationNetwork.act, hne]
  · rw [hmoved.requests, h.requests, hread, act_clockEvents, List.filterMap_append]
  · rw [hmoved.samples, h.samples, hread, act_clockEvents, List.filterMap_append]
  · simp only [act_shows, exists_or]
    rw [hmoved.onAir, h.onAir]
    exact or_congr_right (hshown fun result => .radioSend destination frame result)
  · simp only [act_shows, exists_or]
    rw [hmoved.executed, h.executed]
    exact or_congr_right (hshown fun sequence => .requestProcessed sequence t2 t3)

theorem clocks_create :
    (create localNode defaultHopLimit radioOf : StationNetwork b ρ ν n).Clocks
      ClockNetwork.create :=
  ⟨fun _ _ => rfl, fun _ _ => rfl, fun _ _ => rfl, fun _ _ => ⟨nofun, nofun⟩,
    fun _ _ => ⟨nofun, nofun⟩⟩

variable [DecidableEq ρ]

/-- Each step of the stations is a number of steps of the clock network, one
for each synchronizer concerned. -/
theorem Clocks.step (h : net.Clocks cn) (hframed : net.Framed)
    (hradio : ∀ m, (net.station m).radioOf = radioOf m)
    (hr : ClockNetwork.Reachable (clockAddress address radioOf) cn)
    (hstep : Step address net net') :
    ∃ cn', ClockNetwork.Reachable (clockAddress address radioOf) cn'
      ∧ net'.Clocks cn' := by
  cases hstep with
  | worker m call hcall =>
      -- the worker's calls concern no synchronizer
      exact h.act hr ∅ (fun i hi => absurd hi (Finset.notMem_empty i))
        fun i _ => ⟨rfl, Station.clockEvents_worker i _⟩
  | clock m i call hcall =>
      have hevents := fun j => Station.clockEvents_clock (ρ := ρ) j i
        (((net.station m).sessions i).effects call)
      apply h.act hr {i}
      · intro j hj
        obtain rfl := Finset.mem_singleton.mp hj
        rw [hradio] at hcall
        show cn.CanMove _ _
          ((Function.update (net.station m).sessions j
              (((net.station m).sessions j).step call) j).synchronizer,
            Station.clockEvents j
              ((((net.station m).sessions j).effects call).map (.clock j)))
        rw [Function.update_self, hevents, if_pos rfl]
        exact ClockNetwork.public_canMove (h.node m j) hcall
      · intro j hj
        rw [Finset.mem_singleton] at hj
        refine ⟨?_, (hevents j).trans (if_neg (Ne.symm hj))⟩
        show (Function.update (net.station m).sessions i _ j).synchronizer = _
        rw [Function.update_of_ne hj]
  | receive m radio arrival hair =>
      -- those that observe the radio take a clock frame, and nobody another
      apply h.act hr (Finset.univ.filter fun i =>
        (net.station m).observes i radio && isClockFrame arrival.packet.payload)
      · intro i hi
        have htakes := (Finset.mem_filter.mp hi).2
        obtain ⟨hstate, hshown⟩ := (net.station m).receive_clock i (radio, arrival)
        unfold Station.clockFrame at hstate hshown
        rw [if_pos htakes] at hstate hshown
        rw [Bool.and_eq_true] at htakes
        obtain ⟨k, j, destination, result, hdestination, hsent⟩ :=
          hframed.sent_by_clock hair htakes.2
        obtain ⟨t, ht, rfl, hframe⟩ := (h.onAir destination _).mpr ⟨result, k, j, hsent⟩
        have hown : radioOf m i = radio := by
          rw [← hradio]
          exact beq_iff_eq.mp htakes.1
        show cn.CanMove _ _
          ((((net.station m).receive (radio, arrival)).sessions i).synchronizer,
            Station.clockEvents i ((net.station m).receiveEffects (radio, arrival)))
        rw [hstate, hshown, Observed.run_cons, Observed.trace_cons, Observed.run_nil,
          Observed.trace_nil, List.append_nil]
        apply ClockNetwork.packet_canMove (h.node m i) ht _ hframe.symm
        show t.destination.same (address m (radioOf m i)) = true
        rw [hown]
        exact hdestination
      · intro i hi
        have hpasses : ¬ ((net.station m).observes i radio
            && isClockFrame arrival.packet.payload) = true := fun htakes =>
          hi (Finset.mem_filter.mpr ⟨Finset.mem_univ i, htakes⟩)
        obtain ⟨hstate, hshown⟩ := (net.station m).receive_clock i (radio, arrival)
        unfold Station.clockFrame at hstate hshown
        rw [if_neg hpasses] at hstate hshown
        exact ⟨congrArg ClockSession.synchronizer hstate, hshown⟩

/-- Every run of stations is one of their synchronizers. -/
theorem Reachable.clocks (hr : Reachable localNode defaultHopLimit radioOf address net) :
    ∃ cn, ClockNetwork.Reachable (clockAddress address radioOf) cn ∧ net.Clocks cn := by
  induction hr with
  | create => exact ⟨_, .create, clocks_create⟩
  | step hr hstep ih =>
      obtain ⟨cn, hreach, hcn⟩ := ih
      exact hcn.step hr.framed hr.radioOf_eq hreach hstep

end StationNetwork

end EspressioRadio
