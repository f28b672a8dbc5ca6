/-
The topology tables as maps.

The interface table maps a radio to its `DefaultRoute` flag, the route
table a destination to its record, and the worker's table is a set of
radios: slot tables all three (`interfaceTable`, `routeTable`,
`radioTable`), whose scans are the library's. `AddInterface` and
`SetRoute` are its `put`, `RemoveRoute` its `drop`.

# The two registries

What the worker has, the transport has (`Consistent.serviced`): the
worker registers a radio only after the transport took it, and the
transport never gives one up. So the worker's table is full of other
radios only when the transport's is, and its own `AddInterface` fails
exactly then (`addInterface_failed_iff`).
-/
import EspressioRadio.Lib.SlotMap
import EspressioRadio.Proofs.Invariant
import EspressioRadio.Transport.Worker

namespace EspressioRadio

open SlotMap

variable {b : Bounds} {ρ : Type}

namespace RadioTransport

variable {t : RadioTransport b ρ}

-- ============================================================ the tables

/-- The interfaces as a table: each registered radio with its default-route
flag. -/
def interfaceTable (t : RadioTransport b ρ) : Table b.maxInterfaces ρ Bool := fun i =>
  (t.interfaces i).radio.map fun radio => (radio, (t.interfaces i).defaultRoute)

/-- Each destination with the record in use for it. -/
def routeTable (t : RadioTransport b ρ) : Table b.maxRoutes RadioNodeId (RouteRecord ρ) :=
  fun i =>
    if (t.routes i).used then some ((t.routes i).destination, t.routes i) else none

theorem interfaceTable_eq_some_iff {i : Fin b.maxInterfaces} {radio : ρ} {flag : Bool} :
    t.interfaceTable i = some (radio, flag)
      ↔ t.interfaces i = { radio := some radio, defaultRoute := flag } := by
  unfold interfaceTable
  rcases t.interfaces i with ⟨radio', flag'⟩
  cases radio' <;> simp

theorem interfaceTable_of_radio {i : Fin b.maxInterfaces} {radio : ρ}
    (h : (t.interfaces i).radio = some radio) :
    t.interfaceTable i = some (radio, (t.interfaces i).defaultRoute) := by
  rw [interfaceTable_eq_some_iff, ← h]

theorem routeTable_eq_some_iff {i : Fin b.maxRoutes} {destination : RadioNodeId}
    {route : RouteRecord ρ} :
    t.routeTable i = some (destination, route)
      ↔ t.routes i = route ∧ route.used = true ∧ route.destination = destination := by
  unfold routeTable
  constructor
  · intro h
    split at h
    · next hused =>
      injection h with h
      injection h with hdestination hroute
      subst hroute
      exact ⟨rfl, hused, hdestination⟩
    · cases h
  · rintro ⟨rfl, hused, rfl⟩
    rw [if_pos hused]

/-- The radio is in the transport's interface table. -/
def Registered (t : RadioTransport b ρ) (radio : ρ) : Prop :=
  ∃ i, (t.interfaces i).radio = some radio

theorem registered_iff {radio : ρ} : t.Registered radio ↔ radio ∈ keys t.interfaceTable := by
  refine exists_congr fun i => ?_
  unfold interfaceTable
  cases (t.interfaces i).radio <;> simp

/-- Some route in use is for the destination. -/
def Routed (t : RadioTransport b ρ) (destination : RadioNodeId) : Prop :=
  ∃ i, (t.routes i).used = true ∧ (t.routes i).destination = destination

theorem routed_iff {destination : RadioNodeId} :
    t.Routed destination ↔ destination ∈ keys t.routeTable := by
  constructor
  · rintro ⟨i, hused, hdestination⟩
    exact ⟨i, _, routeTable_eq_some_iff.mpr ⟨rfl, hused, hdestination⟩⟩
  · rintro ⟨i, route, hi⟩
    obtain ⟨rfl, hused, hdestination⟩ := routeTable_eq_some_iff.mp hi
    exact ⟨i, hused, hdestination⟩

theorem interfaceTable_update {i : Fin b.maxInterfaces} {record : InterfaceRecord ρ} :
    interfaceTable { t with interfaces := Function.update t.interfaces i record }
      = Function.update t.interfaceTable i
        (record.radio.map fun radio => (radio, record.defaultRoute)) :=
  Function.comp_update (fun record : InterfaceRecord ρ =>
    record.radio.map fun radio => (radio, record.defaultRoute)) t.interfaces i record

theorem routeTable_update {i : Fin b.maxRoutes} {route : RouteRecord ρ} :
    routeTable { t with routes := Function.update t.routes i route }
      = Function.update t.routeTable i
        (if route.used then some (route.destination, route) else none) :=
  Function.comp_update (fun route : RouteRecord ρ =>
    if route.used then some (route.destination, route) else none) t.routes i route

-- ============================================================= the scans

theorem routeTable_slot? (destination : RadioNodeId) :
    slot? t.routeTable destination
      = Fin.find? fun i =>
        (t.routes i).used && (t.routes i).destination == destination := by
  unfold slot?
  congr 1
  funext i
  unfold routeTable
  cases (t.routes i).used <;> simp

theorem routeTable_free? : free? t.routeTable = Fin.find? fun i => !(t.routes i).used := by
  unfold free?
  congr 1
  funext i
  unfold routeTable
  cases (t.routes i).used <;> simp

theorem interfaceTable_free? :
    free? t.interfaceTable = Fin.find? fun i => (t.interfaces i).radio.isNone := by
  unfold free?
  congr 1
  funext i
  unfold interfaceTable
  cases (t.interfaces i).radio <;> simp

theorem removeRoute_none {destination : RadioNodeId}
    (h : drop t.routeTable destination = none) :
    t.removeRoute destination = (t, false, []) := by
  have hs := Option.map_eq_none_iff.mp h
  rw [routeTable_slot?] at hs
  unfold removeRoute
  rw [hs]

theorem removeRoute_some {destination : RadioNodeId}
    {table : Table b.maxRoutes RadioNodeId (RouteRecord ρ)}
    (h : drop t.routeTable destination = some table) :
    (t.removeRoute destination).2.1 = true
      ∧ (t.removeRoute destination).1.routeTable = table
      ∧ (t.removeRoute destination).1.interfaces = t.interfaces := by
  obtain ⟨i, hs, rfl⟩ := Option.map_eq_some_iff.mp h
  rw [routeTable_slot?] at hs
  unfold removeRoute
  rw [hs]
  exact ⟨rfl, routeTable_update, rfl⟩

variable [DecidableEq ρ]

theorem findInterface_eq (radio : ρ) :
    t.findInterface radio = slot? t.interfaceTable radio := by
  unfold findInterface slot?
  congr 1
  funext i
  unfold interfaceTable
  cases (t.interfaces i).radio <;> simp

theorem addInterface_none {radio : ρ} {flag : Bool}
    (h : put t.interfaceTable radio flag = none) :
    t.addInterface radio flag = (t, false, []) := by
  have hor := Option.map_eq_none_iff.mp h
  rw [Option.or_eq_none_iff, interfaceTable_free?, ← findInterface_eq] at hor
  unfold addInterface
  rw [hor.1, hor.2]

theorem addInterface_some {radio : ρ} {flag : Bool}
    {table : Table b.maxInterfaces ρ Bool}
    (h : put t.interfaceTable radio flag = some table) :
    (t.addInterface radio flag).2.1 = true
      ∧ (t.addInterface radio flag).1.interfaceTable = table
      ∧ (t.addInterface radio flag).1.routes = t.routes := by
  obtain ⟨i, hor, rfl⟩ := Option.map_eq_some_iff.mp h
  unfold addInterface
  cases hs : t.findInterface radio with
  | some j =>
      rw [← findInterface_eq, hs, Option.some_or] at hor
      injection hor with hor
      subst hor
      rw [findInterface_eq] at hs
      obtain ⟨was, hj⟩ := slot?_spec hs
      have hrecord := interfaceTable_eq_some_iff.mp hj
      refine ⟨rfl, ?_, rfl⟩
      dsimp only
      rw [interfaceTable_update, hrecord]
      rfl
  | none =>
      rw [← findInterface_eq, hs, Option.none_or, interfaceTable_free?] at hor
      dsimp only
      rw [hor]
      exact ⟨rfl, interfaceTable_update, rfl⟩

/-- The arguments that `SetRoute` accepts, tables apart. -/
def RouteArguments (t : RadioTransport b ρ) (destination : RadioNodeId) (radio : ρ)
    (nextHop : RadioAddress) : Prop :=
  destination ≠ broadcastNode ∧ nextHop.isValid = true ∧ t.Registered radio

/-- The record that a successful `SetRoute` leaves in its slot. -/
def routeRecord (destination : RadioNodeId) (radio : ρ) (nextHop : RadioAddress) :
    RouteRecord ρ :=
  { used := true, destination := destination, radio := some radio, nextHop := nextHop }

private theorem routeArguments_iff {destination : RadioNodeId} {radio : ρ}
    {nextHop : RadioAddress} :
    t.RouteArguments destination radio nextHop
      ↔ ¬(destination = broadcastNode ∨ !nextHop.isValid
        ∨ (t.findInterface radio).isNone) := by
  unfold RouteArguments
  rw [registered_iff, findInterface_eq, Option.isNone_iff_eq_none, slot?_eq_none_iff]
  simp [not_or]

theorem setRoute_invalid {destination : RadioNodeId} {radio : ρ}
    {nextHop : RadioAddress} (h : ¬ t.RouteArguments destination radio nextHop) :
    t.setRoute destination radio nextHop = (t, false, []) := by
  rw [routeArguments_iff, not_not] at h
  exact if_pos h

theorem setRoute_none {destination : RadioNodeId} {radio : ρ} {nextHop : RadioAddress}
    (h : put t.routeTable destination (routeRecord destination radio nextHop) = none) :
    t.setRoute destination radio nextHop = (t, false, []) := by
  have hor := Option.map_eq_none_iff.mp h
  rw [Option.or_eq_none_iff, routeTable_slot?, routeTable_free?] at hor
  unfold setRoute
  rw [hor.1, hor.2]
  exact ite_self _

theorem setRoute_some {destination : RadioNodeId} {radio : ρ} {nextHop : RadioAddress}
    {table : Table b.maxRoutes RadioNodeId (RouteRecord ρ)}
    (hv : t.RouteArguments destination radio nextHop)
    (h : put t.routeTable destination (routeRecord destination radio nextHop)
      = some table) :
    (t.setRoute destination radio nextHop).2.1 = true
      ∧ (t.setRoute destination radio nextHop).1.routeTable = table
      ∧ (t.setRoute destination radio nextHop).1.interfaces = t.interfaces := by
  obtain ⟨i, hor, rfl⟩ := Option.map_eq_some_iff.mp h
  unfold setRoute
  rw [if_neg (routeArguments_iff.mp hv)]
  cases hs : Fin.find? fun i =>
      (t.routes i).used && (t.routes i).destination == destination with
  | some j =>
      rw [routeTable_slot?, hs, Option.some_or] at hor
      injection hor with hor
      subst hor
      have hslot := (Fin.find?_eq_some_iff.mp hs).1
      simp only [Bool.and_eq_true, beq_iff_eq] at hslot
      refine ⟨rfl, ?_, rfl⟩
      dsimp only
      rw [routeTable_update, hslot.1, hslot.2]
      rfl
  | none =>
      rw [routeTable_slot?, hs, Option.none_or, routeTable_free?] at hor
      dsimp only
      rw [hor]
      exact ⟨rfl, routeTable_update, rfl⟩

end RadioTransport

namespace RadioWorker

variable {w : RadioWorker b ρ}

-- ======================================================= both registries

/-- The worker's radios as a table. -/
def radioTable (w : RadioWorker b ρ) : Table b.maxInterfaces ρ Unit := fun i =>
  (w.radios i).map fun radio => (radio, ())

theorem radioTable_eq_some_iff {i : Fin b.maxInterfaces} {radio : ρ} :
    w.radioTable i = some (radio, ()) ↔ w.radios i = some radio := by
  unfold radioTable
  cases w.radios i <;> simp

theorem mem_radioTable_keys {radio : ρ} :
    radio ∈ keys w.radioTable ↔ ∃ i, w.radios i = some radio :=
  exists_congr fun _ =>
    ⟨fun ⟨_, hi⟩ => radioTable_eq_some_iff.mp hi,
      fun hi => ⟨(), radioTable_eq_some_iff.mpr hi⟩⟩

/-- What the tables keep true among themselves: no key twice, the worker's
radios among the transport's, and every route over a registered radio. -/
structure Consistent (w : RadioWorker b ρ) : Prop where
  interfaces : Keyed w.transport.interfaceTable
  routes : Keyed w.transport.routeTable
  radios : Keyed w.radioTable
  serviced : keys w.radioTable ⊆ keys w.transport.interfaceTable
  routed : ∀ i, (w.transport.routes i).used = true →
    (w.transport.routes i).destination ≠ broadcastNode
      ∧ (w.transport.routes i).nextHop.isValid = true
      ∧ ∃ radio, (w.transport.routes i).radio = some radio
        ∧ w.transport.Registered radio

theorem consistent_create (localNode : RadioNodeId) (defaultHopLimit : UInt8) :
    (create localNode defaultHopLimit : RadioWorker b ρ).Consistent where
  interfaces := keyed_empty
  routes := keyed_empty
  radios := keyed_empty
  serviced := by rintro radio ⟨i, v, hi⟩; cases hi
  routed := by intro i hused; cases hused

variable [DecidableEq ρ]

/-- A transport that took a radio keeps the worker's tables
consistent. -/
theorem Consistent.added (hc : w.Consistent) {radio : ρ} {flag : Bool}
    {table : Table b.maxInterfaces ρ Bool}
    (h : put w.transport.interfaceTable radio flag = some table) :
    ({ w with transport := (w.transport.addInterface radio flag).1 } :
      RadioWorker b ρ).Consistent := by
  obtain ⟨-, htable, hroutes⟩ := RadioTransport.addInterface_some h
  have hkept : keys w.transport.interfaceTable ⊆ keys table := by
    rw [keys_put hc.interfaces h]
    exact Set.subset_insert ..
  refine ⟨?_, ?_, hc.radios, ?_, ?_⟩
  · show Keyed (w.transport.addInterface radio flag).1.interfaceTable
    rw [htable]
    exact hc.interfaces.put h
  · show Keyed (w.transport.addInterface radio flag).1.routeTable
    unfold RadioTransport.routeTable
    rw [hroutes]
    exact hc.routes
  · show keys w.radioTable ⊆ keys (w.transport.addInterface radio flag).1.interfaceTable
    rw [htable]
    exact hc.serviced.trans hkept
  · intro i
    show ((w.transport.addInterface radio flag).1.routes i).used = true → _
    simp only [hroutes]
    intro hused
    obtain ⟨hdestination, hvalid, other, hradio, hregistered⟩ := hc.routed i hused
    refine ⟨hdestination, hvalid, other, hradio, ?_⟩
    rw [RadioTransport.registered_iff, htable]
    exact hkept (RadioTransport.registered_iff.mp hregistered)

omit [DecidableEq ρ] in
/-- The worker's table with the radio written to a slot. -/
theorem radioTable_update {i : Fin b.maxInterfaces} {radio : ρ}
    {t : RadioTransport b ρ} :
    radioTable ({ transport := t, radios := Function.update w.radios i (some radio) } :
        RadioWorker b ρ)
      = Function.update w.radioTable i (some (radio, ())) :=
  Function.comp_update (fun radio? : Option ρ => radio?.map fun radio => (radio, ()))
    w.radios i (some radio)

theorem radioTable_slot? (radio : ρ) :
    slot? w.radioTable radio = Fin.find? fun i => w.radios i == some radio := by
  unfold slot?
  congr 1
  funext i
  unfold radioTable
  cases w.radios i <;> simp

omit [DecidableEq ρ] in
theorem radioTable_free? :
    free? w.radioTable = Fin.find? fun i => (w.radios i).isNone := by
  unfold free?
  congr 1
  funext i
  unfold radioTable
  cases w.radios i <;> simp

/-- With the transport's table full of other radios the worker's
`AddInterface` fails, and nothing changes. -/
theorem addInterface_none {radio : ρ} {flag : Bool}
    (h : put w.transport.interfaceTable radio flag = none) :
    w.addInterface radio flag = (w, false, []) := by
  have hadded := RadioTransport.addInterface_none h
  unfold addInterface
  dsimp only
  rw [hadded]
  split
  · rfl
  · split <;> rfl

/-- Entering a radio in the transport's table and in the worker's keeps the
tables consistent. -/
theorem Consistent.attached (hc : w.Consistent) {radio : ρ} {flag : Bool}
    {table : Table b.maxInterfaces ρ Bool}
    (h : put w.transport.interfaceTable radio flag = some table)
    {i : Fin b.maxInterfaces}
    (hput : put w.radioTable radio ()
      = some (Function.update w.radioTable i (some (radio, ())))) :
    ({ transport := (w.transport.addInterface radio flag).1
       radios := Function.update w.radios i (some radio) } : RadioWorker b ρ).Consistent := by
  have hadded := hc.added h
  obtain ⟨-, htable, -⟩ := RadioTransport.addInterface_some h
  refine ⟨hadded.interfaces, hadded.routes, ?_, ?_, hadded.routed⟩
  · rw [radioTable_update]
    exact hc.radios.put hput
  · rw [radioTable_update, keys_put hc.radios hput]
    show _ ⊆ keys (w.transport.addInterface radio flag).1.interfaceTable
    rw [htable, keys_put hc.interfaces h]
    exact Set.insert_subset_insert hc.serviced

/-- Where the transport has room for the radio, so has the worker: its
radios are some of the transport's. -/
theorem Consistent.room (hc : w.Consistent) {radio : ρ} {flag : Bool}
    {table : Table b.maxInterfaces ρ Bool}
    (h : put w.transport.interfaceTable radio flag = some table) :
    (put w.radioTable radio ()).isSome := by
  have hfinite := keys_finite w.transport.interfaceTable
  rw [put_isSome_iff hc.radios]
  by_cases hmem : radio ∈ keys w.radioTable
  · exact Or.inl hmem
  · refine Or.inr ?_
    rcases (put_isSome_iff hc.interfaces).mp (Option.isSome_of_eq_some h) with hin | hlt
    · have hssubset : keys w.radioTable ⊂ keys w.transport.interfaceTable :=
        ⟨hc.serviced, fun hall => hmem (hall hin)⟩
      exact Nat.lt_of_lt_of_le (Set.ncard_lt_ncard hssubset hfinite)
        (ncard_keys_le hc.interfaces)
    · exact Nat.lt_of_le_of_lt (Set.ncard_le_ncard hc.serviced hfinite) hlt

/-- With room in the transport's table, or the radio in it already, the
worker's `AddInterface` succeeds: both have the radio then. -/
theorem addInterface_some (hc : w.Consistent) {radio : ρ} {flag : Bool}
    {table : Table b.maxInterfaces ρ Bool}
    (h : put w.transport.interfaceTable radio flag = some table) :
    (w.addInterface radio flag).2.1 = true
      ∧ (w.addInterface radio flag).1.transport
        = (w.transport.addInterface radio flag).1
      ∧ (w.addInterface radio flag).1.Consistent := by
  have hok := (RadioTransport.addInterface_some h).1
  unfold addInterface
  dsimp only
  rw [hok, ← radioTable_slot?]
  cases hs : slot? w.radioTable radio with
  | some i =>
      dsimp only [Bool.not_true]
      exact ⟨rfl, rfl, hc.added h⟩
  | none =>
      rw [← radioTable_free?]
      cases hf : free? w.radioTable with
      | none =>
          refine absurd (hc.room h) ?_
          unfold put
          rw [hs, hf]
          simp
      | some i =>
          have hput : put w.radioTable radio ()
              = some (Function.update w.radioTable i (some (radio, ()))) := by
            unfold put
            rw [hs, hf]
            rfl
          exact ⟨rfl, rfl, hc.attached h hput⟩

-- ============================================================== one call

/-- The interface flags a call writes: those of the `AddInterface`, the
transport's or the worker's, that succeeds. -/
def interfaceWrites (w : RadioWorker b ρ) : WorkerCall ρ → List (ρ × Option Bool)
  | .transport input =>
      match input.call with
      | .addInterface radio flag =>
          if (w.transport.addInterface radio flag).2.1 then [(radio, some flag)] else []
      | _ => []
  | .addInterface radio flag =>
      if (w.addInterface radio flag).2.1 then [(radio, some flag)] else []

/-- The routes a call writes: that of a `SetRoute` that succeeds;
`RemoveRoute` writes none for its destination. -/
def routeWrites (w : RadioWorker b ρ) :
    WorkerCall ρ → List (RadioNodeId × Option (RouteRecord ρ))
  | .transport input =>
      match input.call with
      | .setRoute destination radio nextHop =>
          if (w.transport.setRoute destination radio nextHop).2.1 then
            [(destination, some (RadioTransport.routeRecord destination radio nextHop))]
          else []
      | .removeRoute destination => [(destination, none)]
      | _ => []
  | .addInterface _ _ => []

omit [DecidableEq ρ] in
/-- With the route table written as `SetRoute` and `RemoveRoute` write
it, the tables stay consistent. -/
private theorem Consistent.routed_of_table (hc : w.Consistent) {t : RadioTransport b ρ}
    (hinterfaces : t.interfaces = w.transport.interfaces)
    (hkeyed : Keyed t.routeTable)
    (hold : ∀ i key route, t.routeTable i = some (key, route) →
      w.transport.routeTable i = some (key, route)
        ∨ ∃ destination radio nextHop,
          w.transport.RouteArguments destination radio nextHop
          ∧ route = RadioTransport.routeRecord destination radio nextHop) :
    ({ w with transport := t } : RadioWorker b ρ).Consistent := by
  have htable : t.interfaceTable = w.transport.interfaceTable := by
    unfold RadioTransport.interfaceTable
    rw [hinterfaces]
  have hregistered : ∀ radio, w.transport.Registered radio → t.Registered radio := by
    intro radio h
    unfold RadioTransport.Registered at h ⊢
    rwa [hinterfaces]
  refine ⟨?_, hkeyed, hc.radios, ?_, fun i hused => ?_⟩
  · show Keyed t.interfaceTable
    rw [htable]
    exact hc.interfaces
  · show keys w.radioTable ⊆ keys t.interfaceTable
    rw [htable]
    exact hc.serviced
  · show (t.routes i).destination ≠ broadcastNode ∧ (t.routes i).nextHop.isValid = true
      ∧ ∃ radio, (t.routes i).radio = some radio ∧ t.Registered radio
    have hslot := RadioTransport.routeTable_eq_some_iff.mpr ⟨rfl, hused, rfl⟩
    rcases hold i _ _ hslot with hwas | ⟨destination, radio, nextHop, ⟨hd, hv, hr⟩, hroute⟩
    · obtain ⟨heq, hwasUsed, -⟩ := RadioTransport.routeTable_eq_some_iff.mp hwas
      obtain ⟨hd, hv, radio, hradio, hr⟩ := hc.routed i (by rw [heq]; exact hwasUsed)
      rw [heq] at hd hv hradio
      exact ⟨hd, hv, radio, hradio, hregistered radio hr⟩
    · rw [hroute]
      exact ⟨hd, hv, radio, rfl, hregistered radio hr⟩

omit [DecidableEq ρ] in
/-- A worker stays consistent when its transport is replaced by one with the
same interfaces and routes. -/
theorem Consistent.congr (hc : w.Consistent) {t : RadioTransport b ρ}
    (hinterfaces : t.interfaces = w.transport.interfaces)
    (hroutes : t.routes = w.transport.routes) :
    ({ w with transport := t } : RadioWorker b ρ).Consistent := by
  have htable : t.routeTable = w.transport.routeTable := by
    unfold RadioTransport.routeTable
    rw [hroutes]
  refine hc.routed_of_table hinterfaces ?_ fun i key route hi => Or.inl ?_
  · rw [htable]
    exact hc.routes
  · rw [← htable]
    exact hi

/-- `SetRoute` on consistent tables: it fails and changes nothing, or
the route map is updated. -/
theorem setRoute_cases (hc : w.Consistent) (destination : RadioNodeId) (radio : ρ)
    (nextHop : RadioAddress) :
    w.transport.setRoute destination radio nextHop = (w.transport, false, [])
      ∨ ((w.transport.setRoute destination radio nextHop).2.1 = true
        ∧ get? (w.transport.setRoute destination radio nextHop).1.routeTable
          = Function.update (get? w.transport.routeTable) destination
            (some (RadioTransport.routeRecord destination radio nextHop))
        ∧ (w.transport.setRoute destination radio nextHop).1.interfaces
          = w.transport.interfaces
        ∧ ({ w with transport := (w.transport.setRoute destination radio nextHop).1 } :
          RadioWorker b ρ).Consistent) := by
  by_cases hv : w.transport.RouteArguments destination radio nextHop
  · cases hput : put w.transport.routeTable destination
        (RadioTransport.routeRecord destination radio nextHop) with
    | none => exact Or.inl (RadioTransport.setRoute_none hput)
    | some table =>
        obtain ⟨hok, htable, hinterfaces⟩ := RadioTransport.setRoute_some hv hput
        refine Or.inr ⟨hok, ?_, hinterfaces, hc.routed_of_table hinterfaces ?_ ?_⟩
        · rw [htable]
          exact get?_put hc.routes hput
        · rw [htable]
          exact hc.routes.put hput
        · intro i key route hi
          rw [htable] at hi
          obtain ⟨j, rfl, -⟩ := put_spec hput
          rcases update_eq_some_iff.mp hi with ⟨-, hi⟩ | ⟨-, hi⟩
          · injection hi with hi
            injection hi with hkey hroute
            exact Or.inr ⟨destination, radio, nextHop, hv, hroute.symm⟩
          · exact Or.inl hi
  · exact Or.inl (RadioTransport.setRoute_invalid hv)

omit [DecidableEq ρ] in
/-- `RemoveRoute` on consistent tables either finds no route and does
nothing, or takes the destination out of the route map. -/
theorem removeRoute_cases (hc : w.Consistent) (destination : RadioNodeId) :
    (w.transport.removeRoute destination = (w.transport, false, [])
        ∧ get? w.transport.routeTable destination = none)
      ∨ ((w.transport.removeRoute destination).2.1 = true
        ∧ get? (w.transport.removeRoute destination).1.routeTable
          = Function.update (get? w.transport.routeTable) destination none
        ∧ (w.transport.removeRoute destination).1.interfaces = w.transport.interfaces
        ∧ ({ w with transport := (w.transport.removeRoute destination).1 } :
          RadioWorker b ρ).Consistent) := by
  cases hdrop : drop w.transport.routeTable destination with
  | none =>
      refine Or.inl ⟨RadioTransport.removeRoute_none hdrop, ?_⟩
      rw [drop_eq_none_iff, ← get?_isSome_iff hc.routes] at hdrop
      simpa using hdrop
  | some table =>
      obtain ⟨hok, htable, hinterfaces⟩ := RadioTransport.removeRoute_some hdrop
      have hroutes : Keyed (w.transport.removeRoute destination).1.routeTable := by
        rw [htable]
        exact hc.routes.drop hdrop
      refine Or.inr ⟨hok, ?_, hinterfaces,
        hc.routed_of_table hinterfaces hroutes ?_⟩
      · rw [htable]
        exact get?_drop hc.routes hdrop
      · intro i key route hi
        rw [htable] at hi
        obtain ⟨j, -, rfl⟩ := Option.map_eq_some_iff.mp hdrop
        rcases update_eq_some_iff.mp hi with ⟨-, hi⟩ | ⟨-, hi⟩
        · cases hi
        · exact Or.inl hi

/-- Every call, the worker's or the transport's, keeps the tables
consistent. -/
theorem Consistent.after (hc : w.Consistent) (call : WorkerCall ρ) :
    (w.after call).Consistent := by
  cases call with
  | addInterface radio flag =>
      show (w.addInterface radio flag).1.Consistent
      cases hput : put w.transport.interfaceTable radio flag with
      | none => rw [addInterface_none hput]; exact hc
      | some table => exact (addInterface_some hc hput).2.2
  | transport input =>
      obtain ⟨radios, call⟩ := input
      cases call with
      | addInterface radio flag =>
          show ({ w with transport := (w.transport.addInterface radio flag).1 } :
            RadioWorker b ρ).Consistent
          cases hput : put w.transport.interfaceTable radio flag with
          | none => rw [RadioTransport.addInterface_none hput]; exact hc
          | some table => exact hc.added hput
      | setRoute destination radio nextHop =>
          show ({ w with transport := (w.transport.setRoute destination radio nextHop).1 } :
            RadioWorker b ρ).Consistent
          rcases setRoute_cases hc destination radio nextHop with heq | ⟨-, -, -, hc'⟩
          · rw [heq]; exact hc
          · exact hc'
      | removeRoute destination =>
          show ({ w with transport := (w.transport.removeRoute destination).1 } :
            RadioWorker b ρ).Consistent
          rcases removeRoute_cases hc destination with ⟨heq, -⟩ | ⟨-, -, -, hc'⟩
          · rw [heq]; exact hc
          · exact hc'
      | _ =>
          exact hc.congr (w.transport.after_interfaces (by simp))
            (w.transport.after_routes (by simp) (by simp))

/-- After a call the interface map is still the replay of the writes so far. -/
theorem interfaces_step (hc : w.Consistent) {log : List (ρ × Option Bool)}
    (hlog : get? w.transport.interfaceTable = replay log) (call : WorkerCall ρ) :
    get? (w.after call).transport.interfaceTable
      = replay (log ++ w.interfaceWrites call) := by
  have hquiet : ∀ t : RadioTransport b ρ, t.interfaces = w.transport.interfaces →
      get? t.interfaceTable = replay (log ++ []) := by
    intro t hinterfaces
    rw [List.append_nil, ← hlog]
    unfold RadioTransport.interfaceTable
    rw [hinterfaces]
  have hadded : ∀ radio flag table, put w.transport.interfaceTable radio flag = some table →
      get? (w.transport.addInterface radio flag).1.interfaceTable
        = replay (log ++ [(radio, some flag)]) := by
    intro radio flag table hput
    rw [(RadioTransport.addInterface_some hput).2.1, get?_put hc.interfaces hput,
      replay_concat, hlog]
  -- both `AddInterface` calls write the table, no other does
  cases call with
  | addInterface radio flag =>
      show get? (w.addInterface radio flag).1.transport.interfaceTable
        = replay (log ++ if (w.addInterface radio flag).2.1 then [(radio, some flag)]
          else [])
      cases hput : put w.transport.interfaceTable radio flag with
      | none =>
          rw [addInterface_none hput]
          exact hquiet _ rfl
      | some table =>
          obtain ⟨hok, htransport, -⟩ := addInterface_some hc hput
          rw [htransport, hok]
          exact hadded radio flag table hput
  | transport input =>
      obtain ⟨radios, call⟩ := input
      cases call with
      | addInterface radio flag =>
          show get? (w.transport.addInterface radio flag).1.interfaceTable
            = replay (log ++ if (w.transport.addInterface radio flag).2.1 then
              [(radio, some flag)] else [])
          cases hput : put w.transport.interfaceTable radio flag with
          | none =>
              rw [RadioTransport.addInterface_none hput]
              exact hquiet _ rfl
          | some table =>
              rw [(RadioTransport.addInterface_some hput).1]
              exact hadded radio flag table hput
      | _ => exact hquiet _ (w.transport.after_interfaces (by simp))

/-- After a call the route map is still the replay of the writes so far. -/
theorem routes_step (hc : w.Consistent)
    {log : List (RadioNodeId × Option (RouteRecord ρ))}
    (hlog : get? w.transport.routeTable = replay log) (call : WorkerCall ρ) :
    get? (w.after call).transport.routeTable = replay (log ++ w.routeWrites call) := by
  have hquiet : ∀ t : RadioTransport b ρ, t.routes = w.transport.routes →
      get? t.routeTable = replay (log ++ []) := by
    intro t hroutes
    rw [List.append_nil, ← hlog]
    unfold RadioTransport.routeTable
    rw [hroutes]
  cases call with
  | addInterface radio flag =>
      show get? (w.addInterface radio flag).1.transport.routeTable = _
      cases hput : put w.transport.interfaceTable radio flag with
      | none =>
          rw [addInterface_none hput]
          exact hquiet _ rfl
      | some table =>
          rw [(addInterface_some hc hput).2.1]
          exact hquiet _ (RadioTransport.addInterface_some hput).2.2
  | transport input =>
      obtain ⟨radios, call⟩ := input
      cases call with
      | setRoute destination radio nextHop =>
          show get? (w.transport.setRoute destination radio nextHop).1.routeTable
            = replay (log ++ if (w.transport.setRoute destination radio nextHop).2.1 then
              [(destination,
                some (RadioTransport.routeRecord destination radio nextHop))] else [])
          rcases setRoute_cases hc destination radio nextHop with heq | ⟨hok, hmap, -⟩
          · rw [heq]
            exact hquiet _ rfl
          · rw [hok, hmap, hlog, if_pos rfl, replay_concat]
      | removeRoute destination =>
          -- without a route the removal is logged all the same: the map has none to
          -- lose
          show get? (w.transport.removeRoute destination).1.routeTable
            = replay (log ++ [(destination, none)])
          rw [replay_concat, ← hlog]
          rcases removeRoute_cases hc destination with ⟨heq, hnone⟩ | ⟨-, hmap, -⟩
          · rw [heq, ← hnone, Function.update_eq_self]
          · exact hmap
      | _ => exact hquiet _ (w.transport.after_routes (by simp) (by simp))

-- ================================================================ runs

/-- The tables after a run with these writes, as maps. -/
structure Topology (w : RadioWorker b ρ) (interfaceLog : List (ρ × Option Bool))
    (routeLog : List (RadioNodeId × Option (RouteRecord ρ))) : Prop where
  interface_once : ∀ i j radio, (w.transport.interfaces i).radio = some radio →
    (w.transport.interfaces j).radio = some radio → i = j
  interface_iff : ∀ radio flag,
    (∃ i, w.transport.interfaces i = { radio := some radio, defaultRoute := flag })
      ↔ LastWrite interfaceLog radio flag
  findRoute_iff : ∀ destination route,
    w.transport.findRoute destination = some route ↔ LastWrite routeLog destination route
  route_once : ∀ i j, (w.transport.routes i).used = true →
    (w.transport.routes j).used = true →
    (w.transport.routes i).destination = (w.transport.routes j).destination → i = j
  route_valid : ∀ i, (w.transport.routes i).used = true →
    (w.transport.routes i).destination ≠ broadcastNode
      ∧ (w.transport.routes i).nextHop.isValid = true
      ∧ ∃ radio, (w.transport.routes i).radio = some radio
        ∧ w.transport.Registered radio
  radio_once : ∀ i j radio, w.radios i = some radio → w.radios j = some radio → i = j
  radio_registered : ∀ i radio, w.radios i = some radio → w.transport.Registered radio

/-- What the calls of the topology answer in this state, and that one that
fails changes nothing. -/
structure Answers (w : RadioWorker b ρ) : Prop where
  setRoute_iff : ∀ destination radio nextHop,
    (w.transport.setRoute destination radio nextHop).2.1 = true
      ↔ destination ≠ broadcastNode ∧ nextHop.isValid = true
        ∧ w.transport.Registered radio
        ∧ (w.transport.Routed destination
          ∨ {present | w.transport.Routed present}.ncard < b.maxRoutes)
  addInterface_failed_iff : ∀ radio flag,
    (w.addInterface radio flag).2.1 = false
      ↔ ∀ i, ∃ other, (w.transport.interfaces i).radio = some other ∧ other ≠ radio
  addInterface_failed : ∀ radio flag, (w.addInterface radio flag).2.1 = false →
    (w.addInterface radio flag).1 = w
  transport_failed : ∀ radio flag, (w.transport.addInterface radio flag).2.1 = false →
    (w.transport.addInterface radio flag).1 = w.transport
  setRoute_failed : ∀ destination radio nextHop,
    (w.transport.setRoute destination radio nextHop).2.1 = false →
    (w.transport.setRoute destination radio nextHop).1 = w.transport
  removeRoute_failed : ∀ destination,
    (w.transport.removeRoute destination).2.1 = false →
    (w.transport.removeRoute destination).1 = w.transport

omit [DecidableEq ρ] in
/-- `FindRoute` looks the destination up in the route map. -/
theorem Consistent.findRoute_eq (hc : w.Consistent) (destination : RadioNodeId) :
    w.transport.findRoute destination = get? w.transport.routeTable destination := by
  refine Option.ext fun route => ?_
  rw [get?_eq_some_iff hc.routes]
  unfold RadioTransport.findRoute
  constructor
  · intro h
    obtain ⟨i, hi, rfl⟩ := Option.map_eq_some_iff.mp h
    have hslot := (Fin.find?_eq_some_iff.mp hi).1
    simp only [Bool.and_eq_true, beq_iff_eq] at hslot
    exact ⟨i, RadioTransport.routeTable_eq_some_iff.mpr ⟨rfl, hslot.1.1, hslot.1.2⟩⟩
  · rintro ⟨i, hi⟩
    obtain ⟨heq, hused, hdestination⟩ := RadioTransport.routeTable_eq_some_iff.mp hi
    obtain ⟨-, -, radio, hradio, -⟩ := hc.routed i (by rw [heq]; exact hused)
    rw [heq] at hradio
    have hfind : (Fin.find? fun j => (w.transport.routes j).used
        && (w.transport.routes j).destination == destination
        && (w.transport.routes j).radio.isSome) = some i := by
      rw [Fin.find?_eq_some_iff]
      refine ⟨by simp [heq, hused, hdestination, hradio], fun j hji => ?_⟩
      by_contra hother
      simp only [Bool.not_eq_false, Bool.and_eq_true, beq_iff_eq] at hother
      have hj := RadioTransport.routeTable_eq_some_iff.mpr
        ⟨rfl, hother.1.1, hother.1.2⟩
      exact absurd (hc.routes hj hi) (Fin.ne_of_lt hji)
    rw [hfind, Option.map_some, heq]

theorem Consistent.topology (hc : w.Consistent) {interfaceLog : List (ρ × Option Bool)}
    {routeLog : List (RadioNodeId × Option (RouteRecord ρ))}
    (hinterfaces : get? w.transport.interfaceTable = replay interfaceLog)
    (hroutes : get? w.transport.routeTable = replay routeLog) :
    w.Topology interfaceLog routeLog where
  interface_once := by
    intro i j radio hi hj
    exact hc.interfaces (RadioTransport.interfaceTable_of_radio hi)
      (RadioTransport.interfaceTable_of_radio hj)
  interface_iff := by
    intro radio flag
    rw [← replay_eq_some_iff, ← hinterfaces, get?_eq_some_iff hc.interfaces]
    exact exists_congr fun i => RadioTransport.interfaceTable_eq_some_iff.symm
  findRoute_iff := by
    intro destination route
    rw [← replay_eq_some_iff, ← hroutes, hc.findRoute_eq]
  route_once := by
    intro i j hi hj heq
    exact hc.routes (RadioTransport.routeTable_eq_some_iff.mpr ⟨rfl, hi, heq⟩)
      (RadioTransport.routeTable_eq_some_iff.mpr ⟨rfl, hj, rfl⟩)
  route_valid := hc.routed
  radio_once := by
    intro i j radio hi hj
    exact hc.radios (radioTable_eq_some_iff.mpr hi) (radioTable_eq_some_iff.mpr hj)
  radio_registered := by
    intro i radio hi
    exact RadioTransport.registered_iff.mpr
      (hc.serviced (mem_radioTable_keys.mpr ⟨i, hi⟩))

theorem Consistent.setRoute_iff (hc : w.Consistent) (destination : RadioNodeId)
    (radio : ρ) (nextHop : RadioAddress) :
    (w.transport.setRoute destination radio nextHop).2.1 = true
      ↔ destination ≠ broadcastNode ∧ nextHop.isValid = true
        ∧ w.transport.Registered radio
        ∧ (w.transport.Routed destination
          ∨ {present | w.transport.Routed present}.ncard < b.maxRoutes) := by
  have hpresent : {present | w.transport.Routed present} = keys w.transport.routeTable :=
    Set.ext fun _ => RadioTransport.routed_iff
  rw [hpresent, RadioTransport.routed_iff]
  by_cases hv : w.transport.RouteArguments destination radio nextHop
  · have hroom := put_isSome_iff (k := destination)
      (v := RadioTransport.routeRecord destination radio nextHop) hc.routes
    obtain ⟨hd, hhop, hr⟩ := hv
    simp only [ne_eq, hd, not_false_eq_true, hhop, hr, true_and, ← hroom]
    cases hput : put w.transport.routeTable destination
        (RadioTransport.routeRecord destination radio nextHop) with
    | none => rw [RadioTransport.setRoute_none hput]; simp
    | some table => simp [(RadioTransport.setRoute_some ⟨hd, hhop, hr⟩ hput).1]
  · rw [RadioTransport.setRoute_invalid hv]
    refine iff_of_false (by simp) fun h => hv ⟨h.1, h.2.1, h.2.2.1⟩

theorem Consistent.addInterface_failed_iff (hc : w.Consistent) (radio : ρ)
    (flag : Bool) :
    (w.addInterface radio flag).2.1 = false
      ↔ ∀ i, ∃ other, (w.transport.interfaces i).radio = some other
        ∧ other ≠ radio := by
  have hfull : (∀ i, ∃ other, (w.transport.interfaces i).radio = some other
      ∧ other ≠ radio) ↔ put w.transport.interfaceTable radio flag = none := by
    rw [← Option.not_isSome_iff_eq_none, put_isSome_iff hc.interfaces, not_or,
      ← exists_free_iff hc.interfaces, ← RadioTransport.registered_iff]
    constructor
    · intro hall
      refine ⟨fun ⟨i, hi⟩ => ?_, fun ⟨i, hi⟩ => ?_⟩
      · obtain ⟨other, hother, hne⟩ := hall i
        exact hne (Option.some.inj (hother.symm.trans hi))
      · obtain ⟨other, hother, -⟩ := hall i
        simp [RadioTransport.interfaceTable, hother] at hi
    · rintro ⟨hno, hnofree⟩ i
      cases hradio : (w.transport.interfaces i).radio with
      | none =>
          exact absurd ⟨i, by simp [RadioTransport.interfaceTable, hradio]⟩ hnofree
      | some other =>
          exact ⟨other, rfl, fun heq => hno ⟨i, by rw [hradio, heq]⟩⟩
  rw [hfull]
  cases hput : put w.transport.interfaceTable radio flag with
  | none => rw [addInterface_none hput]; simp
  | some table => simp [(addInterface_some hc hput).1]

theorem Consistent.answers (hc : w.Consistent) : w.Answers where
  setRoute_iff := hc.setRoute_iff
  addInterface_failed_iff := hc.addInterface_failed_iff
  addInterface_failed := by
    intro radio flag hfailed
    cases hput : put w.transport.interfaceTable radio flag with
    | none => rw [addInterface_none hput]
    | some table => simp [(addInterface_some hc hput).1] at hfailed
  transport_failed := by
    intro radio flag hfailed
    cases hput : put w.transport.interfaceTable radio flag with
    | none => rw [RadioTransport.addInterface_none hput]
    | some table => simp [(RadioTransport.addInterface_some hput).1] at hfailed
  setRoute_failed := by
    intro destination radio nextHop hfailed
    rcases setRoute_cases hc destination radio nextHop with heq | ⟨hok, -⟩
    · rw [heq]
    · simp [hok] at hfailed
  removeRoute_failed := by
    intro destination hfailed
    rcases removeRoute_cases hc destination with ⟨heq, -⟩ | ⟨hok, -⟩
    · rw [heq]
    · simp [hok] at hfailed

/-- After any run of the transport's and the worker's calls, in any order,
the tables are the maps that their successful writes make, and each call
answers by those maps. -/
theorem tables_refine_maps (localNode : RadioNodeId) (defaultHopLimit : UInt8)
    (calls : List (WorkerCall ρ)) :
    (Observed.run (after (b := b)) (create localNode defaultHopLimit) calls).Topology
        (Observed.trace (after (b := b)) interfaceWrites
          (create localNode defaultHopLimit) calls)
        (Observed.trace (after (b := b)) routeWrites
          (create localNode defaultHopLimit) calls)
      ∧ (Observed.run (after (b := b)) (create localNode defaultHopLimit) calls).Answers := by
  have hnew := consistent_create (b := b) (ρ := ρ) localNode defaultHopLimit
  have hinterfaces := Observed.history_run
    (R := fun (w : RadioWorker b ρ) log =>
      w.Consistent ∧ get? w.transport.interfaceTable = replay log)
    (fun w log call h => ⟨h.1.after call, interfaces_step h.1 h.2 call⟩)
    (h := []) ⟨hnew, get?_empty⟩ calls
  have hroutes := Observed.history_run
    (R := fun (w : RadioWorker b ρ) log =>
      w.Consistent ∧ get? w.transport.routeTable = replay log)
    (fun w log call h => ⟨h.1.after call, routes_step h.1 h.2 call⟩)
    (h := []) ⟨hnew, get?_empty⟩ calls
  exact ⟨hinterfaces.1.topology hinterfaces.2 hroutes.2, hinterfaces.1.answers⟩

end RadioWorker

end EspressioRadio
