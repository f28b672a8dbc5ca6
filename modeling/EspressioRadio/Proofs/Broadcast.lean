/-
Where broadcast frames go.

`SendFramed` picks a radio and an address in three ways. A route's next
hop was tested when it was set. The broadcast loop asks each radio for
`RadioCapability::Broadcast`; the default interface is not asked. Both
take the radio's own broadcast address, which is the empty address when
the radio reports a length out of range. `Addressable` is what that
leaves to the topology and the radios, and `sends_permitted_iff` that
nothing else is left to them.
-/
import EspressioRadio.Proofs.Arrival
import Mathlib.Data.List.OfFn

namespace EspressioRadio

open Chunks

variable {b : Bounds} {ρ : Type}

-- =========================================================== addresses

/-- The address lengths for which `RadioAddress::Broadcast` gives an
address. -/
def AddressLength (n : UInt8) : Prop :=
  0 < n.toNat ∧ n.toNat ≤ maximumRadioAddressBytes

theorem RadioAddress.isValid_iff {a : RadioAddress} :
    a.isValid = true ↔ AddressLength a.length := by
  simp [isValid, AddressLength, UInt8.lt_iff_toNat_lt]

private theorem broadcast_of_length {n : UInt8} (hn : AddressLength n) :
    RadioAddress.broadcast n
      = { bytes := Vector.ofFn fun i => if i.val < n.toNat then 0xFF else 0
          length := n } := by
  have hzero : n ≠ 0 := fun h => by simp [AddressLength, h] at hn
  have hlong : ¬ n.toNat > maximumRadioAddressBytes := Nat.not_lt.mpr hn.2
  simp [RadioAddress.broadcast, hzero, hlong]

private theorem broadcast_of_not_length {n : UInt8} (hn : ¬ AddressLength n) :
    RadioAddress.broadcast n = {} := by
  unfold RadioAddress.broadcast
  refine if_pos ?_
  by_contra hno
  simp only [Bool.or_eq_true, decide_eq_true_eq, not_or] at hno
  refine hn ⟨Nat.pos_of_ne_zero fun h => hno.1 ?_, Nat.not_lt.mp hno.2⟩
  exact UInt8.toNat_inj.mp h

theorem RadioAddress.isValid_broadcast (n : UInt8) :
    (RadioAddress.broadcast n).isValid = true ↔ AddressLength n := by
  by_cases hn : AddressLength n
  · rw [isValid_iff, broadcast_of_length hn]
  · rw [broadcast_of_not_length hn]
    exact iff_of_false (by decide) hn

/-- The broadcast address of any such length is recognized as one: every
byte in use is `0xFF`. -/
theorem RadioAddress.isBroadcast_broadcast {n : UInt8} (hn : AddressLength n) :
    (RadioAddress.broadcast n).isBroadcast = true := by
  have hvalid := (isValid_broadcast n).mpr hn
  rw [isBroadcast, hvalid, Bool.true_and, octets, broadcast_of_length hn]
  refine List.all_eq_true.mpr fun byte hbyte => ?_
  obtain ⟨i, hi, rfl⟩ := List.mem_iff_getElem.mp hbyte
  have hin : i < n.toNat := by simp at hi; omega
  simp [hin]

-- ============================================================== one send

/-- The address is valid, and a broadcast address only for a radio that
advertises broadcast. -/
def Permitted (radios : Radios ρ) (radio : ρ) (address : RadioAddress) : Prop :=
  address.isValid = true
    ∧ (address.isBroadcast = true → (radios.capabilities radio).has .broadcast = true)

variable {radios : Radios ρ} {radio : ρ} {m : Outbound}

/-- A radio's own broadcast address is permitted exactly when its addresses
have such a length and the radio can broadcast. -/
theorem permitted_broadcast_iff :
    Permitted radios radio
        (RadioAddress.broadcast (radios.capabilities radio).addressBytes)
      ↔ AddressLength (radios.capabilities radio).addressBytes
        ∧ (radios.capabilities radio).has .broadcast = true := by
  unfold Permitted
  rw [RadioAddress.isValid_broadcast]
  constructor
  · rintro ⟨hn, himp⟩
    exact ⟨hn, himp (RadioAddress.isBroadcast_broadcast hn)⟩
  · rintro ⟨hn, hhas⟩
    exact ⟨hn, fun _ => hhas⟩

/-- Past its checks `SendVia` makes at least one call of the radio. -/
theorem sendVia_reaches {nextHop : RadioAddress}
    (hg : SendViaGuard b radios radio m.payload) :
    (sendVia b radios radio nextHop m).2 ≠ [] := by
  have hpos : (0 : UInt8)
      < fragmentTotal m.payload (fragmentPayloadBytes radios radio) := by
    rw [UInt8.lt_iff_toNat_lt, hg.sendable.fragmentTotal_toNat]
    exact chunkCount_pos hg.sendable.chunk_pos
  rw [sendVia_eq hg]
  unfold sendFragments
  rw [dif_pos hpos]
  dsimp only
  split <;> simp

theorem sendVia_permitted_iff {nextHop : RadioAddress} :
    (∀ call ∈ (sendVia b radios radio nextHop m).2,
        Permitted radios call.radio call.nextHop)
      ↔ (SendViaGuard b radios radio m.payload → Permitted radios radio nextHop) := by
  by_cases hg : SendViaGuard b radios radio m.payload
  · have hcalls : ∀ call ∈ (sendVia b radios radio nextHop m).2,
        call.radio = radio ∧ call.nextHop = nextHop := by
      intro call hcall
      rw [sendVia_eq hg] at hcall
      obtain ⟨hradio, hhop, -⟩ := sendFragments_calls call hcall
      exact ⟨hradio, hhop⟩
    constructor
    · intro hall _
      obtain ⟨call, hcall⟩ := List.exists_mem_of_ne_nil _ (sendVia_reaches hg)
      obtain ⟨hradio, hhop⟩ := hcalls call hcall
      have := hall call hcall
      rwa [hradio, hhop] at this
    · intro himp call hcall
      obtain ⟨hradio, hhop⟩ := hcalls call hcall
      rw [hradio, hhop]
      exact himp hg
  · rw [(sendVia_refused hg).1]
    exact iff_of_true (fun call hcall => by cases hcall) fun h => absurd h hg

namespace RadioTransport

variable {t t' : RadioTransport b ρ}

/-- What the broadcast loop needs of a radio it asked. -/
theorem sendBroadcast_permitted_iff (records : List (InterfaceRecord ρ)) :
    ∀ (sent : Bool) (last : RadioTransportSendResult),
      (∀ call ∈ (sendBroadcast (b := b) radios m records sent last).2,
          Permitted radios call.radio call.nextHop)
        ↔ ∀ record ∈ records, ∀ radio, record.radio = some radio →
          (radios.capabilities radio).has .broadcast = true →
          SendViaGuard b radios radio m.payload →
          AddressLength (radios.capabilities radio).addressBytes := by
  induction records with
  | nil =>
      intro sent last
      exact iff_of_true (fun call hcall => by cases hcall)
        (fun record hrecord => by cases hrecord)
  | cons record records ih =>
      intro sent last
      rw [List.forall_mem_cons]
      unfold sendBroadcast
      split
      · next hnone => simp [ih, hnone]
      · next radio hradio =>
        split
        · next hhas =>
          have hhas' : (radios.capabilities radio).has .broadcast = false := by
            simpa using hhas
          simp [ih, hradio, hhas']
        · next hhas =>
          have hhas' : (radios.capabilities radio).has .broadcast = true := by
            simpa using hhas
          -- whichever way the radio's own send turned out, the loop goes on
          have hrest : ∀ sent' last' sent'' last'',
              (∀ call ∈ (if (sendVia b radios radio (RadioAddress.broadcast
                    (radios.capabilities radio).addressBytes) m).1.ok then
                  sendBroadcast (b := b) radios m records sent' last'
                else sendBroadcast radios m records sent'' last'').2,
                Permitted radios call.radio call.nextHop)
              ↔ _ := fun sent' last' sent'' last'' => by
            split
            · exact ih sent' last'
            · exact ih sent'' last''
          dsimp only
          rw [List.forall_mem_append, hrest, sendVia_permitted_iff,
            permitted_broadcast_iff]
          simp [hradio, hhas']

-- ============================================================ selection

/-- Every route leads to a valid address that is not for everyone. -/
def RoutesAddressed (t : RadioTransport b ρ) : Prop :=
  ∀ i, (t.routes i).used = true →
    (t.routes i).nextHop.isValid = true ∧ (t.routes i).nextHop.isBroadcast = false

theorem findRoute_eq_some {destination : RadioNodeId} {route : RouteRecord ρ}
    (hfind : t.findRoute destination = some route) :
    ∃ i, t.routes i = route ∧ route.used = true ∧ route.destination = destination
      ∧ route.radio.isSome = true := by
  obtain ⟨i, hi, rfl⟩ := Option.map_eq_some_iff.mp hfind
  have := (Fin.find?_eq_some_iff.mp hi).1
  simp only [Bool.and_eq_true, beq_iff_eq] at this
  exact ⟨i, rfl, this.1.1, this.1.2, this.2⟩

/-- What a message needs of the topology and the radios, for its
broadcasts to be permitted: every radio the broadcast loop sends it over
has a broadcast address; the default interface, if a message without a
route can be sent over it, has one too and advertises broadcast. -/
def Addressable (t : RadioTransport b ρ) (radios : Radios ρ) (m : Outbound) : Prop :=
  if m.destination = broadcastNode then
    ∀ i radio, (t.interfaces i).radio = some radio →
      (radios.capabilities radio).has .broadcast = true →
      SendViaGuard b radios radio m.payload →
      AddressLength (radios.capabilities radio).addressBytes
  else
    t.findRoute m.destination = none →
      ∀ record radio, t.findDefaultInterface = some record →
        record.radio = some radio → SendViaGuard b radios radio m.payload →
        AddressLength (radios.capabilities radio).addressBytes
          ∧ (radios.capabilities radio).has .broadcast = true

theorem sendFramed_permitted_iff (hroutes : t.RoutesAddressed) :
    (∀ call ∈ (t.sendFramed radios m).2, Permitted radios call.radio call.nextHop)
      ↔ t.Addressable radios m := by
  unfold Addressable
  split
  · next hd =>
    have heq : t.sendFramed radios m = sendBroadcast (b := b) radios m
        (List.ofFn t.interfaces) false ⟨.noRoute, {}⟩ := if_pos hd
    rw [heq, sendBroadcast_permitted_iff, List.forall_mem_ofFn_iff]
  · next hd =>
    cases hroute : t.findRoute m.destination with
    | some route =>
        -- over a route nothing more is asked: its next hop is a single receiver
        obtain ⟨i, rfl, hused, -, hsome⟩ := findRoute_eq_some hroute
        obtain ⟨radio, hradio⟩ := Option.isSome_iff_exists.mp hsome
        rw [sendFramed_route hd hroute hradio, sendVia_permitted_iff]
        obtain ⟨hvalid, hone⟩ := hroutes i hused
        refine iff_of_true (fun _ => ⟨hvalid, fun hall => ?_⟩) (fun h => by cases h)
        rw [hone] at hall
        cases hall
    | none =>
        cases hdefault : t.findDefaultInterface with
        | none =>
            have heq : (t.sendFramed radios m).2 = [] := by
              unfold sendFramed
              rw [if_neg hd, hroute]
              dsimp only
              rw [hdefault]
            rw [heq]
            exact iff_of_true (fun call hcall => by cases hcall)
              (fun _ record radio h => by cases h)
        | some record =>
            -- without one the message is a broadcast on the default interface
            obtain ⟨i, hi, rfl⟩ := Option.map_eq_some_iff.mp hdefault
            have hsome := (Fin.find?_eq_some_iff.mp hi).1
            simp only [Bool.and_eq_true] at hsome
            obtain ⟨radio, hradio⟩ := Option.isSome_iff_exists.mp hsome.1
            rw [sendFramed_default hd hroute hdefault hradio, sendVia_permitted_iff,
              permitted_broadcast_iff]
            constructor
            · intro himp _ record' radio' hrecord hradio' hg
              obtain rfl := Option.some.inj hrecord
              obtain rfl := Option.some.inj (hradio.symm.trans hradio')
              exact himp hg
            · intro himp hg
              exact himp rfl _ radio rfl hradio hg

-- ====================================================== what calls send

/-- Every `radio.Send` among these events, in order. -/
def sendCalls (events : List (Event ρ)) : List (SendCall ρ) :=
  events.filterMap fun
    | .radioSend call => some call
    | _ => none

private theorem sendCalls_append (xs ys : List (Event ρ)) :
    sendCalls (xs ++ ys) = sendCalls xs ++ sendCalls ys :=
  List.filterMap_append

private theorem sendCalls_map_radioSend (calls : List (SendCall ρ)) :
    sendCalls (calls.map .radioSend) = calls := by
  simp [sendCalls, List.filterMap_map]

private theorem sendCalls_map_none {α : Type} {f : α → Event ρ}
    (hf : ∀ x call, f x ≠ .radioSend call) (xs : List α) :
    sendCalls (xs.map f) = [] := by
  refine List.filterMap_eq_nil_iff.mpr fun e he => ?_
  obtain ⟨x, -, rfl⟩ := List.mem_map.mp he
  split
  · next call heq => exact absurd heq (hf x call)
  · rfl

/-- What a completed slot is passed on as, if it is. -/
def passedOn (t : RadioTransport b ρ) (slot : ReassemblyRecord) : Option Outbound :=
  if slot.destination = t.localNode ∨ slot.destination = broadcastNode then none
  else if slot.hopLimit > 0 then some slot.forwarded else none

/-- The message a packet completes for another node, if it does. -/
def forwarding (t : RadioTransport b ρ) (packet : List UInt8) : Option Outbound :=
  match t.receiveFragment packet with
  | (_, none) => none
  | (t, some i) =>
      if (t.reassemblies i).isComplete
          ∧ ¬ t.isRecent (t.reassemblies i).identity.header then
        t.passedOn (t.reassemblies i)
      else none

/-- The message a call hands to `SendFramed`, if any: a public `Send`
its own, a packet the message it is to forward. -/
def handed (t : RadioTransport b ρ) : Call ρ → Option Outbound
  | .processInboundPacket packet => t.forwarding packet
  | call => t.framing call

theorem sendFramed_congr (hinterfaces : t'.interfaces = t.interfaces)
    (hroutes : t'.routes = t.routes) (radios : Radios ρ) (m : Outbound) :
    t'.sendFramed radios m = t.sendFramed radios m := by
  unfold sendFramed findRoute findDefaultInterface
  rw [hinterfaces, hroutes]

private theorem dispatch_sendCalls (t : RadioTransport b ρ) (radios : Radios ρ)
    (slot : ReassemblyRecord) :
    sendCalls (t.dispatch radios slot)
      = ((t.passedOn slot).map fun m => (t.sendFramed radios m).2).getD [] := by
  unfold passedOn
  split
  · next hd =>
    rw [dispatch_local hd]
    split <;> rfl
  · next hd =>
    split
    · next hh =>
      rw [dispatch_forward hd hh, sendCalls_append, sendCalls_map_radioSend]
      simp [sendCalls]
    · next hh => rw [dispatch_exhausted hd hh]; rfl

private theorem processInboundPacket_sendCalls (t : RadioTransport b ρ)
    (radios : Radios ρ) (packet : List UInt8) :
    sendCalls (t.processInboundPacket radios packet).2
      = ((t.forwarding packet).map fun m => (t.sendFramed radios m).2).getD [] := by
  obtain ⟨slots, touch, hmoved⟩ := t.receiveFragment_moves packet
  unfold processInboundPacket forwarding
  generalize t.receiveFragment packet = r at hmoved ⊢
  obtain ⟨t₁, taken⟩ := r
  simp only at hmoved
  cases taken with
  | none => rfl
  | some i =>
      -- the ring and the slots decide nothing about where a message goes
      have hsend : ∀ h m, (t₁.remember h).sendFramed radios m = t.sendFramed radios m :=
        fun h m => sendFramed_congr (by rw [hmoved]; rfl) (by rw [hmoved]; rfl) radios m
      dsimp only
      by_cases hc : (t₁.reassemblies i).isComplete = true
      · rw [if_pos hc]
        unfold complete
        dsimp only
        by_cases hrecent : t₁.isRecent (t₁.reassemblies i).identity.header = true
        · rw [if_pos hrecent, if_neg fun h => h.2 hrecent]
          rfl
        · rw [if_neg hrecent, if_pos ⟨hc, hrecent⟩, dispatch_sendCalls]
          simp only [hsend]
          rfl
      · rw [if_neg hc, if_neg fun h => hc h.1]
        rfl

variable [DecidableEq ρ]

/-- A call sends what `SendFramed` makes of the message handed to it,
and nothing else. -/
theorem effects_sendCalls (t : RadioTransport b ρ) (input : Input ρ) :
    sendCalls (t.effects input)
      = ((t.handed input.call).map fun m => (t.sendFramed input.radios m).2).getD [] := by
  obtain ⟨radios, call⟩ := input
  unfold effects perform
  cases call with
  | processInboundPacket packet => exact processInboundPacket_sendCalls t radios packet
  | send destination channel payload =>
      dsimp only [send, handed, framing]
      split
      · rfl
      · cases payload.get? with
        | none => rfl
        | some bytes =>
            simp [sendCalls]
  | start =>
      dsimp only [start]
      rw [sendCalls_append, sendCalls_map_none (by simp)]
      split <;> rfl
  | stop =>
      dsimp only [stop]
      rw [sendCalls_append, sendCalls_map_none (by simp)]
      split <;> rfl
  | addInterface radio defaultRoute =>
      dsimp only [addInterface]
      split
      · rfl
      · split <;> rfl
  | setRoute destination radio nextHop =>
      dsimp only [setRoute]
      split
      · rfl
      · split
        · rfl
        · split <;> rfl
  | removeRoute destination =>
      dsimp only [removeRoute]
      split <;> rfl
  | setReceiver present => rfl

/-- The call's sends are permitted exactly when its message is
addressable. -/
theorem effects_permitted_iff (hroutes : t.RoutesAddressed) (input : Input ρ) :
    (∀ call ∈ sendCalls (t.effects input),
        Permitted input.radios call.radio call.nextHop)
      ↔ ∀ m, t.handed input.call = some m → t.Addressable input.radios m := by
  rw [effects_sendCalls]
  cases t.handed input.call with
  | none =>
      exact iff_of_true (fun call hcall => by cases hcall) (fun m h => by cases h)
  | some m =>
      have := @sendFramed_permitted_iff _ _ input.radios m t hroutes
      simpa using this

-- ================================================================ runs

/-- `SetRoute` calls with next hops for one receiver. -/
def UnicastHops (input : Input ρ) : Prop :=
  ∀ destination radio nextHop, input.call = .setRoute destination radio nextHop →
    nextHop.isBroadcast = false

omit [DecidableEq ρ] in
/-- Writing over one route keeps the next hops valid and no broadcasts, if
the new one is. -/
theorem RoutesAddressed.write (hr : t.RoutesAddressed) {i : Fin b.maxRoutes}
    {route : RouteRecord ρ}
    (hroute : route.used = true →
      route.nextHop.isValid = true ∧ route.nextHop.isBroadcast = false) :
    RoutesAddressed { t with routes := Function.update t.routes i route } :=
  (Function.forall_update_iff t.routes (fun _ (route : RouteRecord ρ) =>
    route.used = true →
      route.nextHop.isValid = true ∧ route.nextHop.isBroadcast = false)).mpr
    ⟨hroute, fun j _ => hr j⟩

theorem RoutesAddressed.after (hr : t.RoutesAddressed) {input : Input ρ}
    (hhop : UnicastHops input) : (t.after input).RoutesAddressed := by
  obtain ⟨radios, call⟩ := input
  cases call with
  | setRoute destination radio nextHop =>
      have hone := hhop destination radio nextHop rfl
      show (t.setRoute destination radio nextHop).1.RoutesAddressed
      unfold setRoute
      split
      · exact hr
      · next hno =>
        simp only [not_or, Bool.not_eq_true', Bool.not_eq_false] at hno
        split
        · exact hr.write fun _ => ⟨hno.2.1, hone⟩
        · split
          · exact hr.write fun _ => ⟨hno.2.1, hone⟩
          · exact hr
  | removeRoute destination =>
      show (t.removeRoute destination).1.RoutesAddressed
      unfold removeRoute
      split
      · exact hr.write fun hused => by cases hused
      · exact hr
  | _ =>
      intro i
      rw [after_routes t (by simp) (by simp)]
      exact hr i

/-- In a run whose routes lead to one receiver each, every `radio.Send`
of every call carries a valid address, and a broadcast address only over
a radio that advertises broadcast, exactly when every message handed to
`SendFramed` is addressable where it is handed over. -/
theorem sends_permitted_iff (localNode : RadioNodeId) (defaultHopLimit : UInt8)
    (inputs : List (Input ρ)) (hhops : ∀ input ∈ inputs, UnicastHops input) :
    Observed.Along (after (b := b))
        (fun t input => ∀ call ∈ sendCalls (t.effects input),
          Permitted input.radios call.radio call.nextHop)
        (create localNode defaultHopLimit) inputs
      ↔ Observed.Along (after (b := b))
        (fun t input => ∀ m, t.handed input.call = some m →
          t.Addressable input.radios m)
        (create localNode defaultHopLimit) inputs := by
  have hnew : (create localNode defaultHopLimit : RadioTransport b ρ).RoutesAddressed :=
    fun i hused => by cases hused
  have hunicast : Observed.Along (after (b := b)) (fun _ input => UnicastHops input)
      (create localNode defaultHopLimit) inputs := Observed.along_of_forall hhops _
  constructor
  · intro hall
    exact Observed.along_of_invariant (P := RoutesAddressed)
      (fun t input h hr => hr.after h.2)
      (fun t input h hr => (effects_permitted_iff hr input).mp h.1) hnew
      (Observed.along_and hall hunicast)
  · intro hall
    exact Observed.along_of_invariant (P := RoutesAddressed)
      (fun t input h hr => hr.after h.2)
      (fun t input h hr => (effects_permitted_iff hr input).mpr h.1) hnew
      (Observed.along_and hall hunicast)

section OneRadio

/-- One started radio that accepts everything, with these capabilities and
addresses of this length. -/
private def oneRadio (flags : UInt32) (addressBytes : UInt8) : Radios Unit where
  start := fun _ => true
  isStarted := fun _ => true
  capabilities := fun _ => { flags, maximumPayloadBytes := 32, addressBytes }
  send := fun _ _ => .accepted

/-- The radio is made the default interface, node `2` gets a route over it,
and a message goes to `destination`. -/
def sentTo (flags : UInt32) (addressBytes : UInt8) (destination : RadioNodeId) :
    List (Input Unit) :=
  [⟨oneRadio flags addressBytes, .addInterface () true⟩,
    ⟨oneRadio flags addressBytes, .setRoute 2 () (RadioAddress.fromBytes [2] 1)⟩,
    ⟨oneRadio flags addressBytes, .send destination 7 (.data [1])⟩]

private theorem sentTo_unicast (flags : UInt32) (addressBytes : UInt8)
    (destination : RadioNodeId) :
    ∀ input ∈ sentTo flags addressBytes destination, UnicastHops input := by
  intro input hinput d radio nextHop hcall
  simp only [sentTo, List.mem_cons, List.not_mem_nil, or_false] at hinput
  rcases hinput with rfl | rfl | rfl
  · cases hcall
  · injection hcall with _ _ hhop
    rw [← hhop]
    decide
  · cases hcall

private theorem oneRadio_guard {flags : UInt32} {addressBytes : UInt8} :
    SendViaGuard .defaults (oneRadio flags addressBytes) () [1] := by
  have hchunk : fragmentPayloadBytes (oneRadio flags addressBytes) () = 17 := rfl
  refine ⟨rfl, by decide, ?_⟩
  rw [hchunk]
  exact ⟨by decide, by decide, by decide⟩

/-- The transport that is handed the message has no broadcast address for a
next hop. -/
private theorem sentTo_addressed (flags : UInt32) (addressBytes : UInt8) :
    (Observed.run (after (b := .defaults)) (create 1 4)
      ((sentTo flags addressBytes 3).take 2)).RoutesAddressed := by
  refine Observed.invariant_along (C := fun _ => UnicastHops)
    (fun t input hc hr => hr.after hc) (fun i hused => by cases hused)
    (Observed.along_of_forall (fun input hinput => ?_) _)
  exact sentTo_unicast _ _ _ input (List.mem_of_mem_take hinput)

/-- A message with a route goes to the next hop's address, over a radio
without any capability. -/
theorem sentTo_route_permitted :
    Observed.Along (after (b := .defaults))
      (fun t input => ∀ call ∈ sendCalls (t.effects input),
        Permitted input.radios call.radio call.nextHop)
      (create 1 4) (sentTo 0 0 2) := by
  refine (sends_permitted_iff 1 4 (sentTo 0 0 2) (sentTo_unicast 0 0 2)).mpr
    (And.intro ?_ (And.intro ?_ (And.intro ?_ trivial)))
  · intro m hm
    cases hm
  · intro m hm
    cases hm
  · intro m hm
    obtain rfl := Option.some.inj hm
    unfold Addressable
    rw [if_neg (by decide)]
    intro hnone
    cases hnone

/-- Without a route the default interface sends a broadcast over a radio
that does not advertise it, and the broadcast loop an empty address over
one that reports no address length. -/
theorem sentTo_not_permitted :
    (¬ Observed.Along (after (b := .defaults))
        (fun t input => ∀ call ∈ sendCalls (t.effects input),
          Permitted input.radios call.radio call.nextHop)
        (create 1 4) (sentTo 0 5 3))
      ∧ ¬ Observed.Along (after (b := .defaults))
        (fun t input => ∀ call ∈ sendCalls (t.effects input),
          Permitted input.radios call.radio call.nextHop)
        (create 1 4) (sentTo 1 0 broadcastNode) := by
  refine ⟨fun hall => ?_, fun hall => ?_⟩
  · have haddressable :=
      (effects_permitted_iff (sentTo_addressed 0 5) _).mp hall.2.2.1 _ rfl
    unfold Addressable at haddressable
    rw [if_neg (by decide)] at haddressable
    have := (haddressable rfl _ () rfl rfl oneRadio_guard).2
    cases this
  · have haddressable :=
      (effects_permitted_iff (sentTo_addressed 1 0) _).mp hall.2.2.1 _ rfl
    unfold Addressable at haddressable
    rw [if_pos (by decide)] at haddressable
    exact absurd (haddressable 0 () rfl rfl oneRadio_guard).1 (by decide)

end OneRadio

end RadioTransport

end EspressioRadio
