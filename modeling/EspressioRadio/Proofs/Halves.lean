/-
The transport's two halves.

One half is the inbound tables: slots, recent ring and touch counter.
The other is everything a `Send` reads or writes: registrations, routes,
the message counter, the lifecycle flag (`sendingHalf`). Inbound packets
write the first half only, and every other call computes the second from
the second (`perform_sendingHalf`); of those calls `Stop` alone reaches
across, and only to empty the slots (`after_inbound`).

What a packet does to the slots depends on the rest of the transport only
through its being refused or not. So a map of transports that leaves the
slots and the counter alone (`Beside`) passes through `receiveFragment`.
-/
import EspressioRadio.Proofs.Invariant

namespace EspressioRadio

variable {b : Bounds} {ρ : Type}

namespace RadioTransport

-- ==================================================== beside the slots

/-- A map of transports that slots and touch counter pass through. -/
structure Beside (f : RadioTransport b ρ → RadioTransport b ρ) : Prop where
  slots : ∀ t, (f t).reassemblies = t.reassemblies
  touch : ∀ t, (f t).touchCounter = t.touchCounter
  comm : ∀ (t : RadioTransport b ρ) slots touch,
    f { t with reassemblies := slots, touchCounter := touch }
      = { f t with reassemblies := slots, touchCounter := touch }

section Beside

variable {f : RadioTransport b ρ → RadioTransport b ρ} (hf : Beside f)
  (t : RadioTransport b ρ)

include hf

theorem Beside.setSlot (i : Fin b.maxReassemblies) (s : ReassemblyRecord) :
    (f t).setSlot i s = f (t.setSlot i s) := by
  have hcomm := hf.comm t (Function.update t.reassemblies i s) t.touchCounter
  unfold RadioTransport.setSlot
  rw [hcomm, hf.slots, ← hf.touch t]

theorem Beside.bumpTouch : (f t).bumpTouch = f t.bumpTouch := by
  have hcomm := hf.comm t t.reassemblies (t.touchCounter + 1)
  unfold RadioTransport.bumpTouch
  rw [hcomm, hf.touch, ← hf.slots t]

theorem Beside.resetSlot (i : Fin b.maxReassemblies) :
    (f t).resetSlot i = f (t.resetSlot i) := by
  unfold RadioTransport.resetSlot
  rw [hf.slots, hf.setSlot]

theorem Beside.candidate :
    (f t).candidate = (f t.candidate.1, t.candidate.2) := by
  have hleast : (f t).leastTouched = t.leastTouched := by
    unfold leastTouched
    rw [hf.slots]
  unfold RadioTransport.candidate
  rw [hf.slots, hleast, hf.resetSlot]
  cases Fin.find? fun i => !(t.reassemblies i).used <;> rfl

/-- Such a map passes through slot selection: the same slot is found, opened
or reset on either side of it. -/
theorem Beside.findOrCreateReassembly (h : WireHeader) :
    (f t).findOrCreateReassembly h
      = (f (t.findOrCreateReassembly h).1, (t.findOrCreateReassembly h).2) := by
  unfold RadioTransport.findOrCreateReassembly
  rw [hf.candidate, hf.slots]
  cases Fin.find? fun i => (t.reassemblies i).holds h with
  | some i => rfl
  | none =>
      dsimp only
      split
      · rfl
      · rw [hf.bumpTouch, hf.setSlot, hf.slots, hf.touch]

/-- Such a map passes through storing: the fragment goes into the same slot
with the same outcome. -/
theorem Beside.storeFragment (i : Fin b.maxReassemblies) (h : WireHeader)
    (body : List UInt8) :
    (f t).storeFragment i h body
      = (f (t.storeFragment i h body).1, (t.storeFragment i h body).2) := by
  unfold RadioTransport.storeFragment
  rw [hf.slots, hf.resetSlot, hf.bumpTouch]
  dsimp only
  split
  · rfl
  · rw [hf.resetSlot, hf.setSlot, hf.touch]
    split <;> rfl

/-- Such a map passes through the receipt of a packet that is refused on
either side of it or on neither. -/
theorem Beside.receiveFragment {packet : List UInt8}
    (hr : ∀ h, decodeHeader packet = some h → (f t).refuses h = t.refuses h) :
    (f t).receiveFragment packet
      = (f (t.receiveFragment packet).1, (t.receiveFragment packet).2) := by
  unfold RadioTransport.receiveFragment
  cases hd : decodeHeader packet with
  | none => rfl
  | some h =>
      dsimp only
      rw [hr h hd]
      cases t.refuses h with
      | true => rfl
      | false =>
          rw [if_neg Bool.false_ne_true, if_neg Bool.false_ne_true,
            hf.findOrCreateReassembly]
          rcases t.findOrCreateReassembly h with ⟨s, - | j⟩
          · rfl
          · exact hf.storeFragment s j h (packetBody packet)

end Beside

-- =================================================== beside the topology

/-- A map of transports that registrations and routes pass through. -/
structure KeepsTopology (f : RadioTransport b ρ → RadioTransport b ρ) : Prop where
  interfaces : ∀ t, (f t).interfaces = t.interfaces
  routes : ∀ t, (f t).routes = t.routes
  comm : ∀ (t : RadioTransport b ρ) interfaces routes,
    f { t with interfaces := interfaces, routes := routes }
      = { f t with interfaces := interfaces, routes := routes }

section KeepsTopology

variable {f : RadioTransport b ρ → RadioTransport b ρ} (hf : KeepsTopology f)
  (t : RadioTransport b ρ)

include hf

theorem KeepsTopology.setInterfaces
    (interfaces : Fin b.maxInterfaces → InterfaceRecord ρ) :
    { f t with interfaces := interfaces } = f { t with interfaces := interfaces } := by
  have hcomm := hf.comm t interfaces t.routes
  rw [hcomm, ← hf.routes t]

theorem KeepsTopology.setRoutes (routes : Fin b.maxRoutes → RouteRecord ρ) :
    { f t with routes := routes } = f { t with routes := routes } := by
  have hcomm := hf.comm t t.interfaces routes
  rw [hcomm, ← hf.interfaces t]

theorem KeepsTopology.addInterface [DecidableEq ρ] (radio : ρ) (defaultRoute : Bool) :
    (f t).addInterface radio defaultRoute
      = (f (t.addInterface radio defaultRoute).1,
        (t.addInterface radio defaultRoute).2) := by
  have hfind : (f t).findInterface radio = t.findInterface radio := by
    unfold findInterface
    rw [hf.interfaces]
  unfold RadioTransport.addInterface
  rw [hfind, hf.interfaces]
  cases t.findInterface radio with
  | some i =>
      dsimp only
      rw [hf.setInterfaces]
  | none =>
      dsimp only
      cases Fin.find? fun i => (t.interfaces i).radio.isNone with
      | some i =>
          dsimp only
          rw [hf.setInterfaces]
      | none => rfl

theorem KeepsTopology.removeRoute (destination : RadioNodeId) :
    (f t).removeRoute destination
      = (f (t.removeRoute destination).1, (t.removeRoute destination).2) := by
  unfold RadioTransport.removeRoute
  rw [hf.routes]
  cases Fin.find? fun i =>
      (t.routes i).used && (t.routes i).destination == destination with
  | some i =>
      dsimp only
      rw [hf.setRoutes]
  | none => rfl

theorem KeepsTopology.setRoute [DecidableEq ρ] (destination : RadioNodeId) (radio : ρ)
    (nextHop : RadioAddress) :
    (f t).setRoute destination radio nextHop
      = (f (t.setRoute destination radio nextHop).1,
        (t.setRoute destination radio nextHop).2) := by
  have hfind : (f t).findInterface radio = t.findInterface radio := by
    unfold findInterface
    rw [hf.interfaces]
  unfold RadioTransport.setRoute
  rw [hfind, hf.routes]
  by_cases hrefused : destination = broadcastNode ∨ !nextHop.isValid
      ∨ (t.findInterface radio).isNone
  · rw [if_pos hrefused, if_pos hrefused]
  · rw [if_neg hrefused, if_neg hrefused]
    cases Fin.find? fun i =>
        (t.routes i).used && (t.routes i).destination == destination with
    | some i =>
        dsimp only
        rw [hf.setRoutes]
    | none =>
        dsimp only
        cases Fin.find? fun i => !(t.routes i).used with
        | some i =>
            dsimp only
            rw [hf.setRoutes]
        | none => rfl

end KeepsTopology

-- ======================================================= the sending half

/-- The transport with its inbound tables as constructed. -/
def sendingHalf (t : RadioTransport b ρ) : RadioTransport b ρ :=
  { t with
    reassemblies := fun _ => {}
    recent := fun _ => {}
    recentCursor := 0
    touchCounter := 0 }

variable {t t' : RadioTransport b ρ}

theorem keepsTopology_sendingHalf : KeepsTopology (sendingHalf (b := b) (ρ := ρ)) :=
  ⟨fun _ => rfl, fun _ => rfl, fun _ _ _ => rfl⟩

theorem receiveFragment_sendingHalf (t : RadioTransport b ρ) (packet : List UInt8) :
    (t.receiveFragment packet).1.sendingHalf = t.sendingHalf := by
  obtain ⟨slots, touch, heq⟩ := t.receiveFragment_moves packet
  rw [heq]
  rfl

/-- Inbound packets leave the sending half of the transport alone. -/
theorem processInboundPacket_sendingHalf (t : RadioTransport b ρ) (radios : Radios ρ)
    (packet : List UInt8) :
    (t.processInboundPacket radios packet).1.sendingHalf = t.sendingHalf := by
  obtain ⟨slots, recent, cursor, touch, heq⟩ := t.processInboundPacket_moves radios packet
  rw [heq]
  rfl

/-- A `Send` does to the sending half what it does to the whole. -/
theorem send_sendingHalf (t : RadioTransport b ρ) (radios : Radios ρ)
    (destination : RadioNodeId) (channel : RadioChannel) (payload : PayloadArgument) :
    t.sendingHalf.send radios destination channel payload
      = ((t.send radios destination channel payload).1.sendingHalf,
        (t.send radios destination channel payload).2) := by
  by_cases hd : destination = 0 ∨ destination = t.localNode
  · have hd' : destination = 0 ∨ destination = t.sendingHalf.localNode := hd
    simp only [send, if_pos hd, if_pos hd']
  · have hd' : ¬(destination = 0 ∨ destination = t.sendingHalf.localNode) := hd
    simp only [send, if_neg hd, if_neg hd']
    cases payload.get? <;> rfl

variable [DecidableEq ρ]

/-- Every call but an inbound packet does to the sending half what it does
to the whole. -/
theorem perform_sendingHalf (t : RadioTransport b ρ) {input : Input ρ}
    (hnot : ∀ packet, input.call ≠ .processInboundPacket packet) :
    t.sendingHalf.perform input
      = ((t.after input).sendingHalf, t.effects input) := by
  obtain ⟨radios, call⟩ := input
  cases call with
  | processInboundPacket packet => exact absurd rfl (hnot packet)
  | send destination channel payload =>
      simp only [after, effects, perform, send_sendingHalf]
  | start => rfl
  | stop => rfl
  | addInterface radio defaultRoute =>
      simp only [after, effects, perform, keepsTopology_sendingHalf.addInterface]
  | setRoute destination radio nextHop =>
      simp only [after, effects, perform, keepsTopology_sendingHalf.setRoute]
  | removeRoute destination =>
      simp only [after, effects, perform, keepsTopology_sendingHalf.removeRoute]
  | setReceiver present => rfl

/-- Every call but an inbound packet and `Stop` leaves the inbound tables
alone. -/
theorem after_inbound (t : RadioTransport b ρ) {input : Input ρ}
    (hnot : ∀ packet, input.call ≠ .processInboundPacket packet)
    (hstop : input.call ≠ .stop) :
    (t.after input).reassemblies = t.reassemblies
      ∧ (t.after input).recent = t.recent
      ∧ (t.after input).recentCursor = t.recentCursor
      ∧ (t.after input).touchCounter = t.touchCounter := by
  obtain ⟨radios, call⟩ := input
  unfold after perform
  cases call with
  | processInboundPacket packet => exact absurd rfl (hnot packet)
  | send destination channel payload =>
      dsimp only [send]
      split
      · exact ⟨rfl, rfl, rfl, rfl⟩
      · split <;> exact ⟨rfl, rfl, rfl, rfl⟩
  | start => exact ⟨rfl, rfl, rfl, rfl⟩
  | stop => exact absurd rfl hstop
  | addInterface radio defaultRoute =>
      dsimp only [addInterface]
      split
      · exact ⟨rfl, rfl, rfl, rfl⟩
      · split <;> exact ⟨rfl, rfl, rfl, rfl⟩
  | setRoute destination radio nextHop =>
      dsimp only [setRoute]
      split
      · exact ⟨rfl, rfl, rfl, rfl⟩
      · split
        · exact ⟨rfl, rfl, rfl, rfl⟩
        · split <;> exact ⟨rfl, rfl, rfl, rfl⟩
  | removeRoute destination =>
      dsimp only [removeRoute]
      split <;> exact ⟨rfl, rfl, rfl, rfl⟩
  | setReceiver present => exact ⟨rfl, rfl, rfl, rfl⟩

end RadioTransport

end EspressioRadio
