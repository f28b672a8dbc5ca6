/-
The table invariant along runs, and what it buys the next packet.

`Inbound.sound` is the step lemma of the inbound path up to the
completion test, `Sound.finish` of completion; `Processed` is the one
case analysis of the whole of `processInboundPacket`. Every other call
leaves slots and ring alone, or resets the slots (`Stable.after`), so
every reachable transport is `Stable` (`Reachable.stable`).
-/
import EspressioRadio.Proofs.Table

namespace EspressioRadio

open Chunks

variable {b : Bounds} {ρ : Type}

namespace RadioTransport

variable {t t' : RadioTransport b ρ} {packet : List UInt8}
  {taken : Option (Fin b.maxReassemblies)}

-- ================================================ what a packet moves

section Moves

variable (t)

/-- Slots and touch counter apart, nothing moves before the completion
test. -/
theorem candidate_moves : ∃ slots, t.candidate.1 = { t with reassemblies := slots } := by
  unfold candidate
  split
  · exact ⟨_, rfl⟩
  · exact ⟨_, rfl⟩

theorem findOrCreateReassembly_moves (h : WireHeader) :
    ∃ slots touch, (t.findOrCreateReassembly h).1
      = { t with reassemblies := slots, touchCounter := touch } := by
  obtain ⟨slots, hc⟩ := t.candidate_moves
  unfold findOrCreateReassembly
  split
  · exact ⟨_, _, rfl⟩
  · dsimp only
    split
    · exact ⟨_, _, hc⟩
    · rw [hc]
      exact ⟨_, _, rfl⟩

theorem storeFragment_moves (i : Fin b.maxReassemblies) (h : WireHeader)
    (body : List UInt8) :
    ∃ slots touch, (t.storeFragment i h body).1
      = { t with reassemblies := slots, touchCounter := touch } := by
  unfold storeFragment
  dsimp only
  split
  · exact ⟨_, _, rfl⟩
  · split
    · exact ⟨_, _, rfl⟩
    · exact ⟨_, _, rfl⟩

theorem receiveFragment_moves (packet : List UInt8) :
    ∃ slots touch, (t.receiveFragment packet).1
      = { t with reassemblies := slots, touchCounter := touch } := by
  unfold receiveFragment
  split
  · exact ⟨_, _, rfl⟩
  · split
    · exact ⟨_, _, rfl⟩
    · next h _ _ =>
      obtain ⟨slots, touch, hf⟩ := t.findOrCreateReassembly_moves h
      split
      · next hfound =>
        rw [hfound] at hf
        exact ⟨_, _, hf⟩
      · next found i hfound =>
        rw [hfound] at hf
        obtain ⟨slots', touch', hs⟩ := found.storeFragment_moves i h (packetBody packet)
        simp only at hf
        rw [hs, hf]
        exact ⟨_, _, rfl⟩

/-- A packet moves the slots, the ring and the touch counter, whatever
state it finds them in. -/
theorem processInboundPacket_moves (radios : Radios ρ) (packet : List UInt8) :
    ∃ slots recent cursor touch, (t.processInboundPacket radios packet).1
      = { t with reassemblies := slots, recent := recent, recentCursor := cursor,
                 touchCounter := touch } := by
  obtain ⟨slots, touch, hr⟩ := t.receiveFragment_moves packet
  unfold processInboundPacket complete
  split
  · next hfound =>
    rw [hfound] at hr
    exact ⟨_, _, _, _, hr⟩
  · next found i hfound =>
    rw [hfound] at hr
    simp only at hr
    subst hr
    dsimp only
    split
    · split
      · exact ⟨_, _, _, _, rfl⟩
      · exact ⟨_, _, _, _, rfl⟩
    · exact ⟨_, _, _, _, rfl⟩

end Moves

-- ==================================================== the inbound step

theorem refuses_eq_false {h : WireHeader} (hr : t.refuses h = false) :
    h.source ≠ 0 ∧ h.source ≠ t.localNode ∧ h.destination ≠ 0
      ∧ ¬ t.Remembers h.identity := by
  simp only [refuses, Bool.or_eq_false_iff, beq_eq_false_iff_ne] at hr
  exact ⟨hr.1.1.1, hr.1.1.2, hr.1.2, isRecent_eq_false_iff.mp hr.2⟩

/-- The inbound path writes slots and the touch counter only. -/
theorem Inbound.frame (hin : Inbound t packet t' taken) :
    t' = { t with
      reassemblies := t'.reassemblies, touchCounter := t'.touchCounter } := by
  cases hin <;> rfl

theorem Inbound.recent_eq (hin : Inbound t packet t' taken) :
    t'.recent = t.recent := by
  rw [hin.frame]

theorem Inbound.localNode_eq (hin : Inbound t packet t' taken) :
    t'.localNode = t.localNode := by
  rw [hin.frame]

/-- The slot a stored fragment leaves behind is well formed and carries
the packet's identity. -/
theorem touched_store_wellFormed {s : ReassemblyRecord} {h : WireHeader}
    {touch : UInt32} (hd : decodeHeader packet = some h)
    (hw : s.WellFormed b) (hf : s.Fits h) :
    ((s.touched touch).store h (packetBody packet)).WellFormed b :=
  ReassemblyRecord.store_wellFormed (s := s.touched touch)
    (hw.touched _) ⟨hf.fragmentCount_eq, hf.chunkBytes_eq⟩
    (decodeHeader_wellFormed hd) (packetBody_length hd)

theorem firstStore_wellFormed {h : WireHeader} {touch : UInt32}
    (hd : decodeHeader packet = some h)
    (ha : h.fragmentCount.toNat * h.chunkBytes.toNat ≤ b.maxMessageBytes) :
    (firstStore h (packetBody packet) touch).WellFormed b :=
  ReassemblyRecord.store_wellFormed
    (ReassemblyRecord.opened_wellFormed (decodeHeader_wellFormed hd) ha)
    ⟨rfl, rfl⟩ (decodeHeader_wellFormed hd) (packetBody_length hd)

/-- Up to the completion test, the tables stay sound. -/
theorem Inbound.sound (hs : t.Sound) (hin : Inbound t packet t' taken) :
    t'.Sound := by
  cases hin with
  | undecodable => exact hs
  | refused => exact hs
  | tooLarge => exact hs.clear _
  | mismatched => exact hs.clear _
  | stored hd hr hi hf =>
      obtain ⟨hu, hid⟩ := ReassemblyRecord.holds_iff.mp hi
      have hb : t.bumpTouch.Sound := hs.congr rfl rfl
      refine hb.write ?_
        (touched_store_wellFormed hd (hs.slot _ hu) hf) ?_ ?_
      · rw [ReassemblyRecord.store_used]
        exact hu
      · intro j hj hju heq
        rw [ReassemblyRecord.store_identity] at heq
        exact hj (hs.distinct _ _ hju hu heq)
      · rw [ReassemblyRecord.store_identity]
        exact hs.not_recent _ hu
  | opened hd hr hn ha =>
      have hb : t.bumpTouch.bumpTouch.Sound := hs.congr rfl rfl
      refine hb.write ?_
        (firstStore_wellFormed hd ha) ?_ ?_
      · exact firstStore_used ..
      · intro j hj hju heq
        rw [firstStore_identity] at heq
        have := ReassemblyRecord.holds_iff.mpr ⟨hju, heq⟩
        rw [bumpTouch_reassemblies, bumpTouch_reassemblies, hn j] at this
        cases this
      · rw [firstStore_identity]
        exact (refuses_eq_false hr).2.2.2

/-- The slot a fragment is taken into is in use afterwards. -/
theorem Inbound.taken_used {i : Fin b.maxReassemblies}
    (hin : Inbound t packet t' (some i)) : (t'.reassemblies i).used = true := by
  cases hin with
  | stored hd hr hi hf =>
      rw [setSlot_self, ReassemblyRecord.store_used]
      exact (ReassemblyRecord.holds_iff.mp hi).1
  | opened =>
      rw [setSlot_self]
      exact firstStore_used ..

/-- Apart from the slot taken, slots in use afterwards were in use
before, unchanged. -/
theorem Inbound.others {j : Fin b.maxReassemblies}
    (hin : Inbound t packet t' taken) (hj : taken ≠ some j)
    (hu : (t'.reassemblies j).used = true) :
    t'.reassemblies j = t.reassemblies j := by
  have hclear : ∀ i, ((t.setSlot i {}).reassemblies j).used = true →
      (t.setSlot i {}).reassemblies j = t.reassemblies j := by
    intro i hu
    by_cases hji : j = i
    · subst hji
      rw [setSlot_self] at hu
      cases hu
    · exact setSlot_ne t i {} hji
  cases hin with
  | undecodable => rfl
  | refused => rfl
  | tooLarge => exact hclear _ hu
  | mismatched => exact hclear _ hu
  | stored => exact setSlot_ne _ _ _ fun h => hj (h ▸ rfl)
  | opened => exact setSlot_ne _ _ _ fun h => hj (h ▸ rfl)

/-- A slot in use afterwards was kept, extended by the packet, or opened
by it. -/
theorem Inbound.slot_cases {j : Fin b.maxReassemblies}
    (hin : Inbound t packet t' taken) (hu : (t'.reassemblies j).used = true) :
    (taken ≠ some j ∧ t'.reassemblies j = t.reassemblies j)
      ∨ (∃ h, decodeHeader packet = some h ∧ t.refuses h = false
        ∧ (t.reassemblies j).holds h = true ∧ (t.reassemblies j).Fits h
        ∧ taken = some j
        ∧ t'.reassemblies j
          = ((t.reassemblies j).touched (t.touchCounter + 1)).store h
            (packetBody packet))
      ∨ ∃ h, decodeHeader packet = some h ∧ t.refuses h = false
        ∧ (∀ i, (t.reassemblies i).holds h = false)
        ∧ h.fragmentCount.toNat * h.chunkBytes.toNat ≤ b.maxMessageBytes
        ∧ taken = some j
        ∧ t'.reassemblies j
          = firstStore h (packetBody packet) (t.touchCounter + 1 + 1) := by
  by_cases htj : taken = some j
  · subst htj
    refine Or.inr ?_
    cases hin with
    | stored hd hr hi hf =>
        exact Or.inl ⟨_, hd, hr, hi, hf, rfl, setSlot_self ..⟩
    | opened hd hr hn ha =>
        exact Or.inr ⟨_, hd, hr, hn, ha, rfl, setSlot_self ..⟩
  · exact Or.inl ⟨htj, hin.others htj hu⟩

/-- A fragment that completes nothing leaves a stable table. -/
theorem Inbound.stable (hs : t.Stable) (hin : Inbound t packet t' taken)
    (hc : ∀ i, taken = some i → (t'.reassemblies i).isComplete = false) :
    t'.Stable := by
  refine ⟨hin.sound hs.toSound, fun j hj => ?_⟩
  by_cases htj : taken = some j
  · exact hc j htj
  · have heq := hin.others htj hj
    rw [heq] at hj ⊢
    exact hs.incomplete j hj

-- ========================================================== completion

/-- After `Remember` the ring holds the identity just written and else only
identities it held before. -/
theorem remembers_remember {h : WireHeader} {id : MessageIdentity}
    (hr : (t.remember h).Remembers id) : t.Remembers id ∨ id = h.identity := by
  obtain ⟨i, hu, hid⟩ := hr
  by_cases hi : i = Fin.ofNat _ t.recentCursor
  · subst hi
    simp only [remember, Function.update_self] at hid
    exact Or.inr hid.symm
  · simp only [remember, Function.update_of_ne hi] at hu hid
    exact Or.inl ⟨i, hu, hid⟩

theorem remembers_remember_self (t : RadioTransport b ρ) (h : WireHeader) :
    (t.remember h).Remembers h.identity :=
  ⟨Fin.ofNat _ t.recentCursor, by simp [remember], by
    simp only [remember, Function.update_self]
    rfl⟩

/-- The state `Complete` leaves: the slot's identity remembered, the
slot reset. -/
def finish (t : RadioTransport b ρ) (i : Fin b.maxReassemblies) :
    RadioTransport b ρ :=
  (t.remember (t.reassemblies i).identity.header).setSlot i {}

/-- Finishing a slot puts its identity among the recent ones. -/
theorem finish_remembers (t : RadioTransport b ρ) (i : Fin b.maxReassemblies) :
    (t.finish i).Remembers (t.reassemblies i).identity :=
  remembers_remember_self t (t.reassemblies i).identity.header

/-- From a sound state the second look at the ring finds nothing. -/
theorem complete_eq (hs : t.Sound) (radios : Radios ρ)
    {i : Fin b.maxReassemblies} (hu : (t.reassemblies i).used = true) :
    t.complete radios i = (t.finish i, t.dispatch radios (t.reassemblies i)) := by
  have hnot : t.isRecent (t.reassemblies i).identity.header = false :=
    isRecent_eq_false_iff.mpr (hs.not_recent i hu)
  unfold complete
  dsimp only
  rw [hnot]
  rfl

theorem Sound.finish (hs : t.Sound) {i : Fin b.maxReassemblies}
    (hu : (t.reassemblies i).used = true) : (t.finish i).Sound := by
  have hc := hs.clear i
  refine ⟨hc.slot, hc.unused, hc.distinct, fun j hj hrem => ?_⟩
  have hji : j ≠ i := by
    intro hji
    subst hji
    unfold RadioTransport.finish at hj
    rw [setSlot_self] at hj
    cases hj
  have heq : (t.finish i).reassemblies j = t.reassemblies j :=
    setSlot_ne _ i {} hji
  rw [heq] at hj hrem
  rcases remembers_remember hrem with hold | hnew
  · exact hs.not_recent j hj hold
  · exact hji (hs.distinct j i hj hu hnew)

-- ======================================================== whole packets

/-- Everything `processInboundPacket` can do from a sound state. -/
inductive Processed (t : RadioTransport b ρ) (radios : Radios ρ)
    (packet : List UInt8) : RadioTransport b ρ → List (Event ρ) → Prop where
  /-- No message is complete: nothing is visible outside. -/
  | quiet {t' : RadioTransport b ρ} {taken : Option (Fin b.maxReassemblies)}
      (hin : Inbound t packet t' taken)
      (hc : ∀ i, taken = some i → (t'.reassemblies i).isComplete = false) :
      Processed t radios packet t' []
  /-- The fragment completes its slot's message, which is dispatched. -/
  | completed {t' : RadioTransport b ρ} {i : Fin b.maxReassemblies}
      (hin : Inbound t packet t' (some i))
      (hc : (t'.reassemblies i).isComplete = true) :
      Processed t radios packet (t'.finish i)
        (t'.dispatch radios (t'.reassemblies i))

/-- Handling a packet is receiving its fragment and, if that completes the
slot's message, finishing and dispatching it. -/
theorem processInboundPacket_cases (hs : t.Sound) (radios : Radios ρ)
    (packet : List UInt8) :
    (t.processInboundPacket radios packet = ((t.receiveFragment packet).1, [])
        ∧ ∀ i, t.takes packet = some i →
          ((t.receiveFragment packet).1.reassemblies i).isComplete = false)
      ∨ ∃ i, t.takes packet = some i
        ∧ ((t.receiveFragment packet).1.reassemblies i).isComplete = true
        ∧ t.processInboundPacket radios packet
          = ((t.receiveFragment packet).1.finish i,
            (t.receiveFragment packet).1.dispatch radios
              ((t.receiveFragment packet).1.reassemblies i)) := by
  have hin := receiveFragment_inbound hs packet
  unfold processInboundPacket takes
  generalize t.receiveFragment packet = r at hin ⊢
  obtain ⟨t₁, taken⟩ := r
  cases taken with
  | none => exact Or.inl ⟨rfl, fun i hi => by cases hi⟩
  | some i =>
      dsimp only
      by_cases hc : (t₁.reassemblies i).isComplete = true
      · rw [if_pos hc, complete_eq (hin.sound hs) radios hin.taken_used]
        exact Or.inr ⟨i, rfl, hc, rfl⟩
      · rw [if_neg hc]
        refine Or.inl ⟨rfl, fun j hj => ?_⟩
        injection hj with hj
        subst hj
        simpa using hc

theorem processInboundPacket_processed (hs : t.Sound) (radios : Radios ρ)
    (packet : List UInt8) :
    Processed t radios packet (t.processInboundPacket radios packet).1
      (t.processInboundPacket radios packet).2 := by
  have hin := receiveFragment_inbound hs packet
  rcases processInboundPacket_cases hs radios packet with
    ⟨heq, hc⟩ | ⟨i, htake, hc, heq⟩
  · rw [heq]
    exact .quiet hin hc
  · rw [heq]
    have htake' : (t.receiveFragment packet).2 = some i := htake
    rw [htake'] at hin
    exact .completed hin hc

/-- Slots in use after the packet are as `receiveFragment` left them. -/
theorem processInboundPacket_slot (hs : t.Sound) (radios : Radios ρ)
    {packet : List UInt8} {j : Fin b.maxReassemblies}
    (hu : ((t.processInboundPacket radios packet).1.reassemblies j).used = true) :
    (t.processInboundPacket radios packet).1.reassemblies j
      = (t.receiveFragment packet).1.reassemblies j := by
  rcases processInboundPacket_cases hs radios packet with
    ⟨heq, -⟩ | ⟨i, -, -, heq⟩
  · rw [heq]
  · rw [heq] at hu ⊢
    by_cases hji : j = i
    · subst hji
      unfold finish at hu
      rw [setSlot_self] at hu
      cases hu
    · exact setSlot_ne _ i {} hji

/-- What a packet leaves alone: all but the slots, the ring and the
touch counter. -/
theorem processInboundPacket_frame (t : RadioTransport b ρ) (radios : Radios ρ)
    (packet : List UInt8) :
    (t.processInboundPacket radios packet).1.localNode = t.localNode
      ∧ (t.processInboundPacket radios packet).1.defaultHopLimit
        = t.defaultHopLimit
      ∧ (t.processInboundPacket radios packet).1.nextMessageId = t.nextMessageId
      ∧ (t.processInboundPacket radios packet).1.receiver = t.receiver
      ∧ (t.processInboundPacket radios packet).1.interfaces = t.interfaces
      ∧ (t.processInboundPacket radios packet).1.routes = t.routes := by
  obtain ⟨slots, recent, cursor, touch, hmoved⟩ := t.processInboundPacket_moves radios packet
  rw [hmoved]
  exact ⟨rfl, rfl, rfl, rfl, rfl, rfl⟩

theorem Processed.stable {radios : Radios ρ} {events : List (Event ρ)}
    (hs : t.Stable) (hp : Processed t radios packet t' events) : t'.Stable := by
  cases hp with
  | quiet hin hc => exact hin.stable hs hc
  | @completed t₁ i hin hc =>
      refine ⟨(hin.sound hs.toSound).finish hin.taken_used, fun j hj => ?_⟩
      by_cases hji : j = i
      · subst hji
        unfold finish at hj
        rw [setSlot_self] at hj
        cases hj
      · have heq : (t₁.finish i).reassemblies j = t₁.reassemblies j :=
          setSlot_ne _ i {} hji
        rw [heq] at hj ⊢
        have hold := hin.others (fun h => hji (Option.some.inj h).symm) hj
        rw [hold] at hj ⊢
        exact hs.incomplete j hj

-- ================================================================ runs

/-- A call that is no inbound packet leaves the slots as they are or
resets them all, and never touches the ring. -/
theorem after_tables [DecidableEq ρ] (t : RadioTransport b ρ) (input : Input ρ)
    (hnot : ∀ packet, input.call ≠ .processInboundPacket packet) :
    (t.after input).recent = t.recent
      ∧ (t.after input).recentCursor = t.recentCursor
      ∧ ((t.after input).reassemblies = t.reassemblies
        ∨ ∀ i, (t.after input).reassemblies i = {}) := by
  obtain ⟨radios, call⟩ := input
  unfold after perform
  cases call with
  | processInboundPacket packet => exact absurd rfl (hnot packet)
  | send destination channel payload =>
      dsimp only [send]
      split
      · exact ⟨rfl, rfl, Or.inl rfl⟩
      · split <;> exact ⟨rfl, rfl, Or.inl rfl⟩
  | start => exact ⟨rfl, rfl, Or.inl rfl⟩
  | stop => exact ⟨rfl, rfl, Or.inr fun i => rfl⟩
  | addInterface radio defaultRoute =>
      dsimp only [addInterface]
      split
      · exact ⟨rfl, rfl, Or.inl rfl⟩
      · split <;> exact ⟨rfl, rfl, Or.inl rfl⟩
  | setRoute destination radio nextHop =>
      dsimp only [setRoute]
      split
      · exact ⟨rfl, rfl, Or.inl rfl⟩
      · split
        · exact ⟨rfl, rfl, Or.inl rfl⟩
        · split <;> exact ⟨rfl, rfl, Or.inl rfl⟩
  | removeRoute destination =>
      dsimp only [removeRoute]
      split <;> exact ⟨rfl, rfl, Or.inl rfl⟩
  | setReceiver present => exact ⟨rfl, rfl, Or.inl rfl⟩

/-- No call but `AddInterface` writes the interface table. -/
theorem after_interfaces [DecidableEq ρ] (t : RadioTransport b ρ) {input : Input ρ}
    (hadd : ∀ radio defaultRoute, input.call ≠ .addInterface radio defaultRoute) :
    (t.after input).interfaces = t.interfaces := by
  obtain ⟨radios, call⟩ := input
  unfold after perform
  cases call with
  | processInboundPacket packet =>
      exact (processInboundPacket_frame t radios packet).2.2.2.2.1
  | send destination channel payload =>
      dsimp only [send]
      split
      · rfl
      · split <;> rfl
  | addInterface radio defaultRoute => exact absurd rfl (hadd radio defaultRoute)
  | setRoute destination radio nextHop =>
      dsimp only [setRoute]
      split
      · rfl
      · split
        · rfl
        · split <;> rfl
  | removeRoute destination =>
      dsimp only [removeRoute]
      split <;> rfl
  | _ => rfl

/-- Only `SetRoute` and `RemoveRoute` write the route table. -/
theorem after_routes [DecidableEq ρ] (t : RadioTransport b ρ) {input : Input ρ}
    (hset : ∀ destination radio nextHop,
      input.call ≠ .setRoute destination radio nextHop)
    (hremove : ∀ destination, input.call ≠ .removeRoute destination) :
    (t.after input).routes = t.routes := by
  obtain ⟨radios, call⟩ := input
  unfold after perform
  cases call with
  | processInboundPacket packet =>
      exact (processInboundPacket_frame t radios packet).2.2.2.2.2
  | send destination channel payload =>
      dsimp only [send]
      split
      · rfl
      · split <;> rfl
  | addInterface radio defaultRoute =>
      dsimp only [addInterface]
      split
      · rfl
      · split <;> rfl
  | setRoute destination radio nextHop => exact absurd rfl (hset destination radio nextHop)
  | removeRoute destination => exact absurd rfl (hremove destination)
  | _ => rfl

/-- A transport with every slot reset is stable: there is nothing to
violate. -/
theorem stable_of_empty (h : ∀ i, t.reassemblies i = {}) : t.Stable := by
  have hno : ∀ i, (t.reassemblies i).used ≠ true := fun i => by
    rw [h i]
    simp
  exact ⟨⟨fun i hi => absurd hi (hno i), fun i _ => h i,
    fun i _ hi => absurd hi (hno i), fun i hi => absurd hi (hno i)⟩,
    fun i hi => absurd hi (hno i)⟩

variable [DecidableEq ρ]

/-- One call, whichever it is, keeps the table stable. -/
theorem Stable.after (hs : t.Stable) (input : Input ρ) :
    (t.after input).Stable := by
  by_cases hin : ∃ packet, input.call = .processInboundPacket packet
  · obtain ⟨packet, hcall⟩ := hin
    unfold RadioTransport.after perform
    rw [hcall]
    exact (processInboundPacket_processed hs.toSound input.radios packet).stable hs
  · have htab := after_tables t input fun packet hcall => hin ⟨packet, hcall⟩
    rcases htab.2.2 with hkeep | hempty
    · exact hs.congr hkeep htab.1
    · exact stable_of_empty hempty

/-- Every run from construction ends in a stable table. -/
theorem Reachable.stable (hr : t.Reachable) : t.Stable := by
  obtain ⟨localNode, defaultHopLimit, inputs, rfl⟩ := hr
  exact Observed.invariant_run (P := fun s : RadioTransport b ρ => s.Stable)
    (fun s i hs => hs.after i) (stable_of_empty fun i => rfl) inputs

end RadioTransport

end EspressioRadio
