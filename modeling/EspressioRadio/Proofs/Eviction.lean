/-
Which reassembly a full table gives up, over whole runs.

The run's `takings` are the slots its fragments went into, in order, and
a slot's age is how many of them ago it was last taken. The touch
counter is 32 bits wide. As long as it does not wrap while a slot of
another message is in use (`Overruns`), the slots' touches agree with
their ages (`aged_run`), and a new message at a full table evicts the
slot of greatest age (`evicts_oldest`). Past a wrap the order is lost:
`evicts_latest` is a run that gives up the very slot the last fragment
went into.
-/
import EspressioRadio.Proofs.Arrival
import EspressioRadio.Proofs.Refusal
import EspressioRadio.Proofs.Touch

namespace EspressioRadio

variable {b : Bounds} {ρ : Type}

namespace RadioTransport

variable {t t' : RadioTransport b ρ} {packet : List UInt8}
  {log : List (Fin b.maxReassemblies)}

/-- The slot the call's fragment goes into, if it brings one. -/
def takings (t : RadioTransport b ρ) (input : Input ρ) : List (Fin b.maxReassemblies) :=
  match input.call with
  | .processInboundPacket packet => (t.takes packet).toList
  | _ => []

/-- Taking the packet in runs the touch counter past its end, while a
slot of another message is in use. -/
def Overruns (t : RadioTransport b ρ) (packet : List UInt8) : Prop :=
  ∃ h, decodeHeader packet = some h ∧ t.refuses h = false
    ∧ (∃ j, (t.reassemblies j).used = true ∧ (t.reassemblies j).holds h = false)
    ∧ ((∃ i, (t.reassemblies i).holds h = true ∧ (t.reassemblies i).Fits h)
        ∧ t.touchCounter = 0xFFFFFFFF
      ∨ (∀ i, (t.reassemblies i).holds h = false) ∧ ¬ Oversize b h
        ∧ 0xFFFFFFFE ≤ t.touchCounter)

/-- The call leaves the order of the touches intact. -/
def KeepsOrder (t : RadioTransport b ρ) (input : Input ρ) : Prop :=
  ∀ packet, input.call = .processInboundPacket packet → ¬ t.Overruns packet

/-- The touches of the slots in use are in the order of the log. -/
def Aged (t : RadioTransport b ρ) (log : List (Fin b.maxReassemblies)) : Prop :=
  Lru.Agrees (fun j => (t.reassemblies j).used = true)
    (fun j => (t.reassemblies j).touch) t.touchCounter log

-- ============================================================= one step

/-- A packet that goes into no slot leaves the counter alone. -/
theorem Inbound.touchCounter_eq (hin : Inbound t packet t' none) :
    t'.touchCounter = t.touchCounter := by
  cases hin with
  | undecodable => rfl
  | refused => rfl
  | tooLarge => rfl
  | mismatched => rfl

/-- A packet that goes into a slot moves the counter forward, short of an
overrun. -/
theorem Inbound.touchCounter_lt {i j : Fin b.maxReassemblies} (hs : t.Sound)
    (hin : Inbound t packet t' (some i)) (hno : ¬ t.Overruns packet) (hne : j ≠ i)
    (hu : (t'.reassemblies j).used = true) : t.touchCounter < t'.touchCounter := by
  have hkept := hin.others (fun h => hne (Option.some.inj h).symm) hu
  rw [hkept] at hu
  cases hin with
  | @stored h i hd hr hi hf =>
      obtain ⟨hui, hid⟩ := ReassemblyRecord.holds_iff.mp hi
      have hother : (t.reassemblies j).holds h = false := by
        rw [Bool.eq_false_iff]
        intro hj
        exact hne (hs.distinct j i hu hui
          ((ReassemblyRecord.holds_iff.mp hj).2.trans hid.symm))
      have hmax : t.touchCounter ≠ 0xFFFFFFFF := fun hmax =>
        hno ⟨h, hd, hr, ⟨j, hu, hother⟩, Or.inl ⟨⟨i, hi, hf⟩, hmax⟩⟩
      show t.touchCounter < t.touchCounter + 1
      grind
  | @opened h hd hr hn ha =>
      have hmax : ¬ 0xFFFFFFFE ≤ t.touchCounter := fun hmax =>
        hno ⟨h, hd, hr, ⟨j, hu, hn j⟩, Or.inr ⟨hn, Nat.not_lt.mpr ha, hmax⟩⟩
      show t.touchCounter < t.touchCounter + 1 + 1
      grind

/-- A packet keeps the slots' touches in step with the log, which gets the
slot it takes at its end, as long as it does not overrun the counter. -/
theorem Aged.arrival (ha : t.Aged log) (hs : t.Stable) (hno : ¬ t.Overruns packet)
    (radios : Radios ρ) :
    (t.processInboundPacket radios packet).1.Aged (log ++ (t.takes packet).toList) := by
  have hin := receiveFragment_inbound hs.toSound packet
  have hcounter := processInboundPacket_touchCounter hs.toSound radios packet
  have hslot : ∀ j,
      ((t.processInboundPacket radios packet).1.reassemblies j).used = true →
      (t.processInboundPacket radios packet).1.reassemblies j
        = (t.receiveFragment packet).1.reassemblies j :=
    fun j hu => processInboundPacket_slot hs.toSound radios hu
  unfold Aged takes
  rw [hcounter]
  cases htake : (t.receiveFragment packet).2 with
  | none =>
      rw [htake] at hin
      rw [Option.toList_none, List.append_nil]
      refine ha.keep (fun i hu => ?_) fun _ _ => Std.le_of_eq hin.touchCounter_eq.symm
      have heq := hslot i hu
      rw [heq] at hu ⊢
      have hkept := hin.others (Option.some_ne_none i).symm hu
      rw [hkept] at hu ⊢
      exact ⟨hu, rfl⟩
  | some j =>
      rw [htake] at hin
      rw [Option.toList_some]
      refine ha.use (fun hu => ?_) (fun i hne hu => ?_) fun i hne hu => ?_
      · rw [hslot j hu]
        exact hin.taken_touch.1
      · have heq := hslot i hu
        rw [heq] at hu ⊢
        have hkept := hin.others (fun h => hne (Option.some.inj h).symm) hu
        rw [hkept] at hu ⊢
        exact ⟨hu, rfl⟩
      · rw [hslot i hu] at hu
        exact hin.touchCounter_lt hs.toSound hno hne hu

variable [DecidableEq ρ]

/-- A call that keeps the order leaves the slots stamped in the order of
their takings. -/
theorem Aged.after (ha : t.Aged log) (hs : t.Stable) {input : Input ρ}
    (hkeeps : t.KeepsOrder input) : (t.after input).Aged (log ++ t.takings input) := by
  by_cases hin : ∃ packet, input.call = .processInboundPacket packet
  · obtain ⟨packet, hcall⟩ := hin
    have hno := hkeeps packet hcall
    unfold RadioTransport.after perform takings
    rw [hcall]
    exact ha.arrival hs hno input.radios
  · have hnot : ∀ packet, input.call ≠ .processInboundPacket packet :=
      fun packet hcall => hin ⟨packet, hcall⟩
    have hnone : t.takings input = [] := by
      unfold takings
      split
      · next packet hcall => exact absurd hcall (hnot packet)
      · rfl
    rw [hnone, List.append_nil]
    refine ha.keep (fun i hu => ?_)
      fun _ _ => Std.le_of_eq (after_sender hnot).2.2.1.symm
    obtain ⟨-, -, hsame | hempty⟩ := after_tables t input hnot
    · rw [hsame] at hu ⊢
      exact ⟨hu, rfl⟩
    · rw [hempty i] at hu
      cases hu

/-- A fragment of a new message that finds every slot in use goes into
the slot last taken the longest ago, and the others stay as they are. -/
def EvictsOldest (t : RadioTransport b ρ) (log : List (Fin b.maxReassemblies)) : Prop :=
  ∀ (radios : Radios ρ) (packet : List UInt8) (h : WireHeader),
    decodeHeader packet = some h → t.refuses h = false →
    (∀ i, (t.reassemblies i).holds h = false) → ¬ Oversize b h →
    (∀ i, (t.reassemblies i).used = true) →
    ∃ v, t.takes packet = some v
      ∧ (∀ i, i ≠ v → Lru.age log i < Lru.age log v)
      ∧ ((t.receiveFragment packet).1.reassemblies v).identity = h.identity
      ∧ ∀ i, i ≠ v → (t.processInboundPacket radios packet).1.reassemblies i
        = t.reassemblies i

omit [DecidableEq ρ] in
/-- Touches in the order of the log make for that. -/
theorem Aged.evictsOldest (ha : t.Aged log) (hs : t.Stable) : t.EvictsOldest log := by
  intro radios packet h hd hr hn hsize hall
  have hopen := receiveFragment_opened hs.toSound hd hr hn (Nat.not_lt.mp hsize)
  have htake : t.takes packet = some t.victim := by
    unfold takes
    rw [hopen]
  have hvictim : t.victim = Lru.least fun i => (t.reassemblies i).touch := by
    rcases victim_cases t with hfree | ⟨-, hleast⟩
    · rw [hall] at hfree
      cases hfree
    · exact hleast
  refine ⟨t.victim, htake, fun i hne => ?_, ?_, fun i hne => ?_⟩
  · rw [hvictim] at hne ⊢
    exact ha.least_oldest hall hne
  · rw [hopen]
    dsimp only
    rw [setSlot_self, firstStore_identity]
  · have hreceived : (t.receiveFragment packet).1.reassemblies i = t.reassemblies i := by
      rw [hopen]
      exact setSlot_ne _ _ _ hne
    rcases processInboundPacket_cases hs.toSound radios packet with
      ⟨heq, -⟩ | ⟨j, hj, -, heq⟩
    · rw [heq]
      exact hreceived
    · rw [htake] at hj
      obtain rfl := Option.some.inj hj
      rw [heq]
      exact (setSlot_ne _ _ _ hne).trans hreceived

/-- Along a run whose calls keep the order, the slot evicted for a new
message is always the one least recently used. -/
theorem evicts_oldest (localNode : RadioNodeId) (defaultHopLimit : UInt8)
    (inputs : List (Input ρ))
    (hrun : Observed.Along after KeepsOrder
      (create localNode defaultHopLimit : RadioTransport b ρ) inputs) :
    (Observed.run after (create localNode defaultHopLimit : RadioTransport b ρ)
        inputs).EvictsOldest
      (Observed.trace after takings
        (create localNode defaultHopLimit : RadioTransport b ρ) inputs) := by
  have hstart : (create localNode defaultHopLimit : RadioTransport b ρ).Stable
      ∧ (create localNode defaultHopLimit : RadioTransport b ρ).Aged [] := by
    refine ⟨stable_of_empty fun _ => rfl, fun i hi => ?_, fun i hi => ?_, fun i _ hi => ?_⟩
    · cases hi
    · cases hi
    · cases hi
  obtain ⟨hs, ha⟩ := Observed.history_along (R := fun t log => t.Stable ∧ t.Aged log)
    (fun _ _ input hkeeps h => ⟨h.1.after input, h.2.after h.1 hkeeps⟩) hstart hrun
  exact ha.evictsOldest hs

omit [DecidableEq ρ] in
/-- A counter two short of its end keeps the order. -/
theorem keepsOrder_of_low {input : Input ρ} (hlow : t.touchCounter < 0xFFFFFFFE) :
    t.KeepsOrder input := by
  rintro packet - ⟨h, -, -, -, ⟨-, hmax⟩ | ⟨-, -, hmax⟩⟩
  · rw [hmax] at hlow
    exact absurd hlow (by decide)
  · exact UInt32.not_le.mpr hlow hmax

/-- Four messages fill the table in the order they came in: a new message
evicts the slot used longest ago. -/
theorem fullTable_evictsOldest :
    (Observed.run after (create 2 4 : RadioTransport .defaults Unit)
        ([1, 2, 3, 4].map fun id =>
          ⟨openRadios, .processInboundPacket (firstOfTwo id)⟩)).EvictsOldest
      (Observed.trace after takings (create 2 4 : RadioTransport .defaults Unit)
        ([1, 2, 3, 4].map fun id =>
          ⟨openRadios, .processInboundPacket (firstOfTwo id)⟩)) :=
  evicts_oldest 2 4 _ ⟨keepsOrder_of_low (by decide), keepsOrder_of_low (by decide),
    keepsOrder_of_low (by decide), keepsOrder_of_low (by decide), trivial⟩

-- ========================================================= past a wrap

omit [DecidableEq ρ] in
/-- A fragment received before, and not the last of its message, only
touches its slot. -/
theorem duplicate_touches (hs : t.Stable) (radios : Radios ρ) {h : WireHeader}
    {j : Fin b.maxReassemblies} (hd : decodeHeader packet = some h)
    (hr : t.refuses h = false) (hj : (t.reassemblies j).holds h = true)
    (hf : (t.reassemblies j).Fits h)
    (hgot : (t.reassemblies j).Got h.fragmentIndex.toNat)
    (hlast : h.fragmentIndex ≠ h.fragmentCount - 1) :
    t.takes packet = some j
      ∧ (t.processInboundPacket radios packet).1
        = t.bumpTouch.setSlot j ((t.reassemblies j).touched (t.touchCounter + 1)) := by
  have hstore := receiveFragment_stored hs.toSound hd hr hj hf
  have hsame : ((t.reassemblies j).touched (t.touchCounter + 1)).store h
      (packetBody packet) = (t.reassemblies j).touched (t.touchCounter + 1) := by
    unfold ReassemblyRecord.store ReassemblyRecord.noteLast ReassemblyRecord.copyIn
    rw [if_neg hlast]
    exact if_neg hgot
  rw [hsame] at hstore
  have htake : t.takes packet = some j := by
    unfold takes
    rw [hstore]
  refine ⟨htake, ?_⟩
  rcases processInboundPacket_cases hs.toSound radios packet with
    ⟨heq, -⟩ | ⟨i, hi, hdone, -⟩
  · rw [heq, hstore]
  · rw [htake] at hi
    obtain rfl := Option.some.inj hi
    rw [hstore] at hdone
    dsimp only at hdone
    rw [setSlot_self] at hdone
    have hpart := hs.incomplete j (ReassemblyRecord.holds_iff.mp hj).1
    rw [show ((t.reassemblies j).touched (t.touchCounter + 1)).isComplete
      = (t.reassemblies j).isComplete from rfl, hpart] at hdone
    cases hdone

/-- The transport with its counter at `c`, and slot `j` stamped with it. -/
def stamped (t : RadioTransport b ρ) (j : Fin b.maxReassemblies) (c : UInt32) :
    RadioTransport b ρ :=
  { t with touchCounter := c }.setSlot j ((t.reassemblies j).touched c)

section Duplicates

variable {h : WireHeader} {j : Fin b.maxReassemblies} (hd : decodeHeader packet = some h)
  (hr : t.refuses h = false) (hj : (t.reassemblies j).holds h = true)
  (hf : (t.reassemblies j).Fits h)
  (hgot : (t.reassemblies j).Got h.fragmentIndex.toNat)
  (hlast : h.fragmentIndex ≠ h.fragmentCount - 1)

include hd hr hj hf hgot hlast

omit [DecidableEq ρ] in
/-- One duplicate moves the counter, and its slot's stamp, on by one. -/
theorem stamped_next {c : UInt32} (hs : (t.stamped j c).Stable) (radios : Radios ρ) :
    ((t.stamped j c).processInboundPacket radios packet).1 = t.stamped j (c + 1) := by
  have hslot : (t.stamped j c).reassemblies j = (t.reassemblies j).touched c :=
    setSlot_self _ _ _
  have hfits : ((t.reassemblies j).touched c).Fits h :=
    ⟨hf.fragmentCount_eq, hf.chunkBytes_eq⟩
  obtain ⟨-, heq⟩ := duplicate_touches hs radios hd hr (by rw [hslot]; exact hj)
    (by rw [hslot]; exact hfits) (by rw [hslot]; exact hgot) hlast
  rw [heq, hslot]
  exact setSlot_setSlot { t with touchCounter := c + 1 } j
    ((t.reassemblies j).touched c) ((t.reassemblies j).touched (c + 1))

/-- Any number of them: the counter runs, and one slot's touch with
it. -/
theorem stamped_run (hs : t.Stable) (htouch : (t.reassemblies j).touch = t.touchCounter)
    (radios : Radios ρ) (k : Nat) :
    Observed.run after t (List.replicate k ⟨radios, .processInboundPacket packet⟩)
      = t.stamped j (t.touchCounter + UInt32.ofNat k) := by
  induction k with
  | zero =>
      have hzero : t.touchCounter + UInt32.ofNat 0 = t.touchCounter :=
        UInt32.add_zero _
      have hslot : (t.reassemblies j).touched t.touchCounter = t.reassemblies j := by
        rw [← htouch]
        rfl
      rw [hzero, stamped, hslot]
      exact (setSlot_eq_self t j _ rfl).symm
  | succ k ih =>
      have hstable := Observed.invariant_run (P := fun t : RadioTransport b ρ => t.Stable)
        (fun _ input hs => hs.after input) hs
        (List.replicate k ⟨radios, .processInboundPacket packet⟩)
      have hsucc : t.touchCounter + UInt32.ofNat (k + 1)
          = t.touchCounter + UInt32.ofNat k + 1 := by
        rw [UInt32.ofNat_add, UInt32.add_assoc]
        rfl
      rw [List.replicate_succ', Observed.run_append, ih, hsucc]
      rw [ih] at hstable
      exact stamped_next hd hr hj hf hgot hlast hstable radios

end Duplicates

/-- A fragment of message 1, 2, 3 and 4 each, and the last over and over
until the counter is at its end. -/
def overrunStart : List (Input Unit) :=
  [1, 2, 3, 4].map (fun id => ⟨openRadios, .processInboundPacket (firstOfTwo id)⟩)
    ++ List.replicate 4294967287 ⟨openRadios, .processInboundPacket (firstOfTwo 4)⟩

/-- The run up to the counter's end, and then the first message's fragment
once more. -/
def overrunInputs : List (Input Unit) :=
  overrunStart ++ [⟨openRadios, .processInboundPacket (firstOfTwo 1)⟩]

theorem overrunStart_state :
    Observed.run after (create 2 4) overrunStart = fullTable.stamped 3 0xFFFFFFFF := by
  have hrun := stamped_run (t := fullTable) (j := 3) (firstOfTwo_decodes 4) (by decide)
    (by decide) ⟨by decide, by decide⟩ (by unfold ReassemblyRecord.Got; decide)
    (by decide) fullTable_reachable.stable (by decide) openRadios 4294967287
  rw [overrunStart, Observed.run_append]
  show Observed.run after fullTable _ = _
  rw [hrun]
  rfl

/-- The counter has wrapped while a fragment was taken in: a new message
evicts the very slot that fragment went into. -/
theorem evicts_latest :
    ¬ (Observed.run after (create 2 4 : RadioTransport .defaults Unit)
        overrunInputs).EvictsOldest
      (Observed.trace after takings (create 2 4 : RadioTransport .defaults Unit)
        overrunInputs) := by
  intro hall
  have htakings : (fullTable.stamped 3 0xFFFFFFFF).takings
      ⟨openRadios, .processInboundPacket (firstOfTwo 1)⟩ = [0] := by decide
  rw [overrunInputs, Observed.run_append, Observed.trace_append, overrunStart_state,
    Observed.trace_cons, htakings, Observed.trace_nil, List.append_nil] at hall
  generalize Observed.trace after takings (create 2 4) overrunStart = log at hall
  obtain ⟨v, htake, holdest, -⟩ := hall openRadios (firstOfTwo 5) _
    (firstOfTwo_decodes 5) (by decide) (by decide) (by unfold Oversize; decide) (by decide)
  have hv : v = 0 := by
    have hzero : ((fullTable.stamped 3 0xFFFFFFFF).after
        ⟨openRadios, .processInboundPacket (firstOfTwo 1)⟩).takes (firstOfTwo 5)
      = some 0 := by decide
    exact Option.some.inj (htake.symm.trans hzero)
  subst hv
  have := holdest 1 (by decide)
  rw [Lru.age_concat_self] at this
  omega

end RadioTransport

end EspressioRadio
