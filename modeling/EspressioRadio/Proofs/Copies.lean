/-
A partial copy of a message, and then a whole one.

Copies of one message share its identity, and may be cut at different
chunk sizes: a broadcast goes out over radios of different MTU, and
forwarders have radios of their own. `Partial` is what a node holds of a
message before it has it all: the fragments taken from one copy. A
further fragment of the same cut adds to them (`Partial.next`). The
first fragment of another cut resets the slot and is itself dropped, so
of a whole copy that follows it, fragment 0 is missing to the end
(`blocked`). Hence the whole copy is delivered exactly when it is cut
like the partial one, or there is no partial one left in a slot
(`copy_delivered_iff`).
-/
import EspressioRadio.Proofs.Arrival

namespace EspressioRadio

open Chunks

namespace RadioTransport

variable {b : Bounds} {ρ : Type} {t : RadioTransport b ρ} {m : Outbound}
  {c i k : Nat} {seen : Nat → Prop}

-- ===================================================== part of a message

/-- Of `m` the tables hold the fragments `seen` of the copy cut at `c`,
in the slot of its identity, and it is not remembered. -/
structure Partial (t : RadioTransport b ρ) (m : Outbound) (c : Nat)
    (seen : Nat → Prop) : Prop where
  unfinished : ¬ t.Remembers m.identity
  slot : ∀ j, (t.reassemblies j).used = true →
    (t.reassemblies j).identity = m.identity → (t.reassemblies j).Collects m c seen
  empty : (∀ j, (t.reassemblies j).used = true →
    (t.reassemblies j).identity ≠ m.identity) → ∀ i, ¬ seen i

/-- Of a message the node knows nothing of, the tables hold no fragments. -/
theorem partial_of_unknown (hn : ¬ t.Knows m.identity) :
    t.Partial m c fun _ => False where
  unfinished := fun hr => hn (Or.inl hr)
  slot := fun j hu hid => absurd (Or.inr ⟨j, hu, hid⟩) hn
  empty := fun _ _ hfalse => hfalse

/-- A fragment of that copy goes into the slot of its identity, which then
holds it too. -/
theorem Partial.taken (hp : t.Partial m c seen) (hs : t.Sound) (ha : t.Admits m c)
    (hi : i < chunkCount m.payload.length c) :
    ∃ j, t.takes (frame m c i) = some j
      ∧ ((t.receiveFragment (frame m c i)).1.reassemblies j).Collects m c
        fun k => seen k ∨ k = i := by
  have hd := (frame_fragmentOf ha.sendable hi).decodes
  obtain ⟨hid, -, -, hcount, hchunk, -⟩ := frameHeader_spec ha.sendable hi
  have hrefuse := ha.refuses_eq rfl hid hp.unfinished
  by_cases hslot : ∃ j, (t.reassemblies j).used = true
      ∧ (t.reassemblies j).identity = m.identity
  · obtain ⟨j, hu, hj⟩ := hslot
    have hc := hp.slot j hu hj
    have hstore := receiveFragment_stored hs hd hrefuse (hc.holds hid)
      (hc.fits ha.sendable hi)
    refine ⟨j, by unfold takes; rw [hstore], ?_⟩
    rw [hstore]
    dsimp only
    rw [setSlot_self]
    exact (hc.touched _).store ((hs.slot j hu).touched _) ha.sendable hi
  · have hnone : ∀ j, (t.reassemblies j).used = true →
        (t.reassemblies j).identity ≠ m.identity := fun j hu hj => hslot ⟨j, hu, hj⟩
    have hfree : ∀ j, (t.reassemblies j).holds (frameHeader m c i) = false := by
      intro j
      rw [Bool.eq_false_iff]
      intro hj
      obtain ⟨hu, hji⟩ := ReassemblyRecord.holds_iff.mp hj
      exact hnone j hu (hji.trans hid)
    have hopen := receiveFragment_opened hs hd hrefuse hfree
      (by rw [hcount, hchunk]; exact ha.size_le)
    refine ⟨t.victim, by unfold takes; rw [hopen], ?_⟩
    rw [hopen]
    dsimp only
    rw [setSlot_self]
    exact (firstStore_collects ha.sendable hi ha.size_le).congr fun k =>
      ⟨Or.inr, fun hk => hk.resolve_left (hp.empty hnone k)⟩

/-- With the fragment the message is still short of one, and nothing is
visible outside; or it is the last, and the message is handed on and
remembered. -/
theorem Partial.next (hp : t.Partial m c seen) (hs : t.Stable) (ha : t.Admits m c)
    (hi : i < chunkCount m.payload.length c) (radios : Radios ρ) :
    ((∃ k < chunkCount m.payload.length c, ¬(seen k ∨ k = i))
        ∧ (t.processInboundPacket radios (frame m c i)).1.Partial m c
          (fun k => seen k ∨ k = i)
        ∧ (t.processInboundPacket radios (frame m c i)).2 = [])
      ∨ (∀ k < chunkCount m.payload.length c, seen k ∨ k = i)
        ∧ (t.processInboundPacket radios (frame m c i)).1.Remembers m.identity
        ∧ ∃ slot : ReassemblyRecord, slot.message = m.view
          ∧ (t.processInboundPacket radios (frame m c i)).2
            = t.dispatch radios slot := by
  obtain ⟨j, htake, hc⟩ := hp.taken hs.toSound ha hi
  have hin := receiveFragment_inbound hs.toSound (frame m c i)
  have hsound := hin.sound hs.toSound
  have hw := hsound.slot j hc.used
  rcases processInboundPacket_cases hs.toSound radios (frame m c i) with
    ⟨heq, hmore⟩ | ⟨j', htake', hdone, heq⟩
  · rw [heq]
    refine Or.inl ⟨?_, ⟨?_, ?_, ?_⟩, rfl⟩
    · -- not complete, so some index is missing
      by_contra hall
      push Not at hall
      have hdone := (hc.isComplete_iff hw).mpr hall
      rw [hmore j htake] at hdone
      cases hdone
    · unfold Remembers
      rw [hin.recent_eq]
      exact hp.unfinished
    · intro j' hu hid
      rw [hsound.distinct j' j hu hc.used (hid.trans hc.identity.symm)]
      exact hc
    · exact fun hnone => absurd hc.identity (hnone j hc.used)
  · -- complete: the slot that took the fragment is the one finished
    rw [htake] at htake'
    obtain rfl := Option.some.inj htake'
    rw [heq]
    refine Or.inr ⟨(hc.isComplete_iff hw).mp hdone, ?_, _, hc.message_eq hw hdone, ?_⟩
    · rw [← hc.identity]
      exact finish_remembers _ j
    · dsimp only
      rw [hin.frame]
      exact dispatch_congr rfl rfl rfl rfl

/-- A fragment of another cut resets the slot, and is not kept. -/
theorem Partial.mismatched {c' : Nat} (hp : t.Partial m c seen) (hs : t.Sound)
    (ha : t.Admits m c') (hne : c ≠ c') (hk : t.Knows m.identity)
    (hi : i < chunkCount m.payload.length c') (radios : Radios ρ) :
    ∃ j, t.processInboundPacket radios (frame m c' i) = (t.setSlot j {}, [])
      ∧ ¬ (t.setSlot j {}).Knows m.identity := by
  obtain ⟨j, hu, hj⟩ := hk.resolve_left hp.unfinished
  have hd := (frame_fragmentOf ha.sendable hi).decodes
  obtain ⟨hid, -, -, -, hchunk, -⟩ := frameHeader_spec ha.sendable hi
  have hc := hp.slot j hu hj
  have hholds := hc.holds hid
  -- the identity's slot is found, its chunk size differs, and the other outcomes are
  -- ruled out
  have hreceive : t.receiveFragment (frame m c' i) = (t.setSlot j {}, none) := by
    have hin := receiveFragment_inbound hs (frame m c' i)
    generalize t.receiveFragment (frame m c' i) = r at hin ⊢
    obtain ⟨t', taken⟩ := r
    cases hin with
    | undecodable hd' => cases hd.symm.trans hd'
    | refused hd' hr =>
        cases hd.symm.trans hd'
        rw [ha.refuses_eq rfl hid hp.unfinished] at hr
        cases hr
    | tooLarge hd' hr hn ho =>
        cases hd.symm.trans hd'
        rw [hn j] at hholds
        cases hholds
    | @mismatched h i' hd' hr hi' hf =>
        cases hd.symm.trans hd'
        obtain ⟨hu', hj'⟩ := ReassemblyRecord.holds_iff.mp hi'
        rw [hs.distinct i' j hu' hu (hj'.trans (hid.trans hj.symm))]
        rfl
    | @stored h i' hd' hr hi' hf =>
        cases hd.symm.trans hd'
        obtain ⟨hu', hj'⟩ := ReassemblyRecord.holds_iff.mp hi'
        have hc' := hp.slot i' hu' (hj'.trans hid)
        refine absurd ?_ hne
        rw [← hc'.chunk_eq, ← hchunk, hf.chunkBytes_eq]
    | opened hd' hr hn ho =>
        cases hd.symm.trans hd'
        rw [hn j] at hholds
        cases hholds
  refine ⟨j, ?_, ?_⟩
  · rcases processInboundPacket_cases hs radios (frame m c' i) with
      ⟨heq, -⟩ | ⟨j', htake, -, -⟩
    · rw [heq, hreceive]
    · unfold takes at htake
      rw [hreceive] at htake
      cases htake
  · -- no other slot has the identity
    rintro (hr | ⟨j', hu', hj'⟩)
    · exact hp.unfinished hr
    · by_cases hjj : j' = j
      · subst hjj
        rw [setSlot_self] at hu'
        cases hu'
      · rw [setSlot_ne t j {} hjj] at hu' hj'
        exact hjj (hs.distinct j' j hu' hu (hj'.trans hj.symm))

-- ================================================================== runs

/-- What admits a message depends on the node's id alone. -/
theorem Admits.congr {s : RadioTransport b ρ} (ha : t.Admits m c)
    (hlocal : s.localNode = t.localNode) : s.Admits m c :=
  { ha with source_ne_local := hlocal ▸ ha.source_ne_local }

section Runs

variable [DecidableEq ρ]

/-- What no packet changes: the table's soundness, the local node id and
whether there is a receiver. -/
theorem arrival_keeps (hs : t.Stable) (radios : Radios ρ) (packet : List UInt8) :
    (t.processInboundPacket radios packet).1.Stable
      ∧ (t.processInboundPacket radios packet).1.localNode = t.localNode
      ∧ (t.processInboundPacket radios packet).1.receiver = t.receiver := by
  obtain ⟨hlocal, -, -, hreceiver, -⟩ :=
    processInboundPacket_frame t radios packet
  exact ⟨hs.after ⟨radios, .processInboundPacket packet⟩, hlocal, hreceiver⟩

/-- Some fragments of one copy, in any order: as long as one is missing,
the tables hold those, and nothing is visible outside. -/
theorem Partial.received (hp : t.Partial m c seen) (hs : t.Stable)
    (ha : t.Admits m c) (radios : Nat → Radios ρ) (indices : List Nat)
    (hlt : ∀ i ∈ indices, i < chunkCount m.payload.length c)
    (hmissing : ∃ i < chunkCount m.payload.length c, ¬(seen i ∨ i ∈ indices)) :
    (Observed.run after t (arrivals radios (indices.map (frame m c)))).Partial m c
        (fun i => seen i ∨ i ∈ indices)
      ∧ Observed.trace after effects t (arrivals radios (indices.map (frame m c)))
        = [] := by
  induction indices generalizing t seen radios with
  | nil =>
      have heq : (fun i => seen i ∨ i ∈ ([] : List Nat)) = seen := by simp
      exact ⟨heq.symm ▸ hp, rfl⟩
  | cons i indices ih =>
      obtain ⟨hi, hlt⟩ := List.forall_mem_cons.mp hlt
      have heq : ∀ k, (seen k ∨ k ∈ i :: indices)
          = ((seen k ∨ k = i) ∨ k ∈ indices) := by
        simp [or_assoc]
      simp only [heq] at hmissing ⊢
      rw [List.map_cons, arrivals_run_cons, arrivals_trace_cons]
      obtain ⟨hstable, hlocal, -⟩ := arrival_keeps hs (radios 0) (frame m c i)
      rcases hp.next hs ha hi (radios 0) with ⟨-, hnext, hquiet⟩ | ⟨hall, -⟩
      · rw [hquiet]
        exact ih hnext hstable (ha.congr hlocal) _ hlt hmissing
      · obtain ⟨k, hk, hnot⟩ := hmissing
        exact absurd (Or.inl (hall k hk)) hnot

/-- With the missing fragments of that copy, in any order, the message
is delivered, once. -/
theorem Partial.completed (hp : t.Partial m c seen) (hs : t.Stable)
    (ha : t.Admits m c) (hdst : m.destination = t.localNode)
    (hreceiver : t.receiver = true) (radios : Nat → Radios ρ) (indices : List Nat)
    (hlt : ∀ i ∈ indices, i < chunkCount m.payload.length c)
    (hall : ∀ i < chunkCount m.payload.length c, seen i ∨ i ∈ indices) :
    receiverMessages (Observed.trace after effects t
        (arrivals radios (indices.map (frame m c)))) = [m.view] := by
  induction indices generalizing t seen radios with
  | nil =>
      -- all in already: the slot would be complete
      have hseen : ∀ i < chunkCount m.payload.length c, seen i := fun i hi =>
        (hall i hi).resolve_right List.not_mem_nil
      have hslot : ∃ j, (t.reassemblies j).used = true
          ∧ (t.reassemblies j).identity = m.identity := by
        by_contra hnone
        push Not at hnone
        exact hp.empty hnone 0 (hseen 0 (chunkCount_pos ha.sendable.chunk_pos))
      obtain ⟨j, hu, hid⟩ := hslot
      have hdone := ((hp.slot j hu hid).isComplete_iff (hs.slot j hu)).mpr hseen
      rw [hs.incomplete j hu] at hdone
      cases hdone
  | cons i indices ih =>
      obtain ⟨hi, hlt⟩ := List.forall_mem_cons.mp hlt
      rw [List.map_cons, arrivals_trace_cons, receiverMessages_append]
      obtain ⟨hstable, hlocal, hkept⟩ := arrival_keeps hs (radios 0) (frame m c i)
      rcases hp.next hs ha hi (radios 0) with
        ⟨-, hnext, hquiet⟩ | ⟨-, hremembers, slot, hview, hdispatch⟩
      · rw [hquiet]
        refine ih hnext hstable (ha.congr hlocal) (hdst.trans hlocal.symm)
          (hkept.trans hreceiver) _ hlt fun k hk => ?_
        have := hall k hk
        rw [List.mem_cons, ← or_assoc] at this
        exact this
      · have hto : slot.destination = m.destination :=
          congrArg RadioTransportMessageView.destinationNode hview
        rw [(remembered_fragments_ignored ha.sendable hremembers _ indices hlt).2,
          hdispatch, dispatch_local (Or.inl (hto.trans hdst)), if_pos hreceiver, hview]
        rfl

/-- Of a whole copy in order, cut otherwise than what the tables hold,
the first fragment is dropped, and the others wait for it. -/
theorem Partial.blocked {c' : Nat} (hp : t.Partial m c seen) (hs : t.Stable)
    (ha : t.Admits m c') (hne : c ≠ c') (hk : t.Knows m.identity)
    (radios : Nat → Radios ρ) :
    Observed.trace after effects t
        (arrivals radios (frames m c' (chunkCount m.payload.length c'))) = [] := by
  have hpos := chunkCount_pos (n := m.payload.length) ha.sendable.chunk_pos
  obtain ⟨n, hn⟩ := Nat.exists_eq_add_one_of_ne_zero (Nat.pos_iff_ne_zero.mp hpos)
  obtain ⟨j, hreset, hunknown⟩ := hp.mismatched hs.toSound ha hne hk hpos (radios 0)
  rw [frames, hn, List.range_succ_eq_map, List.map_cons, arrivals_trace_cons, hreset]
  refine ((partial_of_unknown hunknown).received (hs.clear j) (ha.congr rfl) _
    ((List.range n).map Nat.succ) ?_ ⟨0, hpos, ?_⟩).2
  · intro i hi
    obtain ⟨i', hi', rfl⟩ := List.mem_map.mp hi
    rw [hn]
    exact Nat.succ_lt_succ (List.mem_range.mp hi')
  · simp

/-- A whole copy in order is delivered exactly when it is cut like what
the tables hold of the message, or they hold nothing of it. -/
theorem copy_delivered_iff {c₁ c₂ : Nat} (hreach : t.Reachable)
    (hreceiver : t.receiver = true) (hdst : m.destination = t.localNode)
    (hp : t.Partial m c₁ seen) (ha : t.Admits m c₂) (radios : Nat → Radios ρ) :
    receiverMessages (Observed.trace after effects t
        (arrivals radios (frames m c₂ (chunkCount m.payload.length c₂)))) = [m.view]
      ↔ c₁ = c₂ ∨ ¬ t.Knows m.identity := by
  have hs := hreach.stable
  have hrange : ∀ i ∈ List.range (chunkCount m.payload.length c₂),
      i < chunkCount m.payload.length c₂ := fun i hi => List.mem_range.mp hi
  have hall : ∀ seen : Nat → Prop, ∀ i < chunkCount m.payload.length c₂,
      seen i ∨ i ∈ List.range (chunkCount m.payload.length c₂) := fun _ i hi =>
    Or.inr (List.mem_range.mpr hi)
  constructor
  · intro hdelivered
    by_contra hnot
    push Not at hnot
    rw [hp.blocked hs ha hnot.1 hnot.2 radios] at hdelivered
    cases hdelivered
  · rintro (rfl | hunknown)
    · exact hp.completed hs ha hdst hreceiver radios _ hrange (hall seen)
    · exact (partial_of_unknown hunknown).completed hs ha hdst hreceiver radios _
        hrange (hall _)

end Runs

-- ================================================= over two interfaces

/-- Two bytes from node 1 to node 2. -/
def twoBytes : Outbound :=
  { source := 1, destination := 2, channel := 7, messageId := 1, hopLimit := 4
    payload := [0xA1, 0xA2] }

/-- Node 2 with a receiver, freshly built. -/
def freshNode : RadioTransport .defaults Unit :=
  Observed.run after (create 2 4) [⟨openRadios, .setReceiver true⟩]

/-- Node 2 after the first of the two fragments of a copy cut byte by byte. -/
def halfwayNode : RadioTransport .defaults Unit :=
  Observed.run after freshNode (arrivals (fun _ => openRadios) [frame twoBytes 1 0])

theorem halfwayNode_reachable : halfwayNode.Reachable :=
  ⟨2, 4, _, (Observed.run_append _ [_] _).symm⟩

theorem twoBytes_admitted {c : Nat} (hc : c = 1 ∨ c = 2) :
    halfwayNode.Admits twoBytes c := by
  rcases hc with rfl | rfl
  · exact ⟨⟨by decide, by decide, by decide⟩, by decide, by decide, by decide, by decide⟩
  · exact ⟨⟨by decide, by decide, by decide⟩, by decide, by decide, by decide, by decide⟩

theorem freshNode_unknown : ¬ freshNode.Knows twoBytes.identity := by
  rintro (⟨i, hi, -⟩ | ⟨j, hj, -⟩)
  · cases hi
  · cases hj

theorem halfwayNode_holds :
    halfwayNode.Partial twoBytes 1 fun i => False ∨ i ∈ [0] :=
  ((partial_of_unknown freshNode_unknown).received (stable_of_empty fun _ => rfl)
    ((twoBytes_admitted (Or.inl rfl)).congr rfl) (fun _ => openRadios) [0]
    (by decide) ⟨1, by decide, by decide⟩).1

/-- At node 2 halfway, a whole copy cut at two bytes would be delivered if
the cuts agreed or the node knew nothing of the message. -/
theorem halfwayNode_copy :
    receiverMessages (Observed.trace after effects halfwayNode
        (arrivals (fun _ => openRadios)
          (frames twoBytes 2 (chunkCount twoBytes.payload.length 2))))
        = [twoBytes.view]
      ↔ 1 = 2 ∨ ¬ halfwayNode.Knows twoBytes.identity :=
  copy_delivered_iff halfwayNode_reachable rfl rfl halfwayNode_holds
    (twoBytes_admitted (Or.inr rfl)) fun _ => openRadios

/-- A copy in one fragment, which node 2 has room for, is not delivered: its
packet is dropped with the slot of the other cut. -/
theorem copy_blocked :
    halfwayNode.Reachable ∧ halfwayNode.receiver = true
      ∧ halfwayNode.Partial twoBytes 1 (fun i => False ∨ i ∈ [0])
      ∧ halfwayNode.Admits twoBytes 2
      ∧ receiverMessages (Observed.trace after effects halfwayNode
          (arrivals (fun _ => openRadios)
            (frames twoBytes 2 (chunkCount twoBytes.payload.length 2)))) = [] := by
  refine ⟨halfwayNode_reachable, rfl, halfwayNode_holds,
    twoBytes_admitted (Or.inr rfl), ?_⟩
  rw [halfwayNode_holds.blocked halfwayNode_reachable.stable
    (twoBytes_admitted (Or.inr rfl)) (by decide) ?_]
  · rfl
  · exact Or.inr ⟨0, by decide, by decide⟩

end RadioTransport

end EspressioRadio
