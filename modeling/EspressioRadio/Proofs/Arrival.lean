/-
One message's fragments arriving at a transport.

`Collects s m c seen` is a slot that took the fragments of `m`, cut at
chunk size `c`, whose indices are in `seen`: the first fragment makes
one (`firstStore_collects`), every further one adds its index
(`Collects.store`), and with all indices in, the slot holds `m`
(`Collects.message_eq`). `in_order` runs this from the first fragment to
the last with nothing in between.
-/
import EspressioRadio.Proofs.Outside

namespace EspressioRadio

open Chunks

variable {b : Bounds} {ρ : Type}

/-- The message as its receiver should see it. -/
def Outbound.view (m : Outbound) : RadioTransportMessageView where
  sourceNode := m.source
  destinationNode := m.destination
  channel := m.channel
  messageId := m.messageId
  payload := m.payload

/-- The message with another hop limit: what a copy of it that took
another path looks like. -/
def Outbound.withHops (m : Outbound) (hopLimit : UInt8) : Outbound :=
  { m with hopLimit := hopLimit }

namespace ReassemblyRecord

/-- The message a slot is passed on as has the slot's identity and, as the
next lemma says, its payload. -/
theorem forwarded_identity (s : ReassemblyRecord) :
    s.forwarded.identity = s.identity := rfl

theorem forwarded_payload (s : ReassemblyRecord) :
    s.forwarded.payload = s.message.payload := rfl

/-- A slot's message is fixed by its identity and the payload. -/
theorem message_eq_view {s : ReassemblyRecord} {m : Outbound}
    (hid : s.identity = m.identity) (hp : s.message.payload = m.payload) :
    s.message = m.view := by
  unfold ReassemblyRecord.identity Outbound.identity at hid
  injection hid with hsrc hdst hch hmid
  unfold Outbound.view
  rw [← hsrc, ← hdst, ← hch, ← hmid, ← hp]
  rfl

-- ================================================ a slot filling up

/-- The slot took the fragments of `m` with these indices. -/
structure Collects (s : ReassemblyRecord) (m : Outbound) (c : Nat)
    (seen : Nat → Prop) : Prop where
  used : s.used = true
  identity : s.identity = m.identity
  chunk_eq : s.chunkBytes.toNat = c
  carries : s.Carries m.payload
  got : ∀ i, s.Got i ↔ seen i

variable {s : ReassemblyRecord} {m : Outbound} {c i : Nat} {seen : Nat → Prop}

/-- The header of any fragment of the message names such a slot. -/
theorem Collects.holds {h : WireHeader} (hc : s.Collects m c seen)
    (hh : h.identity = m.identity) : s.holds h = true :=
  holds_iff.mpr ⟨hc.used, hc.identity.trans hh.symm⟩

/-- A further fragment of the same cut agrees with the slot on count and
chunk size. -/
theorem Collects.fits (hc : s.Collects m c seen) (hs : Sendable m.payload c)
    (hi : i < chunkCount m.payload.length c) : s.Fits (frameHeader m c i) := by
  obtain ⟨-, -, -, hcount, hchunk, -⟩ := frameHeader_spec hs hi
  constructor
  · rw [← UInt8.toNat_inj, hc.carries.count, hc.chunk_eq, hcount]
  · rw [← UInt8.toNat_inj, hc.chunk_eq, hchunk]

/-- Touching a slot changes nothing of what it has collected: the touch is
no part of the contents. -/
theorem Collects.touched (hc : s.Collects m c seen) (touch : UInt32) :
    (s.touched touch).Collects m c seen :=
  ⟨hc.used, hc.identity, hc.chunk_eq, hc.carries.touched touch, hc.got⟩

/-- A slot that has collected one set of indices has collected every set
with the same members. -/
theorem Collects.congr {seen' : Nat → Prop} (hc : s.Collects m c seen)
    (heq : ∀ i, seen i ↔ seen' i) : s.Collects m c seen' :=
  ⟨hc.used, hc.identity, hc.chunk_eq, hc.carries, fun i => (hc.got i).trans (heq i)⟩

/-- Storing a further fragment adds its index to those the slot has
collected. -/
theorem Collects.store (hc : s.Collects m c seen) (hw : s.WellFormed b)
    (hs : Sendable m.payload c) (hi : i < chunkCount m.payload.length c) :
    (s.store (frameHeader m c i) (packetBody (frame m c i))).Collects m c
      fun j => seen j ∨ j = i := by
  have hfit := hc.fits hs hi
  have hfrag := frame_fragmentOf hs hi
  obtain ⟨-, -, hindex, -, -, -⟩ := frameHeader_spec hs hi
  have hidx := index_lt_received hw hfit (frameHeader_wellFormed hs hi)
  refine ⟨?_, ?_, ?_, carries_store hw hc.carries hfit hfrag, fun j => ?_⟩
  · rw [store_used]
    exact hc.used
  · rw [store_identity]
    exact hc.identity
  · rw [store_chunkBytes]
    exact hc.chunk_eq
  · rw [got_store hidx, hindex, hc.got]

/-- With every index in, the slot is complete, and only then. -/
theorem Collects.isComplete_iff (hc : s.Collects m c seen) (hw : s.WellFormed b) :
    s.isComplete = true ↔ ∀ i < chunkCount m.payload.length c, seen i := by
  rw [ReassemblyRecord.isComplete_iff hw, hc.carries.count, hc.chunk_eq]
  exact forall₂_congr fun i _ => hc.got i

/-- A complete slot's message is the one that was sent. -/
theorem Collects.message_eq (hc : s.Collects m c seen) (hw : s.WellFormed b)
    (hdone : s.isComplete = true) : s.message = m.view :=
  message_eq_view hc.identity (hc.carries.message_payload hw hdone)

/-- What a complete slot is forwarded as is the message with one hop less
than the slot has. -/
theorem Collects.forwarded_eq (hc : s.Collects m c seen) (hw : s.WellFormed b)
    (hdone : s.isComplete = true) :
    s.forwarded = m.withHops (s.hopLimit - 1) := by
  have hview := hc.message_eq hw hdone
  have hid := hc.identity
  unfold ReassemblyRecord.identity Outbound.identity at hid
  injection hid with hsrc hdst hch hmid
  unfold ReassemblyRecord.forwarded Outbound.withHops
  rw [hview, hsrc, hdst, hch, hmid]
  rfl

end ReassemblyRecord

namespace RadioTransport

variable {t : RadioTransport b ρ} {m : Outbound} {c i : Nat}

/-- A slot opened by one fragment holds that fragment. -/
theorem firstStore_collects {touch : UInt32} (hs : Sendable m.payload c)
    (hi : i < chunkCount m.payload.length c)
    (ha : chunkCount m.payload.length c * c ≤ b.maxMessageBytes) :
    (firstStore (frameHeader m c i) (packetBody (frame m c i)) touch).Collects m c
      fun j => j = i := by
  have hfrag := frame_fragmentOf hs hi
  obtain ⟨hid, -, -, hcount, hchunk, -⟩ := frameHeader_spec hs hi
  have hw : (({} : ReassemblyRecord).opened (frameHeader m c i) touch).WellFormed b :=
    ReassemblyRecord.opened_wellFormed (frameHeader_wellFormed hs hi)
      (by rw [hcount, hchunk]; exact ha)
  have hopen : (({} : ReassemblyRecord).opened (frameHeader m c i) touch).Collects
      m c fun _ => False :=
    ⟨rfl, hid, hchunk, ReassemblyRecord.carries_opened hfrag, fun j =>
      iff_false_intro (ReassemblyRecord.not_got_opened j)⟩
  exact (hopen.store hw hs hi).congr fun j => or_iff_right not_false

-- ==================================================== what a packet does

/-- A fragment whose message has a slot goes into it. -/
theorem receiveFragment_stored (hs : t.Sound) {packet : List UInt8}
    {h : WireHeader} {j : Fin b.maxReassemblies}
    (hd : decodeHeader packet = some h) (hr : t.refuses h = false)
    (hj : (t.reassemblies j).holds h = true) (hf : (t.reassemblies j).Fits h) :
    t.receiveFragment packet
      = (t.bumpTouch.setSlot j
          (((t.reassemblies j).touched (t.touchCounter + 1)).store h
            (packetBody packet)),
        some j) := by
  have hin := receiveFragment_inbound hs packet
  generalize t.receiveFragment packet = r at hin ⊢
  obtain ⟨t', taken⟩ := r
  have hsame : ∀ {h'}, decodeHeader packet = some h' → h' = h := fun hd' => by
    rw [hd] at hd'
    injection hd' with hd'
    exact hd'.symm
  -- no other slot has the identity, so the one found is `j`
  have honly : ∀ {k}, (t.reassemblies k).holds h = true → k = j := fun {k} hk => by
    obtain ⟨hku, hkid⟩ := ReassemblyRecord.holds_iff.mp hk
    obtain ⟨hju, hjid⟩ := ReassemblyRecord.holds_iff.mp hj
    exact hs.distinct k j hku hju (hkid.trans hjid.symm)
  cases hin with
  | undecodable hd' =>
      rw [hd] at hd'
      cases hd'
  | refused hd' hr' =>
      rw [hsame hd', hr] at hr'
      cases hr'
  | tooLarge hd' _ hn _ =>
      rw [hsame hd'] at hn
      rw [hn j] at hj
      cases hj
  | mismatched hd' _ hi' hf' =>
      rw [hsame hd'] at hi' hf'
      rw [honly hi'] at hf'
      exact absurd hf hf'
  | stored hd' _ hi' _ =>
      rw [hsame hd'] at hi' ⊢
      rw [honly hi']
      rfl
  | opened hd' _ hn _ =>
      rw [hsame hd'] at hn
      rw [hn j] at hj
      cases hj

/-- A fragment whose message has none opens one, if it is small
enough. -/
theorem receiveFragment_opened (hs : t.Sound) {packet : List UInt8}
    {h : WireHeader} (hd : decodeHeader packet = some h)
    (hr : t.refuses h = false) (hn : ∀ j, (t.reassemblies j).holds h = false)
    (ha : h.fragmentCount.toNat * h.chunkBytes.toNat ≤ b.maxMessageBytes) :
    t.receiveFragment packet
      = (t.bumpTouch.bumpTouch.setSlot t.victim
          (firstStore h (packetBody packet) (t.touchCounter + 1 + 1)),
        some t.victim) := by
  have hin := receiveFragment_inbound hs packet
  generalize t.receiveFragment packet = r at hin ⊢
  obtain ⟨t', taken⟩ := r
  have hsame : ∀ {h'}, decodeHeader packet = some h' → h' = h := fun hd' => by
    rw [hd] at hd'
    injection hd' with hd'
    exact hd'.symm
  cases hin with
  | undecodable hd' =>
      rw [hd] at hd'
      cases hd'
  | refused hd' hr' =>
      rw [hsame hd', hr] at hr'
      cases hr'
  | tooLarge hd' _ _ ha' =>
      rw [hsame hd'] at ha'
      omega
  | mismatched hd' _ hi' _ =>
      rw [hsame hd', hn] at hi'
      cases hi'
  | stored hd' _ hi' _ =>
      rw [hsame hd', hn] at hi'
      cases hi'
  | opened hd' _ _ _ =>
      rw [hsame hd']
      rfl

/-- A packet the transport refuses to reassemble changes nothing and shows
nothing. -/
theorem processInboundPacket_refused {packet : List UInt8} {h : WireHeader}
    (radios : Radios ρ) (hd : decodeHeader packet = some h)
    (hr : t.refuses h = true) : t.processInboundPacket radios packet = (t, []) := by
  unfold processInboundPacket receiveFragment
  rw [hd]
  dsimp only
  rw [if_pos hr]

/-- Only the node's tables decide where a completed message goes. -/
theorem dispatch_congr {t' : RadioTransport b ρ} {radios : Radios ρ}
    {slot : ReassemblyRecord} (hlocal : t'.localNode = t.localNode)
    (hreceiver : t'.receiver = t.receiver)
    (hinterfaces : t'.interfaces = t.interfaces) (hroutes : t'.routes = t.routes) :
    t'.dispatch radios slot = t.dispatch radios slot := by
  have hsend : ∀ m, t'.sendFramed radios m = t.sendFramed radios m := fun m => by
    unfold sendFramed findRoute findDefaultInterface
    rw [hinterfaces, hroutes]
  unfold dispatch
  rw [hlocal, hreceiver, hsend]

-- ======================================================= what is known

variable {id : MessageIdentity}

/-- The identity is in the ring or in a slot. -/
def Knows (t : RadioTransport b ρ) (id : MessageIdentity) : Prop :=
  t.Remembers id ∨
    ∃ i, (t.reassemblies i).used = true ∧ (t.reassemblies i).identity = id

/-- The call brings in no fragment of this identity. -/
def Avoids (id : MessageIdentity) (input : Input ρ) : Prop :=
  ∀ packet h, input.call = .processInboundPacket packet →
    decodeHeader packet = some h → h.identity ≠ id

/-- A packet of another identity teaches nothing about this one. -/
theorem receiveFragment_knows (hs : t.Sound) {packet : List UInt8}
    (havoid : ∀ h, decodeHeader packet = some h → h.identity ≠ id)
    {j : Fin b.maxReassemblies}
    (hu : ((t.receiveFragment packet).1.reassemblies j).used = true)
    (hid : ((t.receiveFragment packet).1.reassemblies j).identity = id) :
    t.Knows id := by
  have hin := receiveFragment_inbound hs packet
  rcases hin.slot_cases hu with ⟨-, heq⟩ | ⟨h, hd, -, hi, -, -, heq⟩ |
    ⟨h, hd, -, -, -, -, heq⟩
  · rw [heq] at hu hid
    exact Or.inr ⟨j, hu, hid⟩
  · rw [heq, ReassemblyRecord.store_identity] at hid
    exact Or.inr ⟨j, (ReassemblyRecord.holds_iff.mp hi).1, hid⟩
  · rw [heq, firstStore_identity] at hid
    exact absurd hid (havoid h hd)

/-- What a call leaves known of an identity it does not bring in was
known before. -/
theorem knows_after [DecidableEq ρ] (hs : t.Stable) {input : Input ρ}
    (havoid : Avoids id input) (hk : (t.after input).Knows id) : t.Knows id := by
  by_cases hin : ∃ packet, input.call = .processInboundPacket packet
  · obtain ⟨packet, hcall⟩ := hin
    have hbring : ∀ h, decodeHeader packet = some h → h.identity ≠ id :=
      fun h => havoid packet h hcall
    have hafter : t.after input = (t.processInboundPacket input.radios packet).1 := by
      unfold after perform
      rw [hcall]
    rw [hafter] at hk
    rcases hk with hr | ⟨i, hu, hid⟩
    · have hrecent := (receiveFragment_inbound hs.toSound packet).recent_eq
      have hold : (t.receiveFragment packet).1.Remembers id → t.Knows id := by
        intro h
        unfold Remembers at h
        rw [hrecent] at h
        exact Or.inl h
      rcases processInboundPacket_cases hs.toSound input.radios packet with
        ⟨heq, -⟩ | ⟨i, htake, -, heq⟩
      · rw [heq] at hr
        exact hold hr
      · rw [heq] at hr
        rcases remembers_remember hr with hr' | hid
        · exact hold hr'
        · have hin := receiveFragment_inbound hs.toSound packet
          have htake' : (t.receiveFragment packet).2 = some i := htake
          rw [htake'] at hin
          exact receiveFragment_knows hs.toSound hbring hin.taken_used hid.symm
    · have heq := processInboundPacket_slot hs.toSound input.radios hu
      rw [heq] at hu hid
      exact receiveFragment_knows hs.toSound hbring hu hid
  · -- other calls leave the ring, and the slots or none of them
    obtain ⟨hrecent, -, hslots⟩ :=
      after_tables t input fun packet hcall => hin ⟨packet, hcall⟩
    rcases hk with hr | ⟨i, hu, hid⟩
    · unfold Remembers at hr
      rw [hrecent] at hr
      exact Or.inl hr
    · rcases hslots with hsame | hempty
      · rw [hsame] at hu hid
        exact Or.inr ⟨i, hu, hid⟩
      · rw [hempty i] at hu
        cases hu

/-- No call changes the local node id, which only the constructor sets. -/
theorem after_localNode [DecidableEq ρ] (t : RadioTransport b ρ) (input : Input ρ) :
    (t.after input).localNode = t.localNode := by
  by_cases hin : ∃ packet, input.call = .processInboundPacket packet
  · obtain ⟨packet, hcall⟩ := hin
    unfold after perform
    rw [hcall]
    exact (processInboundPacket_frame t input.radios packet).1
  · exact (after_sender fun packet hcall => hin ⟨packet, hcall⟩).1

-- ======================================================= many packets

/-- Packets coming in one after the other, each with the radios as it finds
them. -/
def arrivals (radios : Nat → Radios ρ) (packets : List (List UInt8)) :
    List (Input ρ) :=
  packets.mapIdx fun i packet => ⟨radios i, .processInboundPacket packet⟩

theorem arrivals_concat (radios : Nat → Radios ρ) (packets : List (List UInt8))
    (packet : List UInt8) :
    arrivals radios (packets ++ [packet])
      = arrivals radios packets
        ++ [⟨radios packets.length, .processInboundPacket packet⟩] := by
  unfold arrivals
  rw [List.mapIdx_concat]

theorem arrivals_frames_succ (radios : Nat → Radios ρ) (m : Outbound) (c k : Nat) :
    arrivals radios (frames m c (k + 1))
      = arrivals radios (frames m c k)
        ++ [⟨radios k, .processInboundPacket (frame m c k)⟩] := by
  unfold frames
  rw [List.range_succ, List.map_append, List.map_singleton, arrivals_concat,
    List.length_map, List.length_range]

theorem arrivals_cons (radios : Nat → Radios ρ) (packet : List UInt8)
    (packets : List (List UInt8)) :
    arrivals radios (packet :: packets)
      = ⟨radios 0, .processInboundPacket packet⟩
        :: arrivals (fun i => radios (i + 1)) packets :=
  List.mapIdx_cons

/-- A run over arrivals handles one packet, and then the others. -/
theorem arrivals_run_cons [DecidableEq ρ] (radios : Nat → Radios ρ) (packet : List UInt8)
    (packets : List (List UInt8)) :
    Observed.run after t (arrivals radios (packet :: packets))
      = Observed.run after (t.processInboundPacket (radios 0) packet).1
          (arrivals (fun i => radios (i + 1)) packets) := by
  rw [arrivals_cons]
  rfl

theorem arrivals_trace_cons [DecidableEq ρ] (radios : Nat → Radios ρ)
    (packet : List UInt8) (packets : List (List UInt8)) :
    Observed.trace after effects t (arrivals radios (packet :: packets))
      = (t.processInboundPacket (radios 0) packet).2
        ++ Observed.trace after effects (t.processInboundPacket (radios 0) packet).1
          (arrivals (fun i => radios (i + 1)) packets) := by
  rw [arrivals_cons]
  rfl

-- ================================================== a remembered message

/-- A fragment of a remembered message changes nothing. -/
theorem remembered_fragment_ignored (hs : Sendable m.payload c)
    (hr : t.Remembers m.identity) {i : Nat} (hi : i < chunkCount m.payload.length c)
    (radios : Radios ρ) : t.processInboundPacket radios (frame m c i) = (t, []) := by
  have hfragment := frame_fragmentOf hs hi
  refine processInboundPacket_refused radios hfragment.decodes ?_
  have hrecent := isRecent_iff.mpr (hfragment.identity ▸ hr)
  unfold refuses
  rw [hrecent, Bool.or_true]

/-- The fragments of a remembered message change nothing and show nothing,
any number of them in any order. -/
theorem remembered_fragments_ignored [DecidableEq ρ] (hs : Sendable m.payload c)
    (hr : t.Remembers m.identity) (radios : Nat → Radios ρ) (indices : List Nat)
    (hlt : ∀ i ∈ indices, i < chunkCount m.payload.length c) :
    Observed.run after t (arrivals radios (indices.map (frame m c))) = t
      ∧ Observed.trace after effects t (arrivals radios (indices.map (frame m c)))
        = [] := by
  induction indices generalizing radios with
  | nil => exact ⟨rfl, rfl⟩
  | cons i indices ih =>
      obtain ⟨hi, hlt⟩ := List.forall_mem_cons.mp hlt
      rw [List.map_cons, arrivals_run_cons, arrivals_trace_cons,
        remembered_fragment_ignored hs hr hi (radios 0)]
      exact ih _ hlt

/-- The first fragments of a remembered message, in order, change nothing
and show nothing. -/
theorem remembered_ignored [DecidableEq ρ] (radios : Nat → Radios ρ)
    (hs : Sendable m.payload c) (hr : t.Remembers m.identity) {k : Nat}
    (hk : k ≤ chunkCount m.payload.length c) :
    Observed.run after t (arrivals radios (frames m c k)) = t
      ∧ Observed.trace after effects t (arrivals radios (frames m c k)) = [] :=
  remembered_fragments_ignored hs hr radios (List.range k) fun _ hi =>
    Nat.lt_of_lt_of_le (List.mem_range.mp hi) hk

-- ==================================================== in order, alone

/-- The transport takes fragments of the message, cut at `c`: nothing
in its header or size speaks against it. -/
structure Admits (t : RadioTransport b ρ) (m : Outbound) (c : Nat) : Prop where
  sendable : Sendable m.payload c
  size_le : chunkCount m.payload.length c * c ≤ b.maxMessageBytes
  source_ne : m.source ≠ 0
  source_ne_local : m.source ≠ t.localNode
  destination_ne : m.destination ≠ 0

/-- Short of being remembered, such a fragment is not refused. -/
theorem Admits.refuses_eq {s : RadioTransport b ρ} {h : WireHeader}
    (ha : t.Admits m c) (hlocal : s.localNode = t.localNode)
    (hid : h.identity = m.identity) (hrecent : ¬ s.Remembers m.identity) :
    s.refuses h = false := by
  have hnot : s.isRecent h = false := isRecent_eq_false_iff.mpr (hid ▸ hrecent)
  unfold WireHeader.identity Outbound.identity at hid
  injection hid with hsrc hdst _ _
  unfold refuses
  rw [hnot, hsrc, hdst, hlocal]
  simp [ha.source_ne, ha.source_ne_local, ha.destination_ne]

/-- Slot `j` of `s` took the first `k` fragments of `m`; beyond the
slots, `s` is still `t`. -/
structure Took (t s : RadioTransport b ρ) (m : Outbound) (c k : Nat)
    (j : Fin b.maxReassemblies) : Prop where
  sound : s.Sound
  collects : (s.reassemblies j).Collects m c fun i => i < k
  hopLimit_eq : (s.reassemblies j).hopLimit = m.hopLimit
  recent_eq : s.recent = t.recent
  frame_eq : s.localNode = t.localNode ∧ s.receiver = t.receiver
    ∧ s.interfaces = t.interfaces ∧ s.routes = t.routes

/-- Between two of the fragments: none has come in yet and the state is the
first one, or `k` of them have and one slot holds them. -/
structure Halfway (t s : RadioTransport b ρ) (m : Outbound) (c k : Nat) :
    Prop where
  stable : s.Stable
  took : (k = 0 ∧ s = t) ∨ ∃ j, Took t s m c k j

variable {s : RadioTransport b ρ} {k : Nat}

/-- What `receiveFragment` leaves alone, as far as `Took` asks. -/
private theorem receiveFragment_keeps (hs : s.Sound) (packet : List UInt8) :
    (s.receiveFragment packet).1.Sound
      ∧ (s.receiveFragment packet).1.recent = s.recent
      ∧ (s.receiveFragment packet).1.localNode = s.localNode
      ∧ (s.receiveFragment packet).1.receiver = s.receiver
      ∧ (s.receiveFragment packet).1.interfaces = s.interfaces
      ∧ (s.receiveFragment packet).1.routes = s.routes := by
  have hin := receiveFragment_inbound hs packet
  refine ⟨hin.sound hs, hin.recent_eq, ?_⟩
  rw [hin.frame]
  exact ⟨rfl, rfl, rfl, rfl⟩

/-- The next fragment in order goes into a slot, which then holds one
fragment more. -/
theorem Halfway.next (hh : Halfway t s m c k) (ha : t.Admits m c)
    (hrecent : ¬ t.Remembers m.identity)
    (hn : ∀ j, (t.reassemblies j).used = true →
      (t.reassemblies j).identity ≠ m.identity)
    (hk : k < chunkCount m.payload.length c) :
    ∃ j, s.takes (frame m c k) = some j
      ∧ Took t (s.receiveFragment (frame m c k)).1 m c (k + 1) j := by
  have hs := hh.stable.toSound
  have hd := (frame_fragmentOf ha.sendable hk).decodes
  obtain ⟨hid, hhop, -, hcount, hchunk, -⟩ := frameHeader_spec ha.sendable hk
  obtain ⟨hsound, hrec, hloc, hrcv, hint, hrou⟩ :=
    receiveFragment_keeps hs (frame m c k)
  rcases hh.took with ⟨rfl, rfl⟩ | ⟨j, ht⟩
  · -- the first of them opens a slot
    have hfree : ∀ j, (s.reassemblies j).holds (frameHeader m c 0) = false := by
      intro j
      rw [Bool.eq_false_iff]
      intro hj
      obtain ⟨hu, hji⟩ := ReassemblyRecord.holds_iff.mp hj
      exact hn j hu (hji.trans hid)
    have hopen := receiveFragment_opened hs hd
      (ha.refuses_eq rfl hid hrecent) hfree (by rw [hcount, hchunk]; exact ha.size_le)
    refine ⟨s.victim, by unfold takes; rw [hopen], hsound, ?_, ?_, hrec,
      hloc, hrcv, hint, hrou⟩
    · rw [hopen]
      dsimp only
      rw [setSlot_self]
      exact (firstStore_collects ha.sendable hk ha.size_le).congr fun i => by omega
    · rw [hopen]
      dsimp only
      rw [setSlot_self, firstStore, ReassemblyRecord.store_hopLimit]
      exact hhop
  · -- a further one joins those before it
    obtain ⟨hloc', hrcv', hint', hrou'⟩ := ht.frame_eq
    have hrecent' : ¬ s.Remembers m.identity := by
      unfold Remembers
      rw [ht.recent_eq]
      exact hrecent
    have hstore := receiveFragment_stored hs hd (ha.refuses_eq hloc' hid hrecent')
      (ht.collects.holds hid) (ht.collects.fits ha.sendable hk)
    have hw := hs.slot j ht.collects.used
    refine ⟨j, by unfold takes; rw [hstore], hsound, ?_, ?_, hrec.trans ht.recent_eq,
      hloc.trans hloc', hrcv.trans hrcv', hint.trans hint', hrou.trans hrou'⟩
    · rw [hstore]
      dsimp only
      rw [setSlot_self]
      exact ((ht.collects.touched _).store (hw.touched _) ha.sendable hk).congr
        fun i => by omega
    · rw [hstore]
      dsimp only
      rw [setSlot_self, ReassemblyRecord.store_hopLimit]
      exact ht.hopLimit_eq

section Alone

variable (hs : t.Stable) (ha : t.Admits m c) (hrecent : ¬ t.Remembers m.identity)
  (hn : ∀ j, (t.reassemblies j).used = true →
    (t.reassemblies j).identity ≠ m.identity)
  (radios : Nat → Radios ρ)

include hs ha hrecent hn

variable [DecidableEq ρ]

/-- Short of the last fragment nothing is visible outside. -/
theorem in_order_before_last (hk : k < chunkCount m.payload.length c) :
    Halfway t (Observed.run after t (arrivals radios (frames m c k))) m c k
      ∧ Observed.trace after effects t (arrivals radios (frames m c k)) = [] := by
  induction k with
  | zero => exact ⟨⟨hs, Or.inl ⟨rfl, rfl⟩⟩, rfl⟩
  | succ k ih =>
      obtain ⟨hhalf, htrace⟩ := ih (by omega)
      obtain ⟨j, htake, htook⟩ := hhalf.next ha hrecent hn (by omega)
      rw [arrivals_frames_succ, Observed.run_append, Observed.trace_append, htrace]
      generalize Observed.run after t (arrivals radios (frames m c k)) = s at hhalf htake htook ⊢
      have hw := htook.sound.slot j htook.collects.used
      have hpart : ((s.receiveFragment (frame m c k)).1.reassemblies j).isComplete
          = false := by
        rw [Bool.eq_false_iff]
        intro hdone
        have := (htook.collects.isComplete_iff hw).mp hdone (k + 1) hk
        omega
      have hstable := hhalf.stable.after
        ⟨radios k, .processInboundPacket (frame m c k)⟩
      have hquiet : s.processInboundPacket (radios k) (frame m c k)
          = ((s.receiveFragment (frame m c k)).1, []) := by
        rcases processInboundPacket_cases hhalf.stable.toSound (radios k)
            (frame m c k) with ⟨heq, -⟩ | ⟨i, hi, hdone, -⟩
        · exact heq
        · rw [htake] at hi
          obtain rfl := Option.some.inj hi
          rw [hpart] at hdone
          cases hdone
      refine ⟨⟨hstable, Or.inr ⟨j, ?_⟩⟩, ?_⟩
      · show Took t (s.processInboundPacket (radios k) (frame m c k)).1 m c (k + 1) j
        rw [hquiet]
        exact htook
      · show [] ++ ((s.processInboundPacket (radios k) (frame m c k)).2 ++ []) = []
        rw [hquiet]
        rfl

/-- The last fragment in order completes the message: the slot is finished
and its message dispatched. -/
private theorem in_order_last {n : Nat}
    (hlast : chunkCount m.payload.length c = n + 1) :
    ∃ (s s' : RadioTransport b ρ) (j : Fin b.maxReassemblies),
      Observed.run after t (arrivals radios (frames m c n)) = s
        ∧ Took t s' m c (n + 1) j
        ∧ (s'.reassemblies j).isComplete = true
        ∧ s.processInboundPacket (radios n) (frame m c n)
          = (s'.finish j, s'.dispatch (radios n) (s'.reassemblies j)) := by
  obtain ⟨hhalf, -⟩ := in_order_before_last hs ha hrecent hn radios
    (show n < chunkCount m.payload.length c by omega)
  obtain ⟨j, htake, htook⟩ := hhalf.next ha hrecent hn (by omega)
  have hdone := (htook.collects.isComplete_iff
    (htook.sound.slot j htook.collects.used)).mpr fun i hi => by omega
  refine ⟨_, _, j, rfl, htook, hdone, ?_⟩
  rcases processInboundPacket_cases hhalf.stable.toSound (radios n)
      (frame m c n) with ⟨-, hno⟩ | ⟨i, hi, -, heq⟩
  · rw [hno j htake] at hdone
    cases hdone
  · rw [htake] at hi
    obtain rfl := Option.some.inj hi
    exact heq

/-- All fragments in order, with nothing in between: the last one
completes the message, and nothing is visible before. -/
theorem in_order {n : Nat} (hlast : chunkCount m.payload.length c = n + 1) :
    ∃ slot : ReassemblyRecord, slot.message = m.view
      ∧ slot.forwarded = m.withHops (m.hopLimit - 1)
      ∧ slot.hopLimit = m.hopLimit
      ∧ Observed.trace after effects t (arrivals radios (frames m c (n + 1)))
        = t.dispatch (radios n) slot := by
  obtain ⟨s, s', j, hrun, htook, hdone, heq⟩ :=
    in_order_last hs ha hrecent hn radios hlast
  have hw := htook.sound.slot j htook.collects.used
  obtain ⟨hloc, hrcv, hint, hrou⟩ := htook.frame_eq
  refine ⟨_, htook.collects.message_eq hw hdone, ?_, htook.hopLimit_eq, ?_⟩
  · rw [htook.collects.forwarded_eq hw hdone, htook.hopLimit_eq]
  · rw [arrivals_frames_succ, Observed.trace_append, hrun,
      (in_order_before_last hs ha hrecent hn radios (by omega)).2,
      ← dispatch_congr hloc hrcv hint hrou]
    show [] ++ ((s.processInboundPacket (radios n) (frame m c n)).2 ++ []) = _
    rw [heq, List.nil_append, List.append_nil]

/-- Once all its fragments have come in, in order, the message is among the
recent ones. -/
theorem in_order_remembers :
    (Observed.run after t
      (arrivals radios (frames m c (chunkCount m.payload.length c)))).Remembers
        m.identity := by
  have hpos := chunkCount_pos (n := m.payload.length) ha.sendable.chunk_pos
  obtain ⟨n, hlast⟩ := Nat.exists_eq_add_one_of_ne_zero (Nat.pos_iff_ne_zero.mp hpos)
  obtain ⟨s, s', j, hrun, htook, -, heq⟩ :=
    in_order_last hs ha hrecent hn radios hlast
  rw [hlast, arrivals_frames_succ, Observed.run_append, hrun]
  show (s.processInboundPacket (radios n) (frame m c n)).1.Remembers m.identity
  rw [heq, ← htook.collects.identity]
  exact finish_remembers s' j

/-- At its destination, the message reaches the receiver once and
whole. -/
theorem in_order_delivered
    (hd : m.destination = t.localNode ∨ m.destination = broadcastNode)
    (hr : t.receiver = true) :
    receiverMessages (Observed.trace after effects t
        (arrivals radios (frames m c (chunkCount m.payload.length c))))
      = [m.view] := by
  have hpos := chunkCount_pos (n := m.payload.length) ha.sendable.chunk_pos
  obtain ⟨n, hlast⟩ := Nat.exists_eq_add_one_of_ne_zero (Nat.pos_iff_ne_zero.mp hpos)
  obtain ⟨slot, hview, -, -, htrace⟩ := in_order hs ha hrecent hn radios hlast
  have hdst : slot.destination = m.destination :=
    congrArg RadioTransportMessageView.destinationNode hview
  rw [hlast, htrace, dispatch_local (by rw [hdst]; exact hd), if_pos hr, hview]
  rfl

end Alone

end RadioTransport

end EspressioRadio
