/-
A message that comes in amid arbitrary traffic.

Nothing is asked of the other packets: they may be fragments of any
messages, complete or not, in any geometry, or no fragments at all. What
counts is how many other messages are heard of between two fragments of
this one (`Paced`). Each moves its parcel back by one place at most, so
with fewer of them than places it is still there when its next fragment
comes (`Stage`), and the fragment that completes it delivers it whole.

The argument is the inbox's: no slot, stamp or cursor appears in it. The
transport has it by `Implements.run`.
-/
import EspressioRadio.Proofs.Inbox
import EspressioRadio.Proofs.Interleave

namespace EspressioRadio

open Chunks TakenFragment

variable {b : Bounds} {ρ : Type}

-- ============================================================== pieces

namespace Cut

variable {x : Cut} {hop : UInt8} {i : Nat}

/-- The `i`-th fragment as it is taken in, in a copy with this hop limit. -/
def piece (x : Cut) (hop : UInt8) (i : Nat) : TakenFragment :=
  ⟨x.header hop i, packetBody (x.fragment hop i)⟩

/-- What a piece says of its message: identity, geometry, and its share of
the payload. -/
theorem piece_spec (hx : x.Sends) (hi : i < x.count) (hop : UInt8) :
    (x.piece hop i).header.identity = x.identity
      ∧ (x.piece hop i).index = i
      ∧ (x.piece hop i).header.fragmentCount.toNat = x.count
      ∧ (x.piece hop i).header.chunkBytes.toNat = x.chunk
      ∧ (x.piece hop i).header.payloadBytes.toNat
        = (Chunks.chunk x.message.payload x.chunk i).length
      ∧ (x.piece hop i).body = Chunks.chunk x.message.payload x.chunk i := by
  obtain ⟨hid, -, hindex, hcount, hchunk, hpayload⟩ :=
    frameHeader_spec (m := x.message.withHops hop) hx hi
  have hbody := (frame_fragmentOf (m := x.message.withHops hop) hx hi).body
  rw [hchunk, hindex] at hbody
  exact ⟨hid, hindex, hcount, hchunk, hpayload, hbody⟩

end Cut

-- ============================================================= parcels

/-- The parcel holds the fragments of the message with these indices, and
nothing else. -/
structure Parcel.Gathers (p : Parcel) (x : Cut) (seen : Nat → Prop) : Prop where
  ours : ∀ f ∈ p.taken, ∃ hop, ∃ i < x.count, f = x.piece hop i
  seen_iff : ∀ i, (∃ f ∈ p.taken, f.index = i) ↔ seen i

namespace Parcel

variable {p : Parcel} {x : Cut} {seen seen' : Nat → Prop} {hop : UInt8} {i : Nat}

theorem gathers_first (hx : x.Sends) (hi : i < x.count) (hop : UInt8) :
    ({ first := x.piece hop i } : Parcel).Gathers x (· = i) where
  ours := by
    intro f hf
    exact ⟨hop, i, hi, List.mem_singleton.mp hf⟩
  seen_iff := by
    intro k
    constructor
    · intro ⟨f, hf, hk⟩
      rw [← hk, List.mem_singleton.mp hf]
      exact (Cut.piece_spec hx hi hop).2.1
    · intro hk
      exact ⟨_, List.mem_cons_self, hk ▸ (Cut.piece_spec hx hi hop).2.1⟩

theorem Gathers.add (hp : p.Gathers x seen) (hx : x.Sends) (hi : i < x.count)
    (hop : UInt8) : (p.add (x.piece hop i)).Gathers x fun k => seen k ∨ k = i where
  ours := by
    intro f hf
    rw [taken_add] at hf
    rcases List.mem_append.mp hf with hold | hnew
    · exact hp.ours f hold
    · exact ⟨hop, i, hi, List.mem_singleton.mp hnew⟩
  seen_iff := by
    intro k
    have hpiece := (Cut.piece_spec hx hi hop).2.1
    rw [taken_add, ← hp.seen_iff]
    simp only [List.mem_append, List.mem_singleton, or_and_right, exists_or, exists_eq_left,
      hpiece]
    exact or_congr_right eq_comm

theorem Gathers.congr (hp : p.Gathers x seen) (h : ∀ i, seen i ↔ seen' i) :
    p.Gathers x seen' :=
  ⟨hp.ours, fun i => (hp.seen_iff i).trans (h i)⟩

section Contents

variable (hp : p.Gathers x seen) (hx : x.Sends)

include hp hx

/-- A parcel that gathers pieces of a message has the message's identity and
geometry. -/
theorem Gathers.spec : p.identity = x.identity
    ∧ p.first.header.fragmentCount.toNat = x.count
    ∧ p.first.header.chunkBytes.toNat = x.chunk := by
  obtain ⟨hop, i, hi, hfirst⟩ := hp.ours p.first List.mem_cons_self
  obtain ⟨hid, -, hcount, hchunk, -⟩ := Cut.piece_spec hx hi hop
  unfold identity
  rw [hfirst]
  exact ⟨hid, hcount, hchunk⟩

/-- Any further fragment of the message fits its parcel. -/
theorem Gathers.fits (hi : i < x.count) (hop : UInt8) : p.fits (x.header hop i) := by
  obtain ⟨-, hcount, hchunk⟩ := hp.spec hx
  obtain ⟨-, -, hcount', hchunk', -⟩ := Cut.piece_spec hx hi hop
  exact ⟨UInt8.toNat_inj.mp (hcount.trans hcount'.symm),
    UInt8.toNat_inj.mp (hchunk.trans hchunk'.symm)⟩

theorem Gathers.isComplete_iff : p.isComplete = true ↔ ∀ i < x.count, seen i := by
  rw [isComplete, (hp.spec hx).2.1, List.all_eq_true]
  simp only [List.mem_range, List.any_eq_true, beq_iff_eq]
  exact forall_congr' fun i => imp_congr_right fun _ => hp.seen_iff i

/-- What the first fragment of an index carries is the message's slice. -/
theorem Gathers.firstBody_eq (hi : seen i) :
    firstBody p.taken i = chunk x.message.payload x.chunk i := by
  obtain ⟨f, hf, hfi⟩ := (hp.seen_iff i).mpr hi
  unfold firstBody
  cases hfind : p.taken.find? fun f => f.index == i with
  | none =>
      have := List.find?_eq_none.mp hfind f hf
      simp [hfi] at this
  | some g =>
      obtain ⟨hop, k, hk, hg⟩ := hp.ours g (List.mem_of_find?_eq_some hfind)
      have hgi : g.index = i := by simpa using List.find?_some hfind
      obtain ⟨-, hindex, -, -, -, hbody⟩ := Cut.piece_spec hx hk hop
      show g.body = _
      rw [hg] at hgi ⊢
      rw [hbody, ← hgi, hindex]

/-- The size declared last for an index is that slice's. -/
theorem Gathers.lastSize_eq (hi : seen i) :
    lastSize p.taken i = (chunk x.message.payload x.chunk i).length := by
  obtain ⟨f, hf, hfi⟩ := (hp.seen_iff i).mpr hi
  unfold lastSize
  cases hfind : p.taken.reverse.find? fun f => f.index == i with
  | none =>
      have := List.find?_eq_none.mp hfind f (List.mem_reverse.mpr hf)
      simp [hfi] at this
  | some g =>
      have hmem := List.mem_reverse.mp (List.mem_of_find?_eq_some hfind)
      obtain ⟨hop, k, hk, hg⟩ := hp.ours g hmem
      have hgi : g.index = i := by simpa using List.find?_some hfind
      obtain ⟨-, hindex, -, -, hsize, -⟩ := Cut.piece_spec hx hk hop
      show g.header.payloadBytes.toNat = _
      rw [hg] at hgi ⊢
      rw [hsize, ← hgi, hindex]

/-- With every index in, the payload is the message's. -/
theorem Gathers.payload_eq (hall : ∀ i < x.count, seen i) :
    p.payload = x.message.payload := by
  obtain ⟨-, hcount, hchunk⟩ := hp.spec hx
  have hpos : 0 < x.count := chunkCount_pos hx.chunk_pos
  have hcount' : count p.taken = x.count := hcount
  have hchunk' : chunkSize p.taken = x.chunk := hchunk
  have hfirst : ∀ i < x.count, firstBody p.taken i = chunk x.message.payload x.chunk i :=
    fun i hi => hp.firstBody_eq hx (hall i hi)
  -- all blocks but the last are full, and the last has the size announced
  have hgapless : Gapless p.taken := by
    apply gapless_of_full
    · rw [hcount']
      exact hpos
    · intro i hi
      rw [hcount'] at hi
      have hle : (i + 1) * x.chunk ≤ (x.count - 1) * x.chunk :=
        Nat.mul_le_mul_right _ (by omega)
      have hin := pred_chunkCount_mul_le x.message.payload.length hx.chunk_pos
      have hlast : (x.count - 1) * x.chunk ≤ x.message.payload.length := hin
      rw [Nat.add_mul] at hle
      rw [hfirst i (by omega), hchunk', chunk_length]
      omega
    · rw [hcount', hfirst _ (by omega), hp.lastSize_eq hx (hall _ (by omega))]
  have hsmall : ∀ block ∈ firstBodies p.taken, block.length ≤ chunkSize p.taken := by
    intro block hblock
    obtain ⟨i, hi, rfl⟩ := List.mem_map.mp hblock
    rw [hcount'] at hi
    rw [hfirst i (List.mem_range.mp hi), hchunk']
    exact chunk_length_le ..
  have htotal :
    announcedSize p.taken ≤ (firstBodies p.taken).length * chunkSize p.taken := by
    rw [hgapless.size_eq]
    exact flatten_length_le hsmall
  calc p.payload = (firstBodies p.taken).flatten :=
        (take_padded_eq_iff hsmall htotal).mpr ⟨hgapless.size_eq, hgapless.zeros⟩
    _ = (List.range x.count).flatMap (chunk x.message.payload x.chunk) := by
        rw [List.flatMap_def, firstBodies, hcount']
        congr 1
        exact List.map_congr_left fun i hi => hfirst i (List.mem_range.mp hi)
    _ = x.message.payload := by
        rw [flatMap_chunk_range]
        exact List.take_of_length_le (le_chunkCount_mul _ hx.chunk_pos)

theorem Gathers.view_eq (hall : ∀ i < x.count, seen i) : p.view = x.message.view := by
  have hid := (hp.spec hx).1
  unfold view
  rw [hp.payload_eq hx hall, hid]
  rfl

end Contents

end Parcel

-- ====================================================== other messages

namespace Inbox

variable {I : Inbox b} {h : WireHeader} {p q : Parcel} {names : Finset MessageIdentity}
  {result : Inbox b × Option Parcel}

/-- Receiving a packet adds no parcel but one of its own message. -/
theorem Received.mem_underway (hr : Received I h result) (hq : q ∈ result.1.underway) :
    q ∈ I.underway ∨ q.identity = h.identity := by
  cases hr with
  | ignored => exact Or.inl hq
  | closed => exact Or.inl (LruCache.mem_without.mp hq).1
  | roomed hnew => exact Or.inl (List.mem_of_mem_take hq)
  | admitted p hid =>
      have hkeep : q ∈ (I.keep p).underway := by
        unfold accept at hq
        split at hq
        · exact (LruCache.mem_without.mp hq).1
        · exact hq
      rcases List.mem_cons.mp hkeep with rfl | hold
      · exact Or.inr hid
      · exact Or.inl (LruCache.mem_without.mp (List.mem_of_mem_take hold)).1

/-- Receiving a packet has no message handled but its own. -/
theorem Received.mem_handled {id : MessageIdentity} (hr : Received I h result)
    (hid : id ∈ result.1.handled) : id ∈ I.handled ∨ id = h.identity := by
  cases hr with
  | ignored => exact Or.inl hid
  | closed => exact Or.inl hid
  | roomed hnew => exact Or.inl hid
  | admitted p hp =>
      unfold accept at hid
      split at hid
      · rcases List.mem_cons.mp (List.mem_of_mem_take hid) with hnow | hold
        · exact Or.inr (hnow.trans hp)
        · exact Or.inl hold
      · exact Or.inl hid

/-- Receiving a packet hands over no message but its own. -/
theorem Received.handed (hr : Received I h result) (hq : q ∈ result.2) :
    q.identity = h.identity := by
  cases hr with
  | ignored => cases hq
  | closed => cases hq
  | roomed hnew => cases hq
  | admitted p hid =>
      unfold accept at hq
      split at hq
      · rw [← Option.mem_some.mp hq]
        exact hid
      · cases hq

/-- Another message moves back by one place at most. -/
theorem Received.behind (hr : Received I h result)
    (hb : LruCache.Behind Parcel.identity names p I.underway)
    (hne : p.identity ≠ h.identity)
    (hfew : (insert h.identity names).card < b.maxReassemblies) :
    LruCache.Behind Parcel.identity (insert h.identity names) p result.1.underway := by
  have hkeep : ∀ q : Parcel, q.identity = h.identity →
      LruCache.Behind Parcel.identity (insert h.identity names) p
        (I.keep q).underway := by
    intro q hq
    rw [← hq] at hfew ⊢
    exact hb.use I.keyed (by rw [hq]; exact hne.symm) hfew
  cases hr with
  | ignored => exact hb.mono (Finset.subset_insert ..)
  | closed =>
      exact (hb.without hne).mono
        ((Finset.erase_subset ..).trans (Finset.subset_insert ..))
  | roomed hnew => exact hb.roomed I.keyed hne hnew hfew
  | admitted q hid =>
      unfold accept
      split
      · have hout := (hkeep q hid).without (k := q.identity) (by rw [hid]; exact hne)
        exact hout.mono (Finset.erase_subset ..)
      · exact hkeep q hid

end Inbox

-- ============================================================== pacing

/-- The packet a call brings in, if it does. -/
def Input.packet? (input : Input ρ) : Option (List UInt8) :=
  match input.call with
  | .processInboundPacket packet => some packet
  | _ => none

/-- The packets that a run of calls brings in, in order. -/
def packetsOf (inputs : List (Input ρ)) : List (List UInt8) :=
  inputs.filterMap Input.packet?

/-- The messages the packets are of, as far as they decode. -/
def heard (packets : List (List UInt8)) : List MessageIdentity :=
  packets.filterMap fun packet => (decodeHeader packet).map WireHeader.identity

/-- The other messages heard of since this one last was. -/
def crowd (id : MessageIdentity) (ids : List MessageIdentity) : Finset MessageIdentity :=
  (ids.reverse.takeWhile (· ≠ id)).toFinset

/-- Whenever the message is heard of again, fewer than `n` others were
since. -/
def Paced (n : Nat) (id : MessageIdentity) (ids : List MessageIdentity) : Prop :=
  ∀ k < ids.length, ids[k]? = some id → id ∈ ids.take k → (crowd id (ids.take k)).card < n

instance (n : Nat) (id : MessageIdentity) (ids : List MessageIdentity) :
    Decidable (Paced n id ids) :=
  inferInstanceAs (Decidable (∀ k < ids.length, _ → _ → _))

section Pacing

variable {n : Nat} {id k : MessageIdentity} {ids ids' : List MessageIdentity}
  {x : Cut} {past : List (List UInt8)} {packet : List UInt8} {h : WireHeader}

@[simp] theorem crowd_concat_self : crowd id (ids ++ [id]) = ∅ := by
  simp [crowd]

theorem crowd_concat_ne (hne : k ≠ id) :
    crowd id (ids ++ [k]) = insert k (crowd id ids) := by
  simp [crowd, hne]

theorem Paced.initial (hp : Paced n id ids') (hpre : ids <+: ids') : Paced n id ids := by
  intro i hi hid hmem
  have htake : ids.take i = ids'.take i := by
    obtain ⟨rest, rfl⟩ := hpre
    rw [List.take_append_of_le_length (Nat.le_of_lt hi)]
  rw [htake] at hmem ⊢
  refine hp i (Nat.lt_of_lt_of_le hi hpre.length_le) ?_ hmem
  obtain ⟨rest, rfl⟩ := hpre
  rw [List.getElem?_append_left hi]
  exact hid

/-- The crowd when the message is heard of again. -/
theorem Paced.card_lt (hp : Paced n id (ids ++ [id])) (hmem : id ∈ ids) :
    (crowd id ids).card < n := by
  have := hp ids.length (by simp) (by simp)
  simp only [List.take_left] at this
  exact this hmem

theorem heard_concat (hd : decodeHeader packet = some h) :
    heard (past ++ [packet]) = heard past ++ [h.identity] := by
  simp [heard, hd]

theorem heard_undecodable (hd : decodeHeader packet = none) :
    heard (past ++ [packet]) = heard past := by
  simp [heard, hd]

theorem heard_initial {packets : List (List UInt8)} (hpre : past <+: packets) :
    heard past <+: heard packets := by
  obtain ⟨rest, rfl⟩ := hpre
  simp [heard]

/-- A message some fragment of which came in was heard of. -/
theorem mem_heard (hx : x.Sends) {i : Nat} (hseen : x.Seen past i) :
    x.identity ∈ heard past := by
  obtain ⟨hi, hop, hmem⟩ := hseen
  apply List.mem_filterMap.mpr
  refine ⟨_, hmem, ?_⟩
  rw [Cut.decode_fragment hx hi hop, Option.map_some, Cut.header_identity hx hi hop]

/-- A packet of another message is no fragment of this one. -/
theorem seen_concat_other (hx : x.Sends)
    (hother : ∀ h, decodeHeader packet = some h → h.identity ≠ x.identity) (i : Nat) :
    x.Seen (past ++ [packet]) i ↔ x.Seen past i := by
  constructor
  · intro ⟨hi, hop, hmem⟩
    rcases List.mem_append.mp hmem with hold | hnew
    · exact ⟨hi, hop, hold⟩
    · refine absurd (Cut.header_identity hx hi hop) (hother _ ?_)
      rw [← List.mem_singleton.mp hnew]
      exact Cut.decode_fragment hx hi hop
  · intro ⟨hi, hop, hmem⟩
    exact ⟨hi, hop, List.mem_append_left _ hmem⟩

theorem seen_mono {packets : List (List UInt8)} (hpre : past <+: packets) {i : Nat}
    (hseen : x.Seen past i) : x.Seen packets i := by
  obtain ⟨hi, hop, hmem⟩ := hseen
  exact ⟨hi, hop, hpre.subset hmem⟩

end Pacing

-- =========================================================== the message

namespace Inbox

variable {I : Inbox b} {x : Cut} {past : List (List UInt8)} {packet : List UInt8}
  {localNode : RadioNodeId} {h : WireHeader} {hop : UInt8} {i : Nat}

/-- How far the message has come: nothing of it is in, or its parcel has
all that came in, and is there as long as the crowd is small enough. -/
inductive Stage (I : Inbox b) (x : Cut) (past : List (List UInt8)) : Prop where
  | waiting (hnone : ∀ i, ¬ x.Seen past i)
      (hnew : ∀ p ∈ I.underway, p.identity ≠ x.identity)
  | underway (p : Parcel) (hp : p.Gathers x (x.Seen past))
      (hbehind : (crowd x.identity (heard past)).card < b.maxReassemblies →
        LruCache.Behind Parcel.identity (crowd x.identity (heard past)) p I.underway)

/-- The message is not handled yet, and all that came in of it is
there. -/
structure Awaits (I : Inbox b) (x : Cut) (past : List (List UInt8)) : Prop where
  unhandled : x.identity ∉ I.handled
  stage : I.Stage x past

/-- A message the inbox at this node takes in. -/
structure Admitted (b : Bounds) (localNode : RadioNodeId) (x : Cut) : Prop where
  sends : x.Sends
  size_le : x.count * x.chunk ≤ b.maxMessageBytes
  source_ne : x.message.source ≠ 0
  source_ne_local : x.message.source ≠ localNode
  destination_ne : x.message.destination ≠ 0

/-- A packet of another message moves it back by one place at most. -/
theorem Awaits.other (ha : I.Awaits x past) (hx : x.Sends)
    (hd : decodeHeader packet = some h) (hne : h.identity ≠ x.identity) :
    (I.receive localNode packet).1.Awaits x (past ++ [packet]) := by
  have hr : Received I h (I.receive localNode packet) := receive_received hd
  have hseen : ∀ i, x.Seen (past ++ [packet]) i ↔ x.Seen past i := by
    apply seen_concat_other hx
    intro h' hd'
    rw [hd] at hd'
    exact Option.some.inj hd' ▸ hne
  refine ⟨fun hmem => ?_, ?_⟩
  · rcases hr.mem_handled hmem with hold | hnow
    · exact ha.unhandled hold
    · exact hne hnow.symm
  · cases ha.stage with
    | waiting hnone hnew =>
        refine .waiting (fun i hi => hnone i ((hseen i).mp hi)) fun q hq => ?_
        rcases hr.mem_underway hq with hold | hnow
        · exact hnew q hold
        · exact fun hid => hne (hnow.symm.trans hid)
    | underway p hp hbehind =>
        refine .underway p (hp.congr fun i => (hseen i).symm) ?_
        rw [heard_concat hd, crowd_concat_ne hne]
        intro hfew
        apply hr.behind (hbehind _) _ hfew
        · exact Nat.lt_of_le_of_lt (Finset.card_le_card (Finset.subset_insert ..)) hfew
        · exact fun hid => hne (hid.symm.trans (hp.spec hx).1)

/-- A packet that does not decode leaves the message awaited as it was. -/
theorem Awaits.undecodable (ha : I.Awaits x past) (hx : x.Sends)
    (hd : decodeHeader packet = none) : I.Awaits x (past ++ [packet]) := by
  have hseen : ∀ i, x.Seen (past ++ [packet]) i ↔ x.Seen past i := by
    apply seen_concat_other hx
    intro h' hd'
    rw [hd] at hd'
    cases hd'
  refine ⟨ha.unhandled, ?_⟩
  cases ha.stage with
  | waiting hnone hnew => exact .waiting (fun i hi => hnone i ((hseen i).mp hi)) hnew
  | underway p hp hbehind =>
      refine .underway p (hp.congr fun i => (hseen i).symm) ?_
      rw [heard_undecodable hd]
      exact hbehind

/-- A fragment of the message joins what came in of it. -/
theorem Awaits.own (ha : I.Awaits x past) (hx : Admitted b localNode x) (hi : i < x.count)
    (hpaced : Paced b.maxReassemblies x.identity (heard (past ++ [x.fragment hop i]))) :
    ∃ p, p.Gathers x (x.Seen (past ++ [x.fragment hop i]))
      ∧ I.receive localNode (x.fragment hop i) = I.accept p := by
  have hd := Cut.decode_fragment hx.sends hi hop
  have hid := Cut.header_identity hx.sends hi hop
  have hopen : ¬(Foreign localNode (x.header hop i)
    ∨ (x.header hop i).identity ∈ I.handled) := by
    rintro ((hzero | hself | hzero) | hhandled)
    · exact hx.source_ne hzero
    · exact hx.source_ne_local hself
    · exact hx.destination_ne hzero
    · exact ha.unhandled (hid ▸ hhandled)
  have hseen : ∀ k, x.Seen (past ++ [x.fragment hop i]) k ↔ x.Seen past k ∨ k = i :=
    Cut.seen_self hx.sends hi
  cases ha.stage with
  | waiting hnone hnew =>
      refine ⟨{ first := x.piece hop i }, ?_, ?_⟩
      · refine (Parcel.gathers_first hx.sends hi hop).congr fun k => ?_
        rw [hseen, or_iff_right (hnone k)]
      · have hfind : I.find? (x.header hop i).identity = none := by
          apply LruCache.find?_eq_none_iff.mpr
          rw [hid]
          exact hnew
        obtain ⟨-, -, hcount, hchunk, -⟩ := Cut.piece_spec hx.sends hi hop
        have hsize : ¬ b.maxMessageBytes < (x.header hop i).fragmentCount.toNat
            * (x.header hop i).chunkBytes.toNat := by
          apply Nat.not_lt.mpr
          show (x.piece hop i).header.fragmentCount.toNat
            * (x.piece hop i).header.chunkBytes.toNat ≤ b.maxMessageBytes
          rw [hcount, hchunk]
          exact hx.size_le
        simp only [receive, hd, if_neg hopen, hfind, if_neg hsize]
        rfl
  | underway p hp hbehind =>
      refine ⟨p.add (x.piece hop i), ?_, ?_⟩
      · exact (hp.add hx.sends hi hop).congr fun k => (hseen k).symm
      · have hpid := (hp.spec hx.sends).1
        -- something of the message is in, so its pace has a say
        obtain ⟨k, hk⟩ : ∃ k, x.Seen past k :=
          ⟨_, (hp.seen_iff _).mp ⟨p.first, List.mem_cons_self, rfl⟩⟩
        rw [heard_concat hd, hid] at hpaced
        have hmem := (hbehind (hpaced.card_lt (mem_heard hx.sends hk))).mem
        have hfind : I.find? (x.header hop i).identity = some p :=
          (LruCache.find?_eq_some_iff I.keyed).mpr ⟨hmem, hpid.trans hid.symm⟩
        simp only [receive, hd, if_neg hopen, hfind, if_pos (hp.fits hx.sends hi hop)]
        rfl

/-- A fragment that is not the last index missing leaves the message
awaited, with one more of its indices in. -/
theorem Awaits.own_more (ha : I.Awaits x past) (hx : Admitted b localNode x)
    (hi : i < x.count)
    (hpaced : Paced b.maxReassemblies x.identity (heard (past ++ [x.fragment hop i])))
    (hmissing : ∃ k < x.count, ¬ x.Seen (past ++ [x.fragment hop i]) k) :
    (I.receive localNode (x.fragment hop i)).1.Awaits x (past ++ [x.fragment hop i])
      ∧ (I.receive localNode (x.fragment hop i)).2 = none := by
  obtain ⟨p, hp, hreceive⟩ := ha.own hx hi hpaced
  have hmore : p.isComplete = false := by
    rw [Bool.eq_false_iff]
    intro hall
    obtain ⟨k, hk, hnot⟩ := hmissing
    exact hnot ((hp.isComplete_iff hx.sends).mp hall k hk)
  rw [hreceive, accept, hmore]
  refine ⟨⟨ha.unhandled, .underway p hp fun _ => ?_⟩, rfl⟩
  have hd := Cut.decode_fragment hx.sends hi hop
  rw [heard_concat hd, Cut.header_identity hx.sends hi hop, crowd_concat_self]
  exact LruCache.behind_use b.maxReassemblies I.underway p

/-- The fragment with the last index missing has the message handed over
whole. -/
theorem Awaits.own_last (ha : I.Awaits x past) (hx : Admitted b localNode x)
    (hi : i < x.count)
    (hpaced : Paced b.maxReassemblies x.identity (heard (past ++ [x.fragment hop i])))
    (hall : ∀ k < x.count, x.Seen (past ++ [x.fragment hop i]) k) :
    ∃ p, (I.receive localNode (x.fragment hop i)).2 = some p ∧ p.view = x.message.view
      ∧ p.identity = x.identity := by
  obtain ⟨p, hp, hreceive⟩ := ha.own hx hi hpaced
  refine ⟨p, ?_, hp.view_eq hx.sends hall, (hp.spec hx.sends).1⟩
  rw [hreceive, accept, if_pos ((hp.isComplete_iff hx.sends).mpr hall)]

end Inbox

-- ================================================================ runs

namespace Ideal

variable [DecidableEq ρ] {y : Ideal b ρ} {x : Cut} {past : List (List UInt8)}

omit [DecidableEq ρ] in
/-- A message handed over shows up at most once, under its name. -/
theorem handled_deliver (t : RadioTransport b ρ) (radios : Radios ρ) (p : Parcel) :
    (handledIdentities (t.deliver radios p)).Sublist [p.identity] := by
  have hsends : ∀ calls : List (SendCall ρ),
      handledIdentities (calls.map Event.radioSend) = [] := fun calls => by
    simp [handledIdentities]
  unfold RadioTransport.deliver
  split
  · cases t.receiver with
    | false => exact List.nil_sublist _
    | true => exact List.Sublist.refl _
  · split
    · show (handledIdentities (_ ++ _)).Sublist _
      rw [handledIdentities, List.filterMap_append]
      have := hsends (t.sendFramed radios p.forwarded).2
      rw [handledIdentities] at this
      rw [this]
      exact List.Sublist.refl _
    · exact List.nil_sublist _

/-- What a call brings in of the message. -/
def Ours (x : Cut) (input : Input ρ) : Prop :=
  ∀ packet ∈ input.packet?, ∀ h, decodeHeader packet = some h → h.identity = x.identity →
    ∃ hop, ∃ i < x.count, packet = x.fragment hop i

/-- One call that still leaves some index missing leaves the message
awaited. -/
theorem awaits_after (ha : y.inbox.Awaits x past)
    (hx : Inbox.Admitted b y.node.localNode x)
    {input : Input ρ} (hstop : input.call ≠ .stop) (hours : Ours x input)
    (hpaced : Paced b.maxReassemblies x.identity
      (heard (past ++ input.packet?.toList)))
    (hmissing : ∃ k < x.count, ¬ x.Seen (past ++ input.packet?.toList) k) :
    (y.after input).inbox.Awaits x (past ++ input.packet?.toList)
      ∧ (y.after input).node.localNode = y.node.localNode
      ∧ x.identity ∉ handledIdentities (y.effects input) := by
  obtain ⟨radios, call⟩ := input
  have hquiet : (∀ packet, call ≠ .processInboundPacket packet) →
      x.identity ∉ handledIdentities (y.node.effects ⟨radios, call⟩) := by
    intro hnot hmem
    obtain ⟨e, he, hid⟩ := List.mem_filterMap.mp hmem
    have hno := RadioTransport.effects_ofCompletion hnot e he
    cases e with
    | receiverMessage message => cases hno
    | messageForwarded message result => cases hno
    | _ => cases hid
  cases call with
  | processInboundPacket packet =>
      -- what is handed over decides what is shown
      have hshown : (∀ q ∈ (y.inbox.receive y.node.localNode packet).2,
            q.identity ≠ x.identity) →
          x.identity ∉ handledIdentities
            (y.effects ⟨radios, .processInboundPacket packet⟩) := by
        intro hother hmem
        obtain ⟨e, he, hid⟩ := List.mem_filterMap.mp hmem
        obtain ⟨q, hq, heq⟩ := List.mem_flatMap.mp he
        have hin : x.identity ∈ handledIdentities (y.node.deliver radios q) :=
          List.mem_filterMap.mpr ⟨e, heq, hid⟩
        have := (handled_deliver y.node radios q).subset hin
        exact hother q (Option.mem_toList.mp hq) (List.mem_singleton.mp this).symm
      show (y.inbox.receive y.node.localNode packet).1.Awaits x (past ++ [packet]) ∧ _ ∧ _
      cases hd : decodeHeader packet with
      | none =>
          rw [Inbox.receive_undecodable hd] at hshown ⊢
          exact ⟨ha.undecodable hx.sends hd, rfl, hshown fun q hq => nomatch hq⟩
      | some h =>
          by_cases hid : h.identity = x.identity
          · obtain ⟨hop, i, hi, rfl⟩ := hours packet rfl h hd hid
            obtain ⟨hnext, hnone⟩ := ha.own_more hx hi hpaced hmissing
            refine ⟨hnext, rfl, hshown fun q hq => ?_⟩
            rw [hnone] at hq
            cases hq
          · refine ⟨ha.other hx.sends hd hid, rfl, hshown fun q hq hq' => ?_⟩
            exact hid ((Inbox.Received.handed
              (Inbox.receive_received hd) hq).symm.trans hq')
  | stop => exact absurd rfl hstop
  | _ =>
      refine ⟨?_, RadioTransport.after_localNode .., hquiet fun _ h => nomatch h⟩
      show y.inbox.Awaits x (past ++ [])
      rw [List.append_nil]
      exact ha

/-- Over a run that does not bring all indices, the message goes on being
awaited and nothing is handed over for it. -/
theorem awaits_run (ha : y.inbox.Awaits x past) (hx : Inbox.Admitted b y.node.localNode x)
    {rest : List (Input ρ)} (hstop : ∀ input ∈ rest, input.call ≠ .stop)
    (hours : ∀ input ∈ rest, Ours x input)
    (hpaced : Paced b.maxReassemblies x.identity (heard (past ++ packetsOf rest)))
    (hmissing : ∃ k < x.count, ¬ x.Seen (past ++ packetsOf rest) k) :
    (Observed.run after y rest).inbox.Awaits x (past ++ packetsOf rest)
      ∧ (Observed.run after y rest).node.localNode = y.node.localNode
      ∧ x.identity ∉ handledIdentities (Observed.trace after effects y rest) := by
  induction rest generalizing y past with
  | nil =>
      refine ⟨?_, rfl, List.not_mem_nil⟩
      rw [show past ++ packetsOf [] = past from List.append_nil past]
      exact ha
  | cons input rest ih =>
      have hsplit : past ++ packetsOf (input :: rest)
          = (past ++ input.packet?.toList) ++ packetsOf rest := by
        rw [List.append_assoc]
        congr 1
        unfold packetsOf
        rw [List.filterMap_cons]
        cases input.packet? <;> rfl
      have hpre : past ++ input.packet?.toList <+: past ++ packetsOf (input :: rest) :=
        hsplit ▸ List.prefix_append ..
      obtain ⟨k, hk, hnot⟩ := hmissing
      obtain ⟨hnext, hlocal, hnow⟩ := awaits_after ha hx (hstop input List.mem_cons_self)
        (hours input List.mem_cons_self) (hpaced.initial (heard_initial hpre))
        ⟨k, hk, fun hseen => hnot (seen_mono hpre hseen)⟩
      rw [hsplit] at hpaced hnot ⊢
      obtain ⟨hend, hlocal', hlater⟩ := ih hnext (hlocal ▸ hx)
        (fun i hi => hstop i (List.mem_cons_of_mem _ hi))
        (fun i hi => hours i (List.mem_cons_of_mem _ hi)) hpaced ⟨k, hk, hnot⟩
      refine ⟨hend, hlocal'.trans hlocal, fun hmem => ?_⟩
      obtain ⟨e, he, hid⟩ := List.mem_filterMap.mp hmem
      rcases List.mem_append.mp he with he | he
      · exact hnow (List.mem_filterMap.mpr ⟨e, he, hid⟩)
      · exact hlater (List.mem_filterMap.mpr ⟨e, he, hid⟩)

/-- The call that brings the last missing index hands the message over and
shows nothing else. -/
theorem delivers_last (ha : y.inbox.Awaits x past)
    (hx : Inbox.Admitted b y.node.localNode x)
    (hdestination : x.message.destination = y.node.localNode
      ∨ x.message.destination = broadcastNode)
    (hreceiver : y.node.receiver = true) {radios : Radios ρ} {hop : UInt8} {i : Nat}
    (hpaced : Paced b.maxReassemblies x.identity (heard (past ++ [x.fragment hop i])))
    (hi : i < x.count) (hothers : ∀ k < x.count, k ≠ i → x.Seen past k) :
    y.effects ⟨radios, .processInboundPacket (x.fragment hop i)⟩
      = delivery x.message.view := by
  obtain ⟨p, hp, hview, hpid⟩ := ha.own_last hx hi hpaced fun k hk => by
    apply (Cut.seen_self hx.sends hi k).mpr
    by_cases hki : k = i
    · exact Or.inr hki
    · exact Or.inl (hothers k hk hki)
  have hhere : p.identity.destination = y.node.localNode
      ∨ p.identity.destination = broadcastNode := by
    rw [hpid]
    exact hdestination
  show (y.inbox.receive y.node.localNode (x.fragment hop i)).2.toList.flatMap
    (y.node.deliver radios) = delivery x.message.view
  rw [hp]
  show y.node.deliver radios p ++ [] = delivery x.message.view
  rw [List.append_nil, RadioTransport.deliver, if_pos hhere, hreceiver, hview]
  rfl

end Ideal

namespace RadioTransport

variable {t : RadioTransport b ρ} {y : Ideal b ρ} {x : Cut}

/-- A message the transport knows nothing of is awaited. -/
theorem Implements.awaits (hy : t.Implements y) (hunknown : ¬ t.Knows x.identity) :
    y.inbox.Awaits x [] where
  unhandled := fun hmem => hunknown (Or.inl ((hy.mem_handled_iff _).mp hmem))
  stage := by
    refine .waiting (fun i hi => ?_) fun p hp hid => ?_
    · obtain ⟨-, hop, hmem⟩ := hi
      cases hmem
    · obtain ⟨cell, hh, hk⟩ := hy.shelved
      obtain ⟨i, hi⟩ := hk.mem_iff.mp hp
      have his := hh.of_some i p hi
      exact hunknown (Or.inr ⟨i, his.used, his.identity.trans hid⟩)

theorem Implements.localNode_eq (hy : t.Implements y) :
    y.node.localNode = t.localNode := by
  rw [hy.node_eq]
  rfl

variable [DecidableEq ρ]

theorem run_localNode (t : RadioTransport b ρ) (inputs : List (Input ρ)) :
    (Observed.run after t inputs).localNode = t.localNode := by
  refine Observed.invariant_run
    (P := fun s : RadioTransport b ρ => s.localNode = t.localNode)
    ?_ rfl inputs
  intro s input hs
  exact (s.after_localNode input).trans hs

/-- A message for this node, unknown to it so far. Its fragments come in,
in any order and number, and between two of them fewer than
`maxReassemblies` other messages are heard of, whatever becomes of those.
Then nothing is handed over for it until the last missing fragment comes
in, and that one delivers it whole. -/
theorem delivered_amid_traffic {localNode : RadioNodeId} {defaultHopLimit : UInt8}
    {before rest : List (Input ρ)} {radios : Radios ρ} {hop : UInt8} {i : Nat}
    (hrun : Observed.Along after Faithful
      (create localNode defaultHopLimit : RadioTransport b ρ)
      (before ++ rest ++ [⟨radios, .processInboundPacket (x.fragment hop i)⟩]))
    (hx : Inbox.Admitted b localNode x)
    (hdestination : x.message.destination = localNode
      ∨ x.message.destination = broadcastNode)
    (hunknown : ¬ (Observed.run after
      (create localNode defaultHopLimit : RadioTransport b ρ) before).Knows x.identity)
    (hstop : ∀ input ∈ rest, input.call ≠ .stop)
    (hours : ∀ input ∈ rest, Ideal.Ours x input)
    (hpaced : Paced b.maxReassemblies x.identity
      (heard (packetsOf rest ++ [x.fragment hop i])))
    (hi : i < x.count) (hlast : ¬ x.Seen (packetsOf rest) i)
    (hothers : ∀ k < x.count, k ≠ i → x.Seen (packetsOf rest) k)
    (hreceiver : (Observed.run after
      (create localNode defaultHopLimit : RadioTransport b ρ)
      (before ++ rest)).receiver = true) :
    x.identity ∉ handledIdentities (Observed.trace after effects
        (Observed.run after
          (create localNode defaultHopLimit : RadioTransport b ρ) before)
        rest)
      ∧ (Observed.run after (create localNode defaultHopLimit : RadioTransport b ρ)
          (before ++ rest)).effects ⟨radios, .processInboundPacket (x.fragment hop i)⟩
        = delivery x.message.view := by
  obtain ⟨hpast, hfaithful⟩ := Observed.along_append.mp hrun
  obtain ⟨hbefore, hrest⟩ := Observed.along_append.mp hpast
  obtain ⟨hy, -⟩ := (implements_create localNode defaultHopLimit).run hbefore
  obtain ⟨hy', htrace⟩ := hy.run hrest
  have hlocal := hy.localNode_eq
  rw [run_localNode] at hlocal
  change _ = localNode at hlocal
  rw [← hlocal] at hx hdestination
  -- the fragments before the last are not all
  obtain ⟨hawaits, hlocal', hnone⟩ := Ideal.awaits_run (hy.awaits hunknown) hx hstop hours
    (hpaced.initial (heard_initial (List.prefix_append ..)))
    ⟨i, hi, hlast⟩
  rw [List.nil_append] at hawaits
  refine ⟨htrace ▸ hnone, ?_⟩
  rw [Observed.run_append] at hfaithful hreceiver ⊢
  rw [(hy'.after hfaithful.1).2]
  rw [← hlocal'] at hx hdestination
  apply Ideal.delivers_last hawaits hx hdestination _ hpaced hi hothers
  rw [hy'.node_eq]
  exact hreceiver

/-- Node 5's message 9 to node 2, of two bytes in two fragments. -/
def pair : Cut where
  message :=
    { source := 5, destination := 2, channel := 7, messageId := 9, hopLimit := 4
      payload := [0xAA, 0xBB] }
  chunk := 1

/-- The first of the two fragments comes in, and then one of three other
messages each. -/
def pairTraffic : List (Input Unit) :=
  [pair.fragment 4 0, firstOfTwo 1, firstOfTwo 2, firstOfTwo 3].map fun packet =>
    ⟨openRadios, .processInboundPacket packet⟩

/-- Four slots: the second fragment still finds the first. -/
theorem pair_delivered_amid_traffic :
    pair.identity ∉ handledIdentities (Observed.trace after effects
        (Observed.run after (create 2 4 : RadioTransport .defaults Unit)
          [⟨openRadios, .setReceiver true⟩]) pairTraffic)
      ∧ (Observed.run after (create 2 4 : RadioTransport .defaults Unit)
          ([⟨openRadios, .setReceiver true⟩] ++ pairTraffic)).effects
          ⟨openRadios, .processInboundPacket (pair.fragment 4 1)⟩
        = delivery pair.message.view := by
  have hpair : pair.Sends := ⟨by decide, by decide, by decide⟩
  have hother : ∀ id : RadioMessageId, id ≠ 9 →
    ∀ h, decodeHeader (firstOfTwo id) = some h →
      h.identity ≠ pair.identity := by
    intro id hne h hd hid
    rw [firstOfTwo_decodes] at hd
    rw [← Option.some.inj hd] at hid
    exact hne (congrArg MessageIdentity.messageId hid)
  apply delivered_amid_traffic (i := 1)
  · exact ⟨default_faithful (by decide), default_faithful (by decide),
      default_faithful (by decide), default_faithful (by decide),
      default_faithful (by decide), default_faithful (by decide), trivial⟩
  · exact ⟨hpair, by decide, by decide, by decide, by decide⟩
  · exact Or.inl rfl
  · rintro (⟨i, hu, -⟩ | ⟨i, hu, -⟩)
    · cases hu
    · cases hu
  · intro input hinput hcall
    simp only [pairTraffic, List.map_cons, List.map_nil, List.mem_cons, List.not_mem_nil,
      or_false] at hinput
    rcases hinput with rfl | rfl | rfl | rfl <;> cases hcall
  · intro input hinput packet hpacket h hd hid
    simp only [pairTraffic, List.map_cons, List.map_nil, List.mem_cons, List.not_mem_nil,
      or_false] at hinput
    rcases hinput with rfl | rfl | rfl | rfl
    · exact ⟨4, 0, by decide, (Option.mem_some.mp hpacket).symm⟩
    · exact absurd hid (hother 1 (by decide) h (Option.mem_some.mp hpacket ▸ hd))
    · exact absurd hid (hother 2 (by decide) h (Option.mem_some.mp hpacket ▸ hd))
    · exact absurd hid (hother 3 (by decide) h (Option.mem_some.mp hpacket ▸ hd))
  · decide
  · decide
  · -- three of the four packets are of other messages, and the fourth has index 0
    show ¬ pair.Seen (([] ++ [pair.fragment 4 0]) ++ [firstOfTwo 1] ++ [firstOfTwo 2]
      ++ [firstOfTwo 3]) 1
    rw [seen_concat_other hpair (hother 3 (by decide)),
      seen_concat_other hpair (hother 2 (by decide)),
      seen_concat_other hpair (hother 1 (by decide)), Cut.seen_self hpair (by decide)]
    rintro (⟨-, hop, hmem⟩ | heq)
    · cases hmem
    · cases heq
  · intro k hk hne
    obtain rfl : k = 0 := by
      have : k < 2 := hk
      omega
    exact ⟨by decide, 4, List.mem_cons_self⟩
  · rfl

end RadioTransport

end EspressioRadio
