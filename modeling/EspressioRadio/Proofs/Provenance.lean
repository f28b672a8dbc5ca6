/-
Where a delivered byte comes from.

`Recorded` runs a transport with a ledger beside it: for every slot the
fragments taken into it since it was opened, in order. A slot is what
its ledger makes of it (`Stored`): the first fragment of each index,
padded to the chunk size, and the size the last fragment of the final
index declares. The two disagree when a fragment falls short of the
chunk size or a repeated final fragment declares another size, and
`handed_payload_iff` says exactly when that shows in the message handed
over.
-/
import EspressioRadio.Lib.Padded
import EspressioRadio.Proofs.Arrival

namespace EspressioRadio

open Chunks

variable {b : Bounds} {ρ : Type}

-- ============================================================ the ledger

/-- A fragment as it was taken in: its header and its share of the payload. -/
structure TakenFragment where
  header : WireHeader
  body : List UInt8
  deriving DecidableEq

/-- The packet as a fragment, if it decodes. -/
def takenFragment (packet : List UInt8) : Option TakenFragment :=
  (decodeHeader packet).map fun h => ⟨h, packetBody packet⟩

namespace TakenFragment

def index (f : TakenFragment) : Nat := f.header.fragmentIndex.toNat

/-- The fragment count and chunk size all fragments of a slot share. -/
def count (taken : List TakenFragment) : Nat :=
  match taken with
  | [] => 0
  | f :: _ => f.header.fragmentCount.toNat

def chunkSize (taken : List TakenFragment) : Nat :=
  match taken with
  | [] => 0
  | f :: _ => f.header.chunkBytes.toNat

/-- What the first fragment with this index carries. -/
def firstBody (taken : List TakenFragment) (i : Nat) : List UInt8 :=
  match taken.find? fun f => f.index == i with
  | some f => f.body
  | none => []

/-- The size the last fragment with this index declares. -/
def lastSize (taken : List TakenFragment) (i : Nat) : Nat :=
  match taken.reverse.find? fun f => f.index == i with
  | some f => f.header.payloadBytes.toNat
  | none => 0

/-- The bodies of the fragments that came first for their index, in index
order. -/
def firstBodies (taken : List TakenFragment) : List (List UInt8) :=
  (List.range (count taken)).map (firstBody taken)

/-- The size announced by the geometry and the last final fragment. -/
def announcedSize (taken : List TakenFragment) : Nat :=
  (count taken - 1) * chunkSize taken + lastSize taken (count taken - 1)

/-- The announced size is that of the first fragments, and after one that
falls short of the chunk size they carry zeros only. -/
structure Gapless (taken : List TakenFragment) : Prop where
  size_eq : announcedSize taken = (firstBodies taken).flatten.length
  zeros : ∀ before block after, firstBodies taken = before ++ block :: after →
    block.length < chunkSize taken → ∀ x ∈ after.flatten, x = 0

variable {taken : List TakenFragment} {f : TakenFragment} {i : Nat}

theorem firstBody_none (h : ¬ ∃ f ∈ taken, f.index = i) : firstBody taken i = [] := by
  unfold firstBody
  split
  · next f hf =>
    exact absurd ⟨f, List.mem_of_find?_eq_some hf, by simpa using List.find?_some hf⟩ h
  · rfl

/-- A further fragment counts if it is the first of its index. -/
theorem firstBody_concat (taken : List TakenFragment) (f : TakenFragment) (i : Nat) :
    firstBody (taken ++ [f]) i
      = if (∃ g ∈ taken, g.index = i) ∨ f.index ≠ i then firstBody taken i
        else f.body := by
  unfold firstBody
  rw [List.find?_append]
  cases hfind : taken.find? fun g => g.index == i with
  | some g =>
      have hg := List.find?_some hfind
      rw [if_pos (Or.inl ⟨g, List.mem_of_find?_eq_some hfind, by simpa using hg⟩)]
      rfl
  | none =>
      have hnone : ¬ ∃ g ∈ taken, g.index = i := by
        rintro ⟨g, hg, hgi⟩
        have := List.find?_eq_none.mp hfind g hg
        simp [hgi] at this
      by_cases hfi : f.index = i
      · rw [if_neg (by simp [hnone, hfi])]
        simp [hfi]
      · rw [if_pos (Or.inr hfi)]
        simp [hfi]

/-- A further fragment always counts for the declared size. -/
theorem lastSize_concat (taken : List TakenFragment) (f : TakenFragment) (i : Nat) :
    lastSize (taken ++ [f]) i
      = if f.index = i then f.header.payloadBytes.toNat else lastSize taken i := by
  unfold lastSize
  rw [List.reverse_append, List.reverse_singleton, List.singleton_append]
  by_cases hfi : f.index = i
  · rw [if_pos hfi, List.find?_cons_of_pos (by simpa using hfi)]
  · rw [if_neg hfi, List.find?_cons_of_neg (by simpa using hfi)]

theorem firstBody_length_le {c : Nat} (h : ∀ f ∈ taken, f.body.length ≤ c) (i : Nat) :
    (firstBody taken i).length ≤ c := by
  unfold firstBody
  split
  · next f hf => exact h f (List.mem_of_find?_eq_some hf)
  · exact Nat.zero_le c

theorem firstBodies_getElem? (hi : i < count taken) :
    (firstBodies taken)[i]? = some (firstBody taken i) := by
  unfold firstBodies
  rw [List.getElem?_map, List.getElem?_range hi]
  rfl

/-- What the send path makes sure of is enough: all fragments but the
final one full, and the final one's size declared alike every time. -/
theorem gapless_of_full (hpos : 0 < count taken)
    (hfull : ∀ i < count taken - 1, (firstBody taken i).length = chunkSize taken)
    (hlast : lastSize taken (count taken - 1)
      = (firstBody taken (count taken - 1)).length) : Gapless taken where
  size_eq := by
    obtain ⟨n, hn⟩ := Nat.exists_eq_add_one_of_ne_zero (Nat.pos_iff_ne_zero.mp hpos)
    rw [hn, Nat.add_sub_cancel] at hfull hlast
    have hsizes : (List.range n).map (List.length ∘ firstBody taken)
        = List.replicate n (chunkSize taken) := by
      rw [List.eq_replicate_iff]
      refine ⟨by simp, fun k hk => ?_⟩
      obtain ⟨i, hi, rfl⟩ := List.mem_map.mp hk
      exact hfull i (List.mem_range.mp hi)
    unfold announcedSize firstBodies
    rw [hn, Nat.add_sub_cancel, hlast, List.length_flatten, List.map_map,
      List.range_succ, List.map_append, hsizes]
    simp
  zeros := fun before block after heq hshort x hx => by
    have hlen := congrArg List.length heq
    rw [firstBodies, List.length_map, List.length_range, List.length_append,
      List.length_cons] at hlen
    rcases Nat.eq_zero_or_pos after.length with hnil | hmore
    · rw [List.length_eq_zero_iff.mp hnil] at hx
      cases hx
    · -- a short block is the final one
      have hat : (firstBodies taken)[before.length]? = some (firstBody taken before.length) :=
        firstBodies_getElem? (by omega)
      rw [heq, List.getElem?_append_right (Nat.le_refl _), Nat.sub_self,
        List.getElem?_cons_zero] at hat
      have hsize := hfull before.length (by omega)
      rw [← Option.some.inj hat] at hsize
      omega

end TakenFragment

-- ====================================================== a slot's contents

namespace ReassemblyRecord

open TakenFragment

/-- The slot is what these fragments make of it. -/
structure Stored (s : ReassemblyRecord) (taken : List TakenFragment) : Prop where
  fits : ∀ f ∈ taken, s.Fits f.header
  size_le : ∀ f ∈ taken, f.body.length ≤ s.chunkBytes.toNat
  got : ∀ i, s.Got i ↔ ∃ f ∈ taken, f.index = i
  block : ∀ i < s.fragmentCount.toNat,
    chunk s.buffer s.chunkBytes.toNat i
      = pad 0 s.chunkBytes.toNat (firstBody taken i)
  last : s.lastPayloadBytes.toNat = lastSize taken (s.fragmentCount.toNat - 1)

variable {s : ReassemblyRecord} {taken : List TakenFragment} {h : WireHeader}
  {packet : List UInt8}

/-- Touching a slot leaves the record of what it has stored as it is. -/
theorem Stored.touched (hs : s.Stored taken) (touch : UInt32) :
    (s.touched touch).Stored taken :=
  ⟨fun f hf => ⟨(hs.fits f hf).fragmentCount_eq, (hs.fits f hf).chunkBytes_eq⟩,
    hs.size_le, hs.got, hs.block, hs.last⟩

/-- A slot just opened has stored nothing: its buffer is all zeros and no
index is received. -/
theorem stored_opened (h : WireHeader) (touch : UInt32) :
    (({} : ReassemblyRecord).opened h touch).Stored [] where
  fits := fun f hf => absurd hf List.not_mem_nil
  size_le := fun f hf => absurd hf List.not_mem_nil
  got := fun i => by
    simp only [List.not_mem_nil, false_and, exists_false, iff_false]
    exact not_got_opened i
  block := fun i hi => by
    have hle : (i + 1) * h.chunkBytes.toNat
        ≤ h.fragmentCount.toNat * h.chunkBytes.toNat := Nat.mul_le_mul_right _ hi
    rw [Nat.add_mul, Nat.one_mul] at hle
    show chunk (resize [] (h.fragmentCount.toNat * h.chunkBytes.toNat))
      h.chunkBytes.toNat i = List.replicate (h.chunkBytes.toNat - 0) 0
    simp only [resize, chunk, List.take_nil, List.nil_append, List.length_nil,
      Nat.sub_zero, List.drop_replicate, List.take_replicate]
    congr 1
    omega
  last := rfl

/-- The windows of the buffer after a fragment is stored. -/
theorem Stored.block_store (hs : s.Stored taken) (hw : s.WellFormed b)
    (hd : decodeHeader packet = some h) (hfit : s.Fits h) {i : Nat}
    (hi : i < s.fragmentCount.toNat) :
    chunk (s.store h (packetBody packet)).buffer s.chunkBytes.toNat i
      = pad 0 s.chunkBytes.toNat
        (firstBody (taken ++ [⟨h, packetBody packet⟩]) i) := by
  have hh := decodeHeader_wellFormed hd
  have hlen := packetBody_length hd
  have hsmall : (packetBody packet).length ≤ s.chunkBytes.toNat := by
    rw [hlen, hfit.chunkBytes_eq]
    exact hh.payload_le
  have hfirst : firstBody (taken ++ [⟨h, packetBody packet⟩]) i
      = if (∃ g ∈ taken, g.index = i) ∨ h.fragmentIndex.toNat ≠ i then
          firstBody taken i
        else packetBody packet := firstBody_concat taken _ i
  have hbuf : (h.fragmentIndex.toNat + 1) * s.chunkBytes.toNat ≤ s.buffer.length := by
    rw [hw.buffer_length]
    apply Nat.mul_le_mul_right
    rw [hfit.fragmentCount_eq]
    exact hh.index_lt
  rw [store_buffer, hfirst]
  by_cases hnew : s.received.getD h.fragmentIndex.toNat 0 = 0
  · -- a new index: its window was zeros, and the others are not touched
    have hnone : ¬ ∃ f ∈ taken, f.index = h.fragmentIndex.toNat :=
      fun hold => (hs.got _).mpr hold hnew
    rw [if_pos hnew, ← hlen, List.take_length, offset, ← hfit.chunkBytes_eq]
    by_cases hsame : h.fragmentIndex.toNat = i
    · subst hsame
      rw [if_neg (fun hold => hold.elim hnone fun hne => hne rfl)]
      apply chunk_patch_self hsmall hbuf
      rw [hs.block _ hi, firstBody_none hnone]
      rfl
    · rw [if_pos (Or.inr hsame), chunk_patch_other hsmall hbuf (Ne.symm hsame)]
      exact hs.block i hi
  · -- a duplicate index copies nothing
    rw [if_neg hnew, hs.block i hi]
    have hold : (∃ g ∈ taken, g.index = i) ∨ h.fragmentIndex.toNat ≠ i := by
      by_cases hsame : h.fragmentIndex.toNat = i
      · exact Or.inl (hsame ▸ (hs.got _).mp hnew)
      · exact Or.inr hsame
    rw [if_pos hold]

/-- Storing a fitting fragment is entering it in the ledger. -/
theorem Stored.store (hs : s.Stored taken) (hw : s.WellFormed b)
    (hd : decodeHeader packet = some h) (hfit : s.Fits h) :
    (s.store h (packetBody packet)).Stored
      (taken ++ [⟨h, packetBody packet⟩]) := by
  have hh := decodeHeader_wellFormed hd
  have hlen := packetBody_length hd
  have hidx := index_lt_received hw hfit hh
  have hsmall : (packetBody packet).length ≤ s.chunkBytes.toNat := by
    rw [hlen, hfit.chunkBytes_eq]
    exact hh.payload_le
  have hsize : ∀ i, lastSize (taken ++ [⟨h, packetBody packet⟩]) i
      = if h.fragmentIndex.toNat = i then h.payloadBytes.toNat
        else lastSize taken i := lastSize_concat taken _
  refine ⟨?_, ?_, fun i => ?_, fun i hi => ?_, ?_⟩
  · intro f hf
    have hfits : s.Fits f.header := by
      rcases List.mem_append.mp hf with hold | hnew
      · exact hs.fits f hold
      · rw [List.mem_singleton.mp hnew]
        exact hfit
    exact ⟨by rw [store_fragmentCount]; exact hfits.fragmentCount_eq,
      by rw [store_chunkBytes]; exact hfits.chunkBytes_eq⟩
  · intro f hf
    rw [store_chunkBytes]
    rcases List.mem_append.mp hf with hold | hnew
    · exact hs.size_le f hold
    · rw [List.mem_singleton.mp hnew]
      exact hsmall
  · rw [got_store hidx, hs.got]
    simp only [List.mem_append, List.mem_singleton, or_and_right, exists_or,
      exists_eq_left]
    exact or_congr_right eq_comm
  · rw [store_fragmentCount] at hi
    rw [store_chunkBytes]
    exact hs.block_store hw hd hfit hi
  · -- the last length follows every fragment with the final index, stored or not
    rw [store_lastPayloadBytes, store_fragmentCount, hsize,
      hfit.fragmentCount_eq]
    by_cases hlast : h.fragmentIndex = h.fragmentCount - 1
    · rw [if_pos hlast, if_pos ((isLast_iff hh).mp hlast)]
    · rw [if_neg hlast, if_neg fun heq => hlast ((isLast_iff hh).mpr heq),
        ← hfit.fragmentCount_eq]
      exact hs.last

/-- The first fragment in the ledger has the slot's count and chunk size. -/
theorem Stored.geometry (hs : s.Stored taken) (hne : taken ≠ []) :
    count taken = s.fragmentCount.toNat ∧ chunkSize taken = s.chunkBytes.toNat := by
  cases taken with
  | nil => exact absurd rfl hne
  | cons f rest =>
      have hfit := hs.fits f List.mem_cons_self
      exact ⟨congrArg UInt8.toNat hfit.fragmentCount_eq.symm,
        congrArg UInt8.toNat hfit.chunkBytes_eq.symm⟩

/-- The buffer is the bodies of the first fragments in index order, each
padded to the chunk size. -/
theorem Stored.buffer_eq (hs : s.Stored taken) (hw : s.WellFormed b)
    (hne : taken ≠ []) : s.buffer = padded 0 (chunkSize taken) (firstBodies taken) := by
  obtain ⟨hcount, hchunk⟩ := hs.geometry hne
  have hwhole := flatMap_chunk_range s.buffer s.chunkBytes.toNat s.fragmentCount.toNat
  rw [← hw.buffer_length, List.take_length] at hwhole
  rw [← hwhole, padded, firstBodies, List.flatMap_map, hcount, hchunk]
  exact List.flatMap_congr fun i hi => hs.block i (List.mem_range.mp hi)

/-- The size a slot would hand over is the one the fragments stored in it
announce. -/
theorem Stored.total_eq (hs : s.Stored taken) (hw : s.WellFormed b)
    (hne : taken ≠ []) : s.total = announcedSize taken := by
  obtain ⟨hcount, hchunk⟩ := hs.geometry hne
  have hpos := hw.count_pos
  have hnonzero : s.fragmentCount ≠ 0 := by
    intro h0
    rw [h0] at hpos
    exact absurd hpos (by decide)
  unfold total announcedSize
  rw [if_neg hnonzero, hs.last, hcount, hchunk]

/-- The slot's message is the first fragments glued, exactly if the
ledger is gapless. -/
theorem Stored.payload_iff (hs : s.Stored taken) (hw : s.WellFormed b)
    (hne : taken ≠ []) :
    s.message.payload = (firstBodies taken).flatten ↔ Gapless taken := by
  obtain ⟨hcount, hchunk⟩ := hs.geometry hne
  have hsmall : ∀ block ∈ firstBodies taken, block.length ≤ chunkSize taken := by
    intro block hblock
    obtain ⟨i, -, rfl⟩ := List.mem_map.mp hblock
    apply firstBody_length_le
    rw [hchunk]
    exact hs.size_le
  have htotal : announcedSize taken ≤ (firstBodies taken).length * chunkSize taken := by
    rw [← hs.total_eq hw hne, firstBodies, List.length_map, List.length_range, hcount,
      hchunk, ← hw.buffer_length]
    exact total_le hw
  show s.buffer.take s.total = _ ↔ _
  rw [hs.buffer_eq hw hne, hs.total_eq hw hne, take_padded_eq_iff hsmall htotal]
  exact ⟨fun h => ⟨h.1, h.2⟩, fun h => ⟨h.size_eq, h.zeros⟩⟩

end ReassemblyRecord

-- =================================================== transport and ledger

open TakenFragment

/-- A transport with the ledger of each of its slots. -/
structure Recorded (b : Bounds) (ρ : Type) where
  transport : RadioTransport b ρ
  ledger : Fin b.maxReassemblies → List TakenFragment := fun _ => []

namespace Recorded

/-- The ledgers with the packet entered: on top of its slot's, or in
place of it when the packet opens the slot. -/
def entered (r : Recorded b ρ) (packet : List UInt8) :
    Fin b.maxReassemblies → List TakenFragment :=
  match r.transport.takes packet with
  | none => r.ledger
  | some j =>
      Function.update r.ledger j
        ((if r.transport.opens packet then [] else r.ledger j)
          ++ (takenFragment packet).toList)

variable [DecidableEq ρ]

def after (r : Recorded b ρ) (input : Input ρ) : Recorded b ρ where
  transport := r.transport.after input
  ledger :=
    match input.call with
    | .processInboundPacket packet => r.entered packet
    | _ => r.ledger

/-- The messages handed to the receiver, each with the ledger of the slot
it comes from. -/
def handed (r : Recorded b ρ) (input : Input ρ) :
    List (RadioTransportMessageView × List TakenFragment) :=
  match input.call with
  | .processInboundPacket packet =>
      (r.transport.takes packet).toList.flatMap fun j =>
        (receiverMessages (r.transport.effects input)).map fun message =>
          (message, r.entered packet j)
  | _ => []

/-- A relation between a slot and its ledger that every fragment taken
in keeps. -/
structure LedgerRule (b : Bounds)
    (R : ReassemblyRecord → List TakenFragment → Prop) : Prop where
  opened : ∀ {packet : List UInt8} {h : WireHeader} {touch : UInt32},
    decodeHeader packet = some h →
    h.fragmentCount.toNat * h.chunkBytes.toNat ≤ b.maxMessageBytes →
    R (RadioTransport.firstStore h (packetBody packet) touch) [⟨h, packetBody packet⟩]
  stored : ∀ {s : ReassemblyRecord} {taken : List TakenFragment} {packet : List UInt8}
    {h : WireHeader} {touch : UInt32}, R s taken → s.WellFormed b → s.Fits h →
    decodeHeader packet = some h →
    R ((s.touched touch).store h (packetBody packet)) (taken ++ [⟨h, packetBody packet⟩])

section Rule

variable {R : ReassemblyRecord → List TakenFragment → Prop} {r : Recorded b ρ}
  {packet : List UInt8} {j : Fin b.maxReassemblies}
  (hrule : LedgerRule b R) (hs : r.transport.Stable)
  (hall : ∀ j, (r.transport.reassemblies j).used = true →
    R (r.transport.reassemblies j) (r.ledger j))

include hrule hs hall

omit [DecidableEq ρ] in
/-- Before the completion test, it relates the slots with the packet
stored to the ledgers with the packet entered. -/
theorem LedgerRule.entered
    (hu : ((r.transport.receiveFragment packet).1.reassemblies j).used = true) :
    R ((r.transport.receiveFragment packet).1.reassemblies j) (r.entered packet j) := by
  have hin := RadioTransport.receiveFragment_inbound hs.toSound packet
  have htaken : ∀ {h}, decodeHeader packet = some h →
      (takenFragment packet).toList = [⟨h, packetBody packet⟩] := fun hd => by
    rw [takenFragment, hd]
    rfl
  have hentry : r.transport.takes packet = some j →
      r.entered packet j = (if r.transport.opens packet then [] else r.ledger j)
        ++ (takenFragment packet).toList := fun htake => by
    unfold Recorded.entered
    rw [htake]
    exact Function.update_self ..
  rcases hin.slot_cases hu with ⟨htake, heq⟩ | ⟨h, hd, -, hi, hf, htake, heq⟩ |
    ⟨h, hd, -, hn, ha, htake, heq⟩
  · -- another slot, or none, took the packet
    have hkept : r.entered packet j = r.ledger j := by
      unfold Recorded.entered
      cases htk : r.transport.takes packet with
      | none => rfl
      | some i =>
          apply Function.update_of_ne
          intro hji
          exact htake (htk.trans (congrArg some hji.symm))
    rw [heq] at hu
    rw [heq, hkept]
    exact hall j hu
  · have hused := (ReassemblyRecord.holds_iff.mp hi).1
    rw [hentry htake, RadioTransport.opens_eq_false hd hi, htaken hd, heq]
    exact hrule.stored (hall j hused) (hs.slot j hused) hf hd
  · rw [hentry htake, RadioTransport.opens_eq_true hd hn, htaken hd, heq]
    exact hrule.opened hd ha

/-- One call keeps a relation that every fragment taken in keeps. -/
theorem LedgerRule.after (input : Input ρ)
    (hu : ((r.after input).transport.reassemblies j).used = true) :
    R ((r.after input).transport.reassemblies j) ((r.after input).ledger j) := by
  obtain ⟨radios, call⟩ := input
  by_cases hcall : ∃ packet, call = .processInboundPacket packet
  · obtain ⟨packet, rfl⟩ := hcall
    have hslot := RadioTransport.processInboundPacket_slot hs.toSound radios hu
    have hu' : ((r.transport.receiveFragment packet).1.reassemblies j).used = true := by
      rw [← hslot]
      exact hu
    have hentered := hrule.entered hs hall hu'
    rw [← hslot] at hentered
    exact hentered
  · have hledger : (r.after ⟨radios, call⟩).ledger = r.ledger := by
      cases call with
      | processInboundPacket packet => exact absurd ⟨packet, rfl⟩ hcall
      | _ => rfl
    obtain ⟨-, -, hsame | hempty⟩ := RadioTransport.after_tables r.transport
      ⟨radios, call⟩ fun packet heq => hcall ⟨packet, heq⟩
    · have hj := congrFun hsame j
      rw [show (r.after ⟨radios, call⟩).transport.reassemblies j
        = r.transport.reassemblies j from hj] at hu ⊢
      rw [hledger]
      exact hall j hu
    · rw [show (r.after ⟨radios, call⟩).transport.reassemblies j = {} from hempty j] at hu
      cases hu

end Rule

/-- Every slot in use and its ledger agree, by the rule of `Stored`. -/
structure Right (r : Recorded b ρ) : Prop where
  stable : r.transport.Stable
  stored : ∀ j, (r.transport.reassemblies j).used = true →
    (r.transport.reassemblies j).Stored (r.ledger j) ∧ r.ledger j ≠ []

variable {r : Recorded b ρ} {packet : List UInt8} {j : Fin b.maxReassemblies}

omit [DecidableEq ρ] in
/-- Every fragment taken in keeps its slot what the ledger makes of it. -/
theorem stored_rule : LedgerRule b fun s taken => s.Stored taken ∧ taken ≠ [] where
  opened := fun {packet h touch} hd ha => by
    have hwell : (({} : ReassemblyRecord).opened h touch).WellFormed b :=
      ReassemblyRecord.opened_wellFormed (decodeHeader_wellFormed hd) ha
    refine ⟨?_, by simp⟩
    exact (ReassemblyRecord.stored_opened h touch).store hwell hd ⟨rfl, rfl⟩
  stored := fun {s taken packet h touch} hR hwell hf hd => by
    refine ⟨?_, by simp⟩
    exact (hR.1.touched touch).store (hwell.touched touch) hd
      ⟨hf.fragmentCount_eq, hf.chunkBytes_eq⟩

omit [DecidableEq ρ] in
/-- Before the completion test, the ledgers with the packet entered are
right for the slots with the packet stored. -/
theorem Right.entered (hr : r.Right)
    (hu : ((r.transport.receiveFragment packet).1.reassemblies j).used = true) :
    ((r.transport.receiveFragment packet).1.reassemblies j).Stored (r.entered packet j)
      ∧ r.entered packet j ≠ [] :=
  stored_rule.entered hr.stable hr.stored hu

/-- One call, whichever it is, keeps the ledgers right. -/
theorem Right.after (hr : r.Right) (input : Input ρ) : (r.after input).Right :=
  ⟨hr.stable.after input, fun _ hu => stored_rule.after hr.stable hr.stored input hu⟩

/-- Every message handed over has its ledger beside it. -/
theorem Right.handed_messages (hr : r.Right) (input : Input ρ) :
    (r.handed input).map Prod.fst = receiverMessages (r.transport.effects input) := by
  obtain ⟨radios, call⟩ := input
  by_cases hcall : ∃ packet, call = .processInboundPacket packet
  · obtain ⟨packet, rfl⟩ := hcall
    unfold handed
    dsimp only
    cases htake : r.transport.takes packet with
    | some j => simp [Function.comp_def]
    | none =>
        have hnone : r.transport.effects ⟨radios, .processInboundPacket packet⟩
            = [] := by
          rcases RadioTransport.processInboundPacket_cases hr.stable.toSound radios
              packet with ⟨heq, -⟩ | ⟨i, htk, -⟩
          · exact congrArg Prod.snd heq
          · rw [htake] at htk
            cases htk
        rw [hnone]
        rfl
  · rw [RadioTransport.effects_receiverMessages fun packet heq => hcall ⟨packet, heq⟩]
    cases call with
    | processInboundPacket packet => exact absurd ⟨packet, rfl⟩ hcall
    | _ => rfl

/-- Over a run, too, the messages handed over are those of the transport
alone. -/
theorem Right.trace_messages (hr : r.Right) (inputs : List (Input ρ)) :
    (Observed.trace Recorded.after handed r inputs).map Prod.fst
      = receiverMessages (Observed.trace RadioTransport.after RadioTransport.effects
        r.transport inputs) := by
  induction inputs generalizing r with
  | nil => rfl
  | cons input inputs ih =>
      rw [Observed.trace_cons, Observed.trace_cons, List.map_append,
        receiverMessages_append, hr.handed_messages, ih (hr.after input)]
      rfl

/-- A message handed over is its slot's first fragments glued, exactly
if the ledger is gapless. -/
theorem Right.handed_iff (hr : r.Right) {input : Input ρ}
    {message : RadioTransportMessageView} {taken : List TakenFragment}
    (hm : (message, taken) ∈ r.handed input) :
    message.payload = (firstBodies taken).flatten ↔ Gapless taken := by
  obtain ⟨radios, call⟩ := input
  cases call with
  | processInboundPacket packet =>
      unfold handed at hm
      simp only [List.mem_flatMap, Option.mem_toList, List.mem_map, Prod.mk.injEq] at hm
      obtain ⟨j, htake, v, hv, rfl, rfl⟩ := hm
      have hs := hr.stable.toSound
      rcases RadioTransport.processInboundPacket_cases hs radios packet with
        ⟨heq, -⟩ | ⟨i, htk, -, heq⟩
      · rw [show r.transport.effects ⟨radios, .processInboundPacket packet⟩ = []
          from congrArg Prod.snd heq] at hv
        cases hv
      · rw [show r.transport.effects ⟨radios, .processInboundPacket packet⟩ = _
          from congrArg Prod.snd heq] at hv
        obtain rfl := Option.some.inj (htake.symm.trans htk)
        have hin := RadioTransport.receiveFragment_inbound hs packet
        rw [show (r.transport.receiveFragment packet).2 = some j from htake] at hin
        obtain ⟨hstored, hne⟩ := hr.entered hin.taken_used
        rw [RadioTransport.dispatch_receiverMessages hv]
        exact hstored.payload_iff ((hin.sound hs).slot j hin.taken_used) hne
  | _ => cases hm

/-- A freshly built transport with empty ledgers. -/
def create (localNode : RadioNodeId) (defaultHopLimit : UInt8) : Recorded b ρ where
  transport := RadioTransport.create localNode defaultHopLimit

omit [DecidableEq ρ] in
theorem right_create (localNode : RadioNodeId) (defaultHopLimit : UInt8) :
    (create localNode defaultHopLimit : Recorded b ρ).Right :=
  ⟨RadioTransport.stable_of_empty fun _ => rfl, fun _ hu => by cases hu⟩

/-- Over every run of calls, on arbitrary packets: the messages handed to
the receiver, each with the fragments taken into its slot, and of each
that it is the concatenation of the first fragment of every index
exactly when those fragments are gapless. -/
theorem handed_payload_iff (localNode : RadioNodeId) (defaultHopLimit : UInt8)
    (inputs : List (Input ρ)) :
    (Observed.trace after handed
          (create localNode defaultHopLimit : Recorded b ρ) inputs).map Prod.fst
        = receiverMessages (Observed.trace RadioTransport.after RadioTransport.effects
          (RadioTransport.create localNode defaultHopLimit : RadioTransport b ρ) inputs)
      ∧ ∀ delivery ∈ Observed.trace after handed
          (create localNode defaultHopLimit : Recorded b ρ) inputs,
        delivery.1.payload = (firstBodies delivery.2).flatten
          ↔ Gapless delivery.2 := by
  have hstart := right_create (b := b) (ρ := ρ) localNode defaultHopLimit
  refine ⟨hstart.trace_messages inputs, fun delivery hmem => ?_⟩
  obtain ⟨before, input, after', -, hhanded⟩ := Observed.mem_trace hmem
  have hright := Observed.invariant_run (P := fun r : Recorded b ρ => r.Right)
    (fun r input hr => hr.after input) hstart before
  exact hright.handed_iff hhanded

/-- A fragment of a message of two, with up to two bytes each, coming in
from node 1 at node 2. -/
def piece (index : UInt8) (body : List UInt8) : Input Unit :=
  ⟨openRadios, .processInboundPacket
    (encodeHeader
      { channel := 7, source := 1, destination := 2, messageId := 1
        fragmentIndex := index, fragmentCount := 2, chunkBytes := 2
        payloadBytes := UInt8.ofNat body.length, hopLimit := 4 } ++ body)⟩

/-- What node 2, freshly built with a receiver, hands over as these packets
come in. -/
def pieced (pieces : List (Input Unit)) :
    List (RadioTransportMessageView × List TakenFragment) :=
  Observed.trace after handed (create 2 4 : Recorded .defaults Unit)
    (⟨openRadios, .setReceiver true⟩ :: pieces)

/-- A first fragment with one byte leaves a zero behind it, and a second
fragment repeated with fewer bytes takes one away. -/
theorem handed_beyond_fragments :
    (∃ delivery ∈ pieced [piece 0 [1], piece 1 [2]],
        delivery.1.payload = [1, 0, 2]
          ∧ (firstBodies delivery.2).flatten = [1, 2])
      ∧ ∃ delivery ∈ pieced [piece 1 [3, 4], piece 1 [3], piece 0 [1, 2]],
        delivery.1.payload = [1, 2, 3]
          ∧ (firstBodies delivery.2).flatten = [1, 2, 3, 4] := by
  decide +kernel

end Recorded

end EspressioRadio
