/-
What a slot's bytes mean: the received part of one payload.

`Carries s payload` says the slot has the geometry of the payload and
that every byte of an index it received is the payload's. Opening
establishes it for nothing received, a fragment of the same payload
extends it (`carries_store`), and a complete slot delivers the payload
(`Carries.message_payload`). Where the fragments came from, in which
order and how often plays no part.
-/
import EspressioRadio.Proofs.Fragments
import EspressioRadio.Proofs.Invariant

namespace EspressioRadio

open Chunks

namespace ReassemblyRecord

/-- The slot holds part of the payload: it expects as many fragments as that
has chunks, and for every index received the payload's bytes stand in the
buffer. -/
structure Carries (s : ReassemblyRecord) (payload : List UInt8) : Prop where
  count : s.fragmentCount.toNat = chunkCount payload.length s.chunkBytes.toNat
  bytes : ∀ j < payload.length, s.Got (j / s.chunkBytes.toNat) →
    s.buffer[j]? = payload[j]?
  last : s.Got (s.fragmentCount.toNat - 1) →
    s.lastPayloadBytes.toNat
      = (chunk payload s.chunkBytes.toNat (s.fragmentCount.toNat - 1)).length

variable {b : Bounds} {s : ReassemblyRecord} {h : WireHeader}
  {payload packet : List UInt8} {id : MessageIdentity}

/-- The touch is no part of what a slot holds. -/
theorem Carries.touched (hc : s.Carries payload) (touch : UInt32) :
    (s.touched touch).Carries payload :=
  ⟨hc.count, hc.bytes, hc.last⟩

/-- A slot just opened by a fragment of the payload holds none of it yet,
and expects the right number of chunks. -/
theorem carries_opened {touch : UInt32} (hf : FragmentOf id payload packet h) :
    (({} : ReassemblyRecord).opened h touch).Carries payload where
  count := hf.count
  bytes := fun _ _ hgot => absurd hgot (not_got_opened _)
  last := fun hgot => absurd hgot (not_got_opened _)

/-- The final index, as the source's byte arithmetic has it, is the final
index: there is no underflow with a fragment at least. -/
theorem isLast_iff (hh : h.WellFormed) :
    h.fragmentIndex = h.fragmentCount - 1
      ↔ h.fragmentIndex.toNat = h.fragmentCount.toNat - 1 := by
  have hone : (1 : UInt8) ≤ h.fragmentCount :=
    UInt8.le_iff_toNat_le.mpr hh.count_pos
  rw [← UInt8.toNat_inj, UInt8.toNat_sub_of_le _ _ hone]
  rfl

/-- A fragment of the payload extends what the slot holds. -/
theorem carries_store (hw : s.WellFormed b) (hc : s.Carries payload)
    (hfit : s.Fits h) (hf : FragmentOf id payload packet h) :
    (s.store h (packetBody packet)).Carries payload := by
  have hh := decodeHeader_wellFormed hf.decodes
  have hlen := packetBody_length hf.decodes
  have hidx := index_lt_received hw hfit hh
  have hpos : 0 < s.chunkBytes.toNat := hw.chunk_pos
  have hsize : (chunk payload h.chunkBytes.toNat h.fragmentIndex.toNat).length
      = h.payloadBytes.toNat := by
    rw [← hf.body, hlen]
  refine ⟨?_, ?_, ?_⟩
  · rw [store_fragmentCount, store_chunkBytes]
    exact hc.count
  · intro j hj hgot
    rw [store_chunkBytes, got_store hidx] at hgot
    rw [store_buffer]
    by_cases hnew : s.received.getD h.fragmentIndex.toNat 0 = 0
    · rw [if_pos hnew, ← hlen, List.take_length, hf.body, offset,
        ← hfit.chunkBytes_eq]
      have hend := offset_add_le hw hfit hh
      rw [← hsize, offset, ← hfit.chunkBytes_eq] at hend
      by_cases hsame : j / s.chunkBytes.toNat = h.fragmentIndex.toNat
      · -- byte `j` lies in the fragment being copied
        exact patch_window_inside hpos hend hj hsame
      · -- byte `j` lies in another fragment, received before
        rw [patch_window_outside (chunk_length_le ..) hend hsame]
        exact hc.bytes j hj (hgot.resolve_right hsame)
    · -- a duplicate index copies nothing
      rw [if_neg hnew]
      refine hc.bytes j hj (hgot.elim (fun hold => hold) fun hsame => ?_)
      rw [hsame]
      exact hnew
  · intro hgot
    rw [store_fragmentCount, got_store hidx] at hgot
    rw [store_lastPayloadBytes, store_fragmentCount, store_chunkBytes,
      hfit.fragmentCount_eq, hfit.chunkBytes_eq]
    rw [hfit.fragmentCount_eq] at hgot
    by_cases hlast : h.fragmentIndex = h.fragmentCount - 1
    · rw [if_pos hlast, ← hsize, (isLast_iff hh).mp hlast]
    · rw [if_neg hlast, ← hfit.fragmentCount_eq, ← hfit.chunkBytes_eq]
      refine hc.last ?_
      rw [hfit.fragmentCount_eq]
      exact hgot.resolve_right fun heq => hlast ((isLast_iff hh).mpr heq.symm)

/-- A complete slot announces the payload's size as the message's. -/
theorem Carries.total_eq (hw : s.WellFormed b) (hc : s.Carries payload)
    (hdone : s.isComplete = true) : s.total = payload.length := by
  have hall := (isComplete_iff hw).mp hdone
  have hpos := hw.count_pos
  have hlast := hc.last (hall _ (by omega))
  have hne : s.fragmentCount ≠ 0 := by
    intro h0
    rw [h0] at hpos
    exact absurd hpos (by decide)
  unfold total
  rw [if_neg hne, hlast, hc.count]
  exact pred_mul_add_chunk_length hw.chunk_pos

/-- A complete slot delivers the payload, byte for byte. -/
theorem Carries.message_payload (hw : s.WellFormed b) (hc : s.Carries payload)
    (hdone : s.isComplete = true) : s.message.payload = payload := by
  have hall := (isComplete_iff hw).mp hdone
  have hpos : 0 < s.chunkBytes.toNat := hw.chunk_pos
  show s.buffer.take s.total = payload
  rw [hc.total_eq hw hdone]
  have hcover : payload.length ≤ s.buffer.length := by
    rw [hw.buffer_length, hc.count]
    exact le_chunkCount_mul _ hpos
  refine List.ext_getElem? fun j => ?_
  by_cases hj : j < payload.length
  · rw [List.getElem?_take_of_lt hj]
    refine hc.bytes j hj (hall _ ?_)
    rw [hc.count]
    exact div_lt_chunkCount hpos hj
  · rw [List.getElem?_eq_none (by rw [List.length_take]; omega),
      List.getElem?_eq_none (by omega)]

end ReassemblyRecord

end EspressioRadio
