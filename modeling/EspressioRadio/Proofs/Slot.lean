/-
One reassembly slot: its invariant, and what opening it and storing a
fragment do to it.

`WellFormed` ties the vectors to the geometry bytes beside them; every
bounds fact of the inbound path is read off it together with the header
checks (`offset_add_le`, `index_lt_received`). `Got s i` says index `i`
was received; `isComplete_iff` is the completion test in those terms.
-/
import EspressioRadio.Proofs.Codec
import EspressioRadio.Transport.Inbound

namespace EspressioRadio

open Chunks

namespace ReassemblyRecord

-- ====================================================== frame of a store

section Frame

variable (s : ReassemblyRecord) (h : WireHeader) (body : List UInt8)

/-- A store writes the vectors, the count and the last length, and
nothing else. -/
theorem store_frame :
    (s.store h body).used = s.used ∧ (s.store h body).identity = s.identity
      ∧ (s.store h body).fragmentCount = s.fragmentCount
      ∧ (s.store h body).chunkBytes = s.chunkBytes
      ∧ (s.store h body).hopLimit = s.hopLimit
      ∧ (s.store h body).touch = s.touch := by
  unfold store noteLast copyIn
  split <;> split <;> exact ⟨rfl, rfl, rfl, rfl, rfl, rfl⟩

@[simp] theorem store_used : (s.store h body).used = s.used :=
  (store_frame s h body).1

@[simp] theorem store_identity : (s.store h body).identity = s.identity :=
  (store_frame s h body).2.1

@[simp] theorem store_fragmentCount :
    (s.store h body).fragmentCount = s.fragmentCount :=
  (store_frame s h body).2.2.1

@[simp] theorem store_chunkBytes : (s.store h body).chunkBytes = s.chunkBytes :=
  (store_frame s h body).2.2.2.1

@[simp] theorem store_hopLimit : (s.store h body).hopLimit = s.hopLimit :=
  (store_frame s h body).2.2.2.2.1

@[simp] theorem store_touch : (s.store h body).touch = s.touch :=
  (store_frame s h body).2.2.2.2.2

/-- The buffer after a store: the fragment's bytes at its offset, if
the index is new. -/
theorem store_buffer :
    (s.store h body).buffer =
      if s.received.getD h.fragmentIndex.toNat 0 = 0 then
        patch s.buffer (offset h) (body.take h.payloadBytes.toNat)
      else s.buffer := by
  unfold store noteLast copyIn
  split <;> split <;> rfl

theorem store_received :
    (s.store h body).received =
      if s.received.getD h.fragmentIndex.toNat 0 = 0 then
        s.received.set h.fragmentIndex.toNat 1
      else s.received := by
  unfold store noteLast copyIn
  split <;> split <;> rfl

theorem store_receivedCount :
    (s.store h body).receivedCount =
      if s.received.getD h.fragmentIndex.toNat 0 = 0 then s.receivedCount + 1
      else s.receivedCount := by
  unfold store noteLast copyIn
  split <;> split <;> rfl

theorem store_lastPayloadBytes :
    (s.store h body).lastPayloadBytes =
      if h.fragmentIndex = h.fragmentCount - 1 then h.payloadBytes
      else s.lastPayloadBytes := by
  unfold store noteLast copyIn
  split <;> split <;> rfl

end Frame

-- ======================================================== the invariant

/-- The vectors of a slot in use agree with its geometry. -/
structure WellFormed (b : Bounds) (s : ReassemblyRecord) : Prop where
  buffer_length : s.buffer.length = s.fragmentCount.toNat * s.chunkBytes.toNat
  buffer_le : s.buffer.length ≤ b.maxMessageBytes
  received_length : s.received.length = s.fragmentCount.toNat
  count_pos : 1 ≤ s.fragmentCount.toNat
  chunk_pos : 1 ≤ s.chunkBytes.toNat
  receivedCount_eq : s.receivedCount.toNat = s.received.countP (· != 0)
  last_le : s.lastPayloadBytes.toNat ≤ s.chunkBytes.toNat

/-- A well-formed slot stays well formed when it is touched: the touch is no
part of the invariant. -/
theorem WellFormed.touched {b : Bounds} {s : ReassemblyRecord}
    (hw : s.WellFormed b) (touch : UInt32) : (s.touched touch).WellFormed b :=
  ⟨hw.buffer_length, hw.buffer_le, hw.received_length, hw.count_pos,
    hw.chunk_pos, hw.receivedCount_eq, hw.last_le⟩

/-- The header describes a fragment of this slot's geometry. -/
structure Fits (s : ReassemblyRecord) (h : WireHeader) : Prop where
  fragmentCount_eq : s.fragmentCount = h.fragmentCount
  chunkBytes_eq : s.chunkBytes = h.chunkBytes

/-- The fragment with this index has been received. -/
def Got (s : ReassemblyRecord) (i : Nat) : Prop := s.received.getD i 0 ≠ 0

variable {b : Bounds} {s : ReassemblyRecord} {h : WireHeader} {body : List UInt8}

/-- A fragment of the slot's geometry has its place inside the buffer. -/
theorem offset_add_le (hw : s.WellFormed b) (hf : s.Fits h)
    (hh : h.WellFormed) :
    offset h + h.payloadBytes.toNat ≤ s.buffer.length := by
  have hstep : (h.fragmentIndex.toNat + 1) * h.chunkBytes.toNat
      ≤ h.fragmentCount.toNat * h.chunkBytes.toNat :=
    Nat.mul_le_mul_right _ hh.index_lt
  rw [Nat.add_mul, Nat.one_mul] at hstep
  rw [hw.buffer_length, hf.fragmentCount_eq, hf.chunkBytes_eq, offset]
  have := hh.payload_le
  omega

/-- The index of a fragment of the slot's geometry is inside `Received`. -/
theorem index_lt_received (hw : s.WellFormed b) (hf : s.Fits h)
    (hh : h.WellFormed) : h.fragmentIndex.toNat < s.received.length := by
  rw [hw.received_length, hf.fragmentCount_eq]
  exact hh.index_lt

/-- The announced size of a message fits the buffer. -/
theorem total_le (hw : s.WellFormed b) : s.total ≤ s.buffer.length := by
  have hpos := hw.count_pos
  have hsplit : s.fragmentCount.toNat * s.chunkBytes.toNat
      = (s.fragmentCount.toNat - 1) * s.chunkBytes.toNat + s.chunkBytes.toNat := by
    have hle : s.chunkBytes.toNat ≤ s.fragmentCount.toNat * s.chunkBytes.toNat :=
      Nat.le_mul_of_pos_left _ hpos
    rw [Nat.sub_mul, Nat.one_mul]
    omega
  have hlast := hw.last_le
  rw [hw.buffer_length, total]
  split <;> omega

private theorem getD_ne_zero {l : List UInt8} {i : Nat} (hi : i < l.length) :
    l.getD i 0 = l[i] := by
  rw [List.getD_eq_getElem?_getD, List.getElem?_eq_getElem hi, Option.getD_some]

/-- A slot passes the completion test exactly when every index has been
received. -/
theorem isComplete_iff (hw : s.WellFormed b) :
    s.isComplete = true ↔ ∀ i < s.fragmentCount.toNat, s.Got i := by
  unfold isComplete Got
  rw [beq_iff_eq, hw.receivedCount_eq, ← hw.received_length,
    List.countP_eq_length]
  constructor
  · intro hall i hi
    rw [getD_ne_zero hi]
    simpa using hall _ (List.getElem_mem hi)
  · intro hall x hx
    obtain ⟨i, hi, rfl⟩ := List.getElem_of_mem hx
    have := hall i hi
    rw [getD_ne_zero hi] at this
    simpa using this

/-- Short of completion, fewer indices than fragments are in. -/
theorem receivedCount_lt (hw : s.WellFormed b) (hc : s.isComplete = false) :
    s.receivedCount.toNat < s.fragmentCount.toNat := by
  have hle : s.received.countP (· != 0) ≤ s.received.length :=
    List.countP_le_length
  have hne : s.receivedCount.toNat ≠ s.fragmentCount.toNat := by
    simpa [isComplete] using hc
  rw [hw.received_length, ← hw.receivedCount_eq] at hle
  omega

/-- A store receives its own index and forgets none. -/
theorem got_store (hi : h.fragmentIndex.toNat < s.received.length) (i : Nat) :
    (s.store h body).Got i ↔ s.Got i ∨ i = h.fragmentIndex.toNat := by
  unfold Got
  rw [store_received]
  by_cases hnew : s.received.getD h.fragmentIndex.toNat 0 = 0
  · rw [if_pos hnew]
    by_cases heq : i = h.fragmentIndex.toNat
    · subst heq
      simp [List.getD_eq_getElem?_getD, List.getElem?_set_self hi]
    · simp [List.getD_eq_getElem?_getD, List.getElem?_set_ne (Ne.symm heq), heq]
  · rw [if_neg hnew]
    constructor
    · exact Or.inl
    · rintro (hgot | rfl)
      · exact hgot
      · exact hnew

-- ============================================================== opening

/-- A slot opened from scratch is well formed, if its buffer is
admitted. -/
theorem opened_wellFormed {touch : UInt32} (hh : h.WellFormed)
    (ha : h.fragmentCount.toNat * h.chunkBytes.toNat ≤ b.maxMessageBytes) :
    (({} : ReassemblyRecord).opened h touch).WellFormed b where
  buffer_length := by simp [opened, resize]
  buffer_le := by simpa [opened, resize] using ha
  received_length := by simp [opened]
  count_pos := hh.count_pos
  chunk_pos := hh.chunk_pos
  receivedCount_eq := by simp [opened, List.countP_replicate]
  last_le := Nat.zero_le _

/-- A freshly opened slot has received no index. -/
theorem not_got_opened {touch : UInt32} (i : Nat) :
    ¬ (({} : ReassemblyRecord).opened h touch).Got i := by
  unfold Got opened
  simp [List.getD_eq_getElem?_getD, List.getElem?_replicate]
  split <;> rfl

-- ============================================================== storing

/-- The count of fragments received stays the number of indices marked in
`Received`. -/
private theorem store_count (hw : s.WellFormed b) (hf : s.Fits h)
    (hh : h.WellFormed) :
    (s.store h body).receivedCount.toNat
      = (s.store h body).received.countP (· != 0) := by
  have hi := index_lt_received hw hf hh
  rw [store_receivedCount, store_received]
  split
  · next hnew =>
    rw [getD_ne_zero hi] at hnew
    have hlt : s.received.countP (· != 0) < s.received.length := by
      refine Nat.lt_of_le_of_ne List.countP_le_length fun heq => ?_
      have := List.countP_eq_length.mp heq _ (List.getElem_mem hi)
      simp [hnew] at this
    have hcap := h.fragmentCount.toNat_lt
    rw [hw.received_length, hf.fragmentCount_eq] at hlt
    rw [List.countP_set hi, UInt16.toNat_add, hw.receivedCount_eq, hnew]
    simp only [bne_self_eq_false, Bool.false_eq_true, if_false, Nat.sub_zero]
    rw [Nat.mod_eq_of_lt (by simp; omega)]
    rfl
  · exact hw.receivedCount_eq

/-- Storing a fitting fragment keeps the slot well formed. -/
theorem store_wellFormed (hw : s.WellFormed b) (hf : s.Fits h)
    (hh : h.WellFormed) (hb : body.length = h.payloadBytes.toNat) :
    (s.store h body).WellFormed b := by
  have hbuf : (s.store h body).buffer.length = s.buffer.length := by
    rw [store_buffer]
    split
    · refine patch_length ?_
      rw [← hb, List.take_length, hb]
      exact offset_add_le hw hf hh
    · rfl
  have hrec : (s.store h body).received.length = s.received.length := by
    rw [store_received]
    split
    · exact List.length_set
    · rfl
  refine ⟨?_, ?_, ?_, ?_, ?_, store_count hw hf hh, ?_⟩
  · rw [hbuf, store_fragmentCount, store_chunkBytes]
    exact hw.buffer_length
  · rw [hbuf]
    exact hw.buffer_le
  · rw [hrec, store_fragmentCount]
    exact hw.received_length
  · rw [store_fragmentCount]
    exact hw.count_pos
  · rw [store_chunkBytes]
    exact hw.chunk_pos
  · rw [store_lastPayloadBytes, store_chunkBytes]
    split
    · rw [hf.chunkBytes_eq]
      exact hh.payload_le
    · exact hw.last_le

end ReassemblyRecord

end EspressioRadio
