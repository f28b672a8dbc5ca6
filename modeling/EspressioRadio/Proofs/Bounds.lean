/-
Memory safety of the inbound path: the table invariant clause by
clause, and that the next packet, whatever its bytes, stays inside every
vector it touches.

`TableInvariant` spells out what `Stable` says of each slot.
`InBounds t packet` lists the accesses `processInboundPacket` makes in
the order it makes them, each under the tests the source has passed by
then; the two tests it makes in vain are in the list too.
-/
import EspressioRadio.Proofs.Fragments
import EspressioRadio.Proofs.Invariant

namespace EspressioRadio

namespace RadioTransport

variable {b : Bounds} {ρ : Type}

/-- What holds of the reassembly table between calls: the sizes and counts
of every slot in use agree, no two slots are for one message, and none is
for a message among the recent ones. -/
structure TableInvariant (t : RadioTransport b ρ) : Prop where
  buffer_size : ∀ i, (t.reassemblies i).used = true →
    (t.reassemblies i).buffer.length
        = (t.reassemblies i).fragmentCount.toNat * (t.reassemblies i).chunkBytes.toNat
      ∧ (t.reassemblies i).buffer.length ≤ b.maxMessageBytes
  received_size : ∀ i, (t.reassemblies i).used = true →
    (t.reassemblies i).received.length = (t.reassemblies i).fragmentCount.toNat
      ∧ 1 ≤ (t.reassemblies i).fragmentCount.toNat
  chunk_pos : ∀ i, (t.reassemblies i).used = true →
    1 ≤ (t.reassemblies i).chunkBytes.toNat
  received_count : ∀ i, (t.reassemblies i).used = true →
    (t.reassemblies i).receivedCount.toNat
        = (t.reassemblies i).received.countP (· != 0)
      ∧ (t.reassemblies i).receivedCount.toNat
        < (t.reassemblies i).fragmentCount.toNat
  distinct : ∀ i j, (t.reassemblies i).used = true →
    (t.reassemblies j).used = true →
    (t.reassemblies i).identity = (t.reassemblies j).identity → i = j
  not_recent : ∀ i, (t.reassemblies i).used = true →
    t.isRecent (t.reassemblies i).identity.header = false
  empty : ∀ i, (t.reassemblies i).used = false → t.reassemblies i = {}

/-- The accesses `ProcessInboundPacket` makes for this packet, each inside
the vector it is made to. -/
structure InBounds (t : RadioTransport b ρ) (packet : List UInt8) : Prop where
  /-- The `memcpy` reads `PayloadBytes` bytes of the packet after its
  header. -/
  body_read : ∀ h, decodeHeader packet = some h →
    wireHeaderBytes + h.payloadBytes.toNat ≤ packet.length
  /-- The write into `Buffer` is inside it, so the size test in front of
  it never rejects. -/
  buffer_write : ∀ h t₁ i, decodeHeader packet = some h →
    t.refuses h = false → t.findOrCreateReassembly h = (t₁, some i) →
    (t₁.reassemblies i).fragmentCount = h.fragmentCount →
    (t₁.reassemblies i).chunkBytes = h.chunkBytes →
    ReassemblyRecord.offset h + h.payloadBytes.toNat
      ≤ (t₁.reassemblies i).buffer.length
  /-- The access to `Received[FragmentIndex]` is inside the vector. -/
  received_access : ∀ h t₁ i, decodeHeader packet = some h →
    t.refuses h = false → t.findOrCreateReassembly h = (t₁, some i) →
    (t₁.reassemblies i).fragmentCount = h.fragmentCount →
    (t₁.reassemblies i).chunkBytes = h.chunkBytes →
    h.fragmentIndex.toNat < (t₁.reassemblies i).received.length
  /-- `Complete` never finds the identity among the recent messages already. -/
  not_recent_again : ∀ t₁ i, t.receiveFragment packet = (t₁, some i) →
    t₁.isRecent (t₁.reassemblies i).identity.header = false
  /-- The size delivered with a completed message is inside `Buffer`. -/
  delivered_size : ∀ t₁ i, t.receiveFragment packet = (t₁, some i) →
    (t₁.reassemblies i).total ≤ (t₁.reassemblies i).buffer.length

variable {t : RadioTransport b ρ}

theorem Stable.tableInvariant (hs : t.Stable) : t.TableInvariant where
  buffer_size := fun i hi => ⟨(hs.slot i hi).buffer_length, (hs.slot i hi).buffer_le⟩
  received_size := fun i hi =>
    ⟨(hs.slot i hi).received_length, (hs.slot i hi).count_pos⟩
  chunk_pos := fun i hi => (hs.slot i hi).chunk_pos
  received_count := fun i hi =>
    ⟨(hs.slot i hi).receivedCount_eq,
      ReassemblyRecord.receivedCount_lt (hs.slot i hi) (hs.incomplete i hi)⟩
  distinct := hs.distinct
  not_recent := fun i hi => isRecent_eq_false_iff.mpr (hs.not_recent i hi)
  empty := hs.unused

/-- The slot selected for a packet is well formed, found or opened. -/
theorem Sound.found_wellFormed (hs : t.Sound) {h : WireHeader}
    {t₁ : RadioTransport b ρ} {i : Fin b.maxReassemblies} (hh : h.WellFormed)
    (hf : t.findOrCreateReassembly h = (t₁, some i)) :
    (t₁.reassemblies i).WellFormed b := by
  rcases findOrCreateReassembly_cases hs h with
    ⟨j, hj, heq⟩ | ⟨-, -, heq⟩ | ⟨-, ha, heq⟩
  · rw [heq, Prod.mk.injEq, Option.some.injEq] at hf
    obtain ⟨rfl, rfl⟩ := hf
    exact hs.slot j (ReassemblyRecord.holds_iff.mp hj).1
  · rw [heq, Prod.mk.injEq] at hf
    cases hf.2
  · rw [heq, Prod.mk.injEq, Option.some.injEq] at hf
    obtain ⟨rfl, rfl⟩ := hf
    rw [setSlot_self]
    exact ReassemblyRecord.opened_wellFormed hh ha

theorem Stable.inBounds (hs : t.Stable) (packet : List UInt8) :
    t.InBounds packet := by
  have hin := receiveFragment_inbound hs.toSound packet
  refine ⟨?_, ?_, ?_, ?_, ?_⟩
  · intro h hd
    exact Nat.le_of_eq (decodeHeader_eq_some hd).2.2
  · intro h t₁ i hd _ hf hcount hchunk
    have hh := decodeHeader_wellFormed hd
    exact ReassemblyRecord.offset_add_le (hs.toSound.found_wellFormed hh hf)
      ⟨hcount, hchunk⟩ hh
  · intro h t₁ i hd _ hf hcount hchunk
    have hh := decodeHeader_wellFormed hd
    exact ReassemblyRecord.index_lt_received (hs.toSound.found_wellFormed hh hf)
      ⟨hcount, hchunk⟩ hh
  · intro t₁ i heq
    rw [heq] at hin
    exact isRecent_eq_false_iff.mpr
      ((hin.sound hs.toSound).not_recent i hin.taken_used)
  · intro t₁ i heq
    rw [heq] at hin
    exact ReassemblyRecord.total_le
      ((hin.sound hs.toSound).slot i hin.taken_used)

variable [DecidableEq ρ]

/-- In every state a run of public calls reaches the table invariant holds,
and whatever packet comes next is processed inside its vectors. -/
theorem reachable_memory_safe (hr : t.Reachable) :
    t.TableInvariant ∧ ∀ packet, t.InBounds packet :=
  ⟨hr.stable.tableInvariant, hr.stable.inBounds⟩

/-- The first of two fragments of node 5's message with this id, for
node 2. -/
def firstOfTwo (messageId : RadioMessageId) : List UInt8 :=
  encodeHeader
    { channel := 7, source := 5, destination := 2, messageId := messageId
      fragmentIndex := 0, fragmentCount := 2, chunkBytes := 1
      payloadBytes := 1, hopLimit := 3 } ++ [0xAA]

/-- The header the decoder finds in the fragment of message `id`. -/
theorem firstOfTwo_decodes (id : RadioMessageId) :
    decodeHeader (firstOfTwo id) = some
      { channel := 7, source := 5, destination := 2, messageId := id
        fragmentIndex := 0, fragmentCount := 2, chunkBytes := 1
        payloadBytes := 1, hopLimit := 3 } :=
  decodeHeader_encode ⟨by simp, by simp, by simp⟩ rfl

/-- Node 2, with every reassembly slot waiting for the second fragment of
its message. -/
def fullTable : RadioTransport .defaults Unit :=
  Observed.run after (create 2 4)
    ([1, 2, 3, 4].map fun id =>
      ⟨openRadios, .processInboundPacket (firstOfTwo id)⟩)

theorem fullTable_reachable : fullTable.Reachable := ⟨2, 4, _, rfl⟩

/-- With every slot in use the clauses have something to say: each slot's
buffer has its two chunks of a byte, and a fifth message or the second
fragment of one of the four is processed inside its vectors. -/
theorem fullTable_memory_safe :
    (∀ i, (fullTable.reassemblies i).used = true
        ∧ (fullTable.reassemblies i).buffer.length = 2)
      ∧ fullTable.TableInvariant ∧ ∀ packet, fullTable.InBounds packet :=
  ⟨by decide, reachable_memory_safe fullTable_reachable⟩

end RadioTransport

end EspressioRadio
