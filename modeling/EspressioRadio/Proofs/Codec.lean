/-
The transport codec, one spec lemma each way: what `decodeHeader`
accepts (`decodeHeader_wellFormed`, `packetBody_length`) and that it
reads back what `encodeHeader` wrote (`decodeHeader_encode`).

# Both directions

`encodeHeader` undoes `decodeHeader` too (`encodeHeader_decode`): the
three constant bytes are the decoder's own tests, and each sixteen-bit
field is stored as the two bytes it was read from. With the announced
length an accepted packet is its decoded header and its body, so the
codec is one to one between the two (`codec_bijective`).
-/
import EspressioRadio.Transport.Wire
import Mathlib.Tactic.Ring

namespace EspressioRadio

-- =================================================== sixteen-bit fields

private theorem and_255 (x : Nat) : x &&& 255 = x % 256 :=
  Nat.and_two_pow_sub_one_eq_mod x 8

/-- The two stored bytes, shifted back and joined, are the value. -/
private theorem join_bytes (v : UInt16) :
    (v &&& 0xFF).toUInt8.toUInt16
        ||| (((v >>> 8) &&& 0xFF).toUInt8.toUInt16 <<< 8)
      = v := by
  apply UInt16.toNat_inj.mp
  have hv := v.toNat_lt
  have hlo : ((v &&& 0xFF).toUInt8.toUInt16).toNat = v.toNat % 256 := by
    simp [and_255]
  have hhi : (((v >>> 8) &&& 0xFF).toUInt8.toUInt16 <<< 8).toNat
      = 2 ^ 8 * (v.toNat / 256) := by
    simp [and_255, Nat.shiftRight_eq_div_pow, Nat.shiftLeft_eq]
    omega
  rw [UInt16.toNat_or, hlo, hhi, Nat.or_comm,
    ← Nat.two_pow_add_eq_or_of_lt (by omega)]
  omega

/-- `ReadU16` reads what `WriteU16` stored, wherever it stored it. -/
theorem readU16_writeU16 (pre post : List UInt8) (v : UInt16) :
    readU16 (pre ++ writeU16 v ++ post) pre.length = v := by
  have hlo : byteAt (pre ++ writeU16 v ++ post) pre.length
      = (v &&& 0xFF).toUInt8 := by
    simp [byteAt, writeU16]
  have hhi : byteAt (pre ++ writeU16 v ++ post) (pre.length + 1)
      = ((v >>> 8) &&& 0xFF).toUInt8 := by
    simp [byteAt, writeU16]
  rw [readU16, hlo, hhi, join_bytes]

/-- The two bytes of the joined value are the bytes it was joined
from. -/
private theorem split_joined (lo hi : UInt8) :
    writeU16 (lo.toUInt16 ||| (hi.toUInt16 <<< 8)) = [lo, hi] := by
  have hl := lo.toNat_lt
  have hh := hi.toNat_lt
  have hjoin : (lo.toUInt16 ||| (hi.toUInt16 <<< 8)).toNat
      = 2 ^ 8 * hi.toNat + lo.toNat := by
    have hshift : (hi.toUInt16 <<< 8).toNat = 2 ^ 8 * hi.toNat := by
      simp [Nat.shiftLeft_eq]
      omega
    rw [UInt16.toNat_or, hshift, UInt8.toNat_toUInt16, Nat.or_comm,
      ← Nat.two_pow_add_eq_or_of_lt hl]
  have hlo : ((lo.toUInt16 ||| (hi.toUInt16 <<< 8)) &&& 0xFF).toUInt8 = lo := by
    apply UInt8.toNat_inj.mp
    rw [UInt16.toNat_toUInt8, UInt16.toNat_and, hjoin]
    simp [and_255]
  have hhi : (((lo.toUInt16 ||| (hi.toUInt16 <<< 8)) >>> 8) &&& 0xFF).toUInt8 = hi := by
    apply UInt8.toNat_inj.mp
    rw [UInt16.toNat_toUInt8, UInt16.toNat_and, UInt16.toNat_shiftRight, hjoin]
    simp [and_255, Nat.shiftRight_eq_div_pow]
    omega
  rw [writeU16, hlo, hhi]

/-- Writing what `ReadU16` read gives the two bytes it read. -/
theorem writeU16_readU16 (data : List UInt8) (i : Nat) :
    writeU16 (readU16 data i) = [byteAt data i, byteAt data (i + 1)] :=
  split_joined _ _

/-- A packet's first bytes, one offset at a time. -/
private theorem take_eq_map_byteAt {data : List UInt8} {n : Nat}
    (hn : n ≤ data.length) : data.take n = (List.range n).map (byteAt data) := by
  refine List.ext_getElem (by simpa using hn) fun i hi _ => ?_
  have hin : i < n := by simp at hi; omega
  simp [byteAt, List.getElem?_eq_getElem (Nat.lt_of_lt_of_le hin hn)]

-- ============================================================ decoding

/-- The header checks of `DecodeHeader`, apart from the packet's
size. -/
structure WireHeader.WellFormed (h : WireHeader) : Prop where
  index_lt : h.fragmentIndex.toNat < h.fragmentCount.toNat
  chunk_pos : 0 < h.chunkBytes.toNat
  payload_le : h.payloadBytes.toNat ≤ h.chunkBytes.toNat

theorem WireHeader.WellFormed.count_pos {h : WireHeader} (hw : h.WellFormed) :
    0 < h.fragmentCount.toNat :=
  Nat.lt_of_le_of_lt (Nat.zero_le _) hw.index_lt

private theorem toNat_pos_iff {x : UInt8} : 0 < x.toNat ↔ x ≠ 0 := by
  rw [Nat.pos_iff_ne_zero, ne_eq, ne_eq, ← UInt8.toNat_inj]
  rfl

/-- The field checks of the decoder come to `WellFormed`. -/
theorem wellFormed_iff {h : WireHeader} :
    h.WellFormed ↔ ¬(h.fragmentCount = 0 ∨ h.fragmentIndex ≥ h.fragmentCount
        ∨ h.chunkBytes = 0) ∧ h.payloadBytes ≤ h.chunkBytes := by
  constructor
  · rintro ⟨hi, hc, hp⟩
    refine ⟨?_, UInt8.le_iff_toNat_le.mpr hp⟩
    rintro (h0 | hge | h0)
    · rw [h0] at hi
      exact absurd hi (Nat.not_lt_zero _)
    · exact absurd (UInt8.le_iff_toNat_le.mp hge) (by omega)
    · exact toNat_pos_iff.mp hc h0
  · rintro ⟨hno, hp⟩
    simp only [not_or, ge_iff_le, UInt8.not_le] at hno
    exact ⟨UInt8.lt_iff_toNat_lt.mp hno.2.1, toNat_pos_iff.mpr hno.2.2,
      UInt8.le_iff_toNat_le.mp hp⟩

/-- Everything `DecodeHeader` establishes when it succeeds: the fields are
those at their offsets, well formed, and the sizes agree. -/
theorem decodeHeader_eq_some {data : List UInt8} {h : WireHeader}
    (hd : decodeHeader data = some h) :
    readHeader data = h ∧ h.WellFormed
      ∧ wireHeaderBytes + h.payloadBytes.toNat = data.length := by
  unfold decodeHeader at hd
  split at hd
  · cases hd
  · split at hd
    · cases hd
    · dsimp only at hd
      split at hd
      · cases hd
      · next hno =>
        split at hd
        · next hsize =>
          injection hd with hd
          subst hd
          exact ⟨rfl, wellFormed_iff.mpr ⟨hno, hsize.1⟩, hsize.2⟩
        · cases hd

theorem decodeHeader_wellFormed {data : List UInt8} {h : WireHeader}
    (hd : decodeHeader data = some h) : h.WellFormed :=
  (decodeHeader_eq_some hd).2.1

/-- The body of an accepted packet has the length its header names. -/
theorem packetBody_length {data : List UInt8} {h : WireHeader}
    (hd : decodeHeader data = some h) :
    (packetBody data).length = h.payloadBytes.toNat := by
  have hlen := (decodeHeader_eq_some hd).2.2
  unfold packetBody
  rw [List.length_drop, ← hlen]
  omega

-- ============================================================ encoding

theorem encodeHeader_length (h : WireHeader) :
    (encodeHeader h).length = wireHeaderBytes := rfl

@[simp] theorem packetBody_encode (h : WireHeader) (body : List UInt8) :
    packetBody (encodeHeader h ++ body) = body :=
  List.drop_left' (encodeHeader_length h)

/-- Every field is read back from the offset it was written to. -/
theorem readHeader_encode (h : WireHeader) (body : List UInt8) :
    readHeader (encodeHeader h ++ body) = h := by
  have hsource : readU16 (encodeHeader h ++ body) 4 = h.source := by
    have := readU16_writeU16
      [wireMagic0, wireMagic1, wireVersion, h.channel]
      (writeU16 h.destination ++ writeU16 h.messageId
        ++ [h.fragmentIndex, h.fragmentCount, h.chunkBytes, h.payloadBytes,
          h.hopLimit] ++ body) h.source
    simpa [encodeHeader] using this
  have hdestination : readU16 (encodeHeader h ++ body) 6 = h.destination := by
    have := readU16_writeU16
      ([wireMagic0, wireMagic1, wireVersion, h.channel] ++ writeU16 h.source)
      (writeU16 h.messageId
        ++ [h.fragmentIndex, h.fragmentCount, h.chunkBytes, h.payloadBytes,
          h.hopLimit] ++ body) h.destination
    simpa [encodeHeader, writeU16] using this
  have hmessageId : readU16 (encodeHeader h ++ body) 8 = h.messageId := by
    have := readU16_writeU16
      ([wireMagic0, wireMagic1, wireVersion, h.channel] ++ writeU16 h.source
        ++ writeU16 h.destination)
      ([h.fragmentIndex, h.fragmentCount, h.chunkBytes, h.payloadBytes,
          h.hopLimit] ++ body) h.messageId
    simpa [encodeHeader, writeU16] using this
  unfold readHeader
  rw [hsource, hdestination, hmessageId]
  rfl

/-- `DecodeHeader` reads back what `EncodeHeader` wrote in front of a
body of the announced length. -/
theorem decodeHeader_encode {h : WireHeader} {body : List UInt8}
    (hw : h.WellFormed) (hb : body.length = h.payloadBytes.toNat) :
    decodeHeader (encodeHeader h ++ body) = some h := by
  obtain ⟨hno, hp⟩ := wellFormed_iff.mp hw
  have hlen : (encodeHeader h ++ body).length
      = wireHeaderBytes + h.payloadBytes.toNat := by
    rw [List.length_append, encodeHeader_length, hb]
  unfold decodeHeader
  rw [if_neg (by omega), if_neg (by simp [encodeHeader, byteAt])]
  dsimp only
  rw [readHeader_encode, if_neg hno, if_pos ⟨hp, hlen.symm⟩]

-- ===================================================== both directions

/-- An accepted packet starts with the constant bytes. -/
private theorem decodeHeader_constants {data : List UInt8} {h : WireHeader}
    (hd : decodeHeader data = some h) :
    byteAt data 0 = wireMagic0 ∧ byteAt data 1 = wireMagic1
      ∧ byteAt data 2 = wireVersion := by
  unfold decodeHeader at hd
  split at hd
  · cases hd
  · split at hd
    · cases hd
    · next hconstants =>
      simp only [ne_eq, not_or, Decidable.not_not] at hconstants
      exact hconstants

/-- `EncodeHeader` of the decoded header is the packet's first fifteen
bytes. -/
theorem encodeHeader_decode {data : List UInt8} {h : WireHeader}
    (hd : decodeHeader data = some h) :
    encodeHeader h = data.take wireHeaderBytes := by
  obtain ⟨hread, -, hlen⟩ := decodeHeader_eq_some hd
  obtain ⟨hmagic0, hmagic1, hversion⟩ := decodeHeader_constants hd
  rw [take_eq_map_byteAt (by omega), ← hread]
  simp only [encodeHeader, readHeader, writeU16_readU16, ← hmagic0, ← hmagic1,
    ← hversion]
  rfl

/-- An accepted packet is its header's encoding and its body. -/
theorem encodeHeader_append_packetBody {data : List UInt8} {h : WireHeader}
    (hd : decodeHeader data = some h) :
    encodeHeader h ++ packetBody data = data := by
  rw [encodeHeader_decode hd, packetBody, List.take_append_drop]

/-- With a body of the announced length, the decoder accepts exactly the
well-formed headers. -/
theorem decodeHeader_encode_iff {h h' : WireHeader} {body : List UInt8}
    (hb : body.length = h.payloadBytes.toNat) :
    decodeHeader (encodeHeader h ++ body) = some h' ↔ h.WellFormed ∧ h' = h := by
  constructor
  · intro hd
    obtain ⟨hread, hw, -⟩ := decodeHeader_eq_some hd
    rw [readHeader_encode] at hread
    exact ⟨hread ▸ hw, hread.symm⟩
  · rintro ⟨hw, rfl⟩
    exact decodeHeader_encode hw hb

/-- `EncodeHeader` and `DecodeHeader` are inverse to each other between
well-formed headers with their bodies and accepted packets. -/
theorem codec_bijective :
    (∀ (h : WireHeader) (body : List UInt8), body.length = h.payloadBytes.toNat →
      ((decodeHeader (encodeHeader h ++ body)).isSome
          ↔ 0 < h.fragmentCount.toNat
            ∧ h.fragmentIndex.toNat < h.fragmentCount.toNat
            ∧ 0 < h.chunkBytes.toNat
            ∧ h.payloadBytes.toNat ≤ h.chunkBytes.toNat)
        ∧ ∀ h', decodeHeader (encodeHeader h ++ body) = some h' → h' = h)
    ∧ (∀ (data : List UInt8) (h : WireHeader), decodeHeader data = some h →
        encodeHeader h = data.take wireHeaderBytes
          ∧ (packetBody data).length = h.payloadBytes.toNat)
    ∧ ∀ (first second : List UInt8) (h : WireHeader),
        decodeHeader first = some h → decodeHeader second = some h →
        packetBody first = packetBody second → first = second := by
  refine ⟨fun h body hb => ⟨⟨fun hsome => ?_, ?_⟩, fun h' hd => ?_⟩, ?_, ?_⟩
  · obtain ⟨h', hd⟩ := Option.isSome_iff_exists.mp hsome
    have hw := ((decodeHeader_encode_iff hb).mp hd).1
    exact ⟨hw.count_pos, hw.index_lt, hw.chunk_pos, hw.payload_le⟩
  · rintro ⟨-, hindex, hchunk, hpayload⟩
    rw [decodeHeader_encode ⟨hindex, hchunk, hpayload⟩ hb]
    rfl
  · exact ((decodeHeader_encode_iff hb).mp hd).2
  · intro data h hd
    exact ⟨encodeHeader_decode hd, packetBody_length hd⟩
  · intro first second h hfirst hsecond hbody
    rw [← encodeHeader_append_packetBody hfirst, hbody,
      encodeHeader_append_packetBody hsecond]

/-- A fragment of two bytes, put through the codec and back in both
directions. -/
theorem codec_bijective_single :
    let h : WireHeader :=
      { channel := 7, source := 0x0102, destination := 0x0304, messageId := 0x0506,
        fragmentCount := 1, chunkBytes := 2, payloadBytes := 2, hopLimit := 4 }
    (decodeHeader (encodeHeader h ++ [0xAA, 0xBB])).isSome
      ∧ encodeHeader h = (encodeHeader h ++ [0xAA, 0xBB]).take wireHeaderBytes :=
  ⟨(codec_bijective.1 _ [0xAA, 0xBB] rfl).1.mpr (by decide),
    (codec_bijective.2.1 (encodeHeader _ ++ [0xAA, 0xBB]) _ rfl).1⟩

end EspressioRadio
