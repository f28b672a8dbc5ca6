/-
Round trips of the clock synchronizer's frames: what `ProcessRequest`
and `ProcessResponse` read is what was encoded.
-/
import EspressioRadio.Clock.Wire
import EspressioRadio.Proofs.Codec

namespace EspressioRadio

namespace RadioClockSynchronizer

-- ========================================================= single fields

theorem readU32_writeU32 (front back : List UInt8) (v : UInt32) :
    readU32 (front ++ writeU32 v ++ back) front.length = v := by
  unfold readU32 writeU32
  rw [LittleEndian.read_write, ← UInt32.toNat_inj, UInt32.toNat_ofNat', Nat.mod_mod]
  exact Nat.mod_eq_of_lt v.toNat_lt

theorem readU64_writeU64 (front back : List UInt8) (v : UInt64) :
    readU64 (front ++ writeU64 v ++ back) front.length = v := by
  unfold readU64 writeU64
  rw [LittleEndian.read_write, ← UInt64.toNat_inj, UInt64.toNat_ofNat', Nat.mod_mod]
  exact Nat.mod_eq_of_lt v.toNat_lt

/-- A 64-bit field that starts after so many bytes is read back from there. -/
theorem readU64_at (front back : List UInt8) {data : List UInt8} {v : UInt64} {i : Nat}
    (hdata : data = front ++ writeU64 v ++ back) (hi : front.length = i) :
    readU64 data i = v := by
  rw [hdata, ← hi]
  exact readU64_writeU64 front back v

@[simp] theorem writeU32_length (v : UInt32) : (writeU32 v).length = 4 :=
  LittleEndian.write_length 4 _

@[simp] theorem writeU64_length (v : UInt64) : (writeU64 v).length = 8 :=
  LittleEndian.write_length 8 _

@[simp] theorem encodeHeader_length (type : MessageType) (sequence : UInt32) :
    (encodeHeader type sequence).length = headerBytes := by
  simp [encodeHeader, writeU16, headerBytes]

-- ============================================================== headers

/-- Every frame with an encoded header gives type and sequence back. -/
theorem decodeHeader_encodeHeader {type : MessageType} {sequence : UInt32}
    (hseq : sequence ≠ 0) (rest : List UInt8) :
    decodeHeader (encodeHeader type sequence ++ rest) = some (type, sequence) := by
  have hlen : ¬ (encodeHeader type sequence ++ rest).length < headerBytes := by
    rw [List.length_append, encodeHeader_length]
    omega
  have hmagic : ¬ (readU16 (encodeHeader type sequence ++ rest) 0 ≠ wireMagic
      ∨ byteAt (encodeHeader type sequence ++ rest) 2 ≠ wireVersion) := by
    apply not_or.mpr
    constructor
    · apply not_not.mpr
      have := readU16_writeU16 []
        ([wireVersion, type.byte] ++ writeU32 sequence ++ rest) wireMagic
      simpa [encodeHeader] using this
    · simp [encodeHeader, writeU16, byteAt]
  have htype : byteAt (encodeHeader type sequence ++ rest) 3 = type.byte := by
    simp [encodeHeader, writeU16, byteAt]
  have hsequence : readU32 (encodeHeader type sequence ++ rest) 4 = sequence :=
    readU32_writeU32 (writeU16 wireMagic ++ [wireVersion, type.byte]) rest sequence
  unfold decodeHeader
  rw [if_neg hlen, if_neg hmagic, htype, hsequence]
  cases type <;> simp [MessageType.byte, hseq]

-- ============================================================= responses

theorem decodeHeader_encodeResponse {sequence : UInt32} (hseq : sequence ≠ 0)
    (t1 t2 t3 : UInt64) :
    decodeHeader (encodeResponse sequence t1 t2 t3) = some (.response, sequence) := by
  unfold encodeResponse
  rw [List.append_assoc, List.append_assoc]
  exact decodeHeader_encodeHeader hseq _

/-- The three timestamps of a response are read back from their offsets. -/
theorem encodeResponse_times (sequence : UInt32) (t1 t2 t3 : UInt64) :
    readU64 (encodeResponse sequence t1 t2 t3) 8 = t1
      ∧ readU64 (encodeResponse sequence t1 t2 t3) 16 = t2
      ∧ readU64 (encodeResponse sequence t1 t2 t3) 24 = t3 := by
  refine ⟨?_, ?_, ?_⟩
  · apply readU64_at (encodeHeader .response sequence) (writeU64 t2 ++ writeU64 t3)
    · simp [encodeResponse]
    · simp [headerBytes]
  · apply readU64_at (encodeHeader .response sequence ++ writeU64 t1) (writeU64 t3)
    · simp [encodeResponse]
    · simp [headerBytes]
  · apply readU64_at (encodeHeader .response sequence ++ writeU64 t1 ++ writeU64 t2) []
    · simp [encodeResponse]
    · simp [headerBytes]

-- ============================================================== requests

section Request

variable {sequence : UInt32} {t1 : UInt64} {address : RadioAddress}

theorem isValid_length_le (ha : address.isValid = true) : address.length.toNat ≤ 8 := by
  simp only [RadioAddress.isValid, Bool.and_eq_true] at ha
  exact of_decide_eq_true ha.2

theorem isValid_length_ne (ha : address.isValid = true) : address.length ≠ 0 := by
  simp only [RadioAddress.isValid, Bool.and_eq_true] at ha
  exact (UInt8.ne_of_lt (of_decide_eq_true ha.1)).symm

theorem octets_length (ha : address.isValid = true) :
    address.octets.length = address.length.toNat := by
  have hle := isValid_length_le ha
  simp [RadioAddress.octets, hle]

/-- An address built from its own octets, whatever follows them, is that
address. -/
theorem fromBytes_octets (ha : address.isValid = true) (rest : List UInt8) :
    (RadioAddress.fromBytes (address.octets ++ rest) address.length).same address
      = true := by
  have hle := isValid_length_le ha
  have hguard : ¬ ((address.length = 0 || address.length.toNat > maximumRadioAddressBytes)
      = true) := by
    simp [isValid_length_ne ha, maximumRadioAddressBytes, hle]
  unfold RadioAddress.fromBytes
  rw [if_neg hguard, RadioAddress.same_iff]
  refine ⟨rfl, ?_⟩
  have hlen := octets_length ha
  apply List.ext_getElem
  · simp [RadioAddress.octets]
  · intro i _ hi
    have hlt : i < address.length.toNat := by rwa [hlen] at hi
    have hread : (address.octets ++ rest).getD i 0 = address.octets[i] := by
      rw [List.getD_eq_getElem _ _ (by simp; omega), List.getElem_append_left hi]
    rw [← hread]
    simp [RadioAddress.octets, hlt]

theorem decodeHeader_encodeRequest (hseq : sequence ≠ 0) :
    decodeHeader (encodeRequest sequence t1 address) = some (.request, sequence) := by
  unfold encodeRequest
  simp only [List.append_assoc]
  exact decodeHeader_encodeHeader hseq _

/-- The timestamp of a request is read back from its offset. -/
theorem encodeRequest_time :
    readU64 (encodeRequest sequence t1 address) requestTimestampOffset = t1 := by
  apply readU64_at (encodeHeader .request sequence)
    ([address.length] ++ address.octets
      ++ List.replicate (maximumRadioAddressBytes - address.octets.length) 0)
  · simp [encodeRequest]
  · simp [headerBytes, requestTimestampOffset]

/-- The address of a request is read back, as far as `operator==` can tell. -/
theorem decodeRequestAddress_encodeRequest (ha : address.isValid = true) :
    (decodeRequestAddress (encodeRequest sequence t1 address)).same address = true := by
  have hlength : byteAt (encodeRequest sequence t1 address) requestAddressLengthOffset
      = address.length := by
    have hfront : (encodeHeader .request sequence ++ writeU64 t1).length
        = requestAddressLengthOffset := by
      simp [headerBytes, requestAddressLengthOffset]
    unfold encodeRequest byteAt
    rw [← hfront]
    simp [List.getD_eq_getElem?_getD]
  have hdrop : (encodeRequest sequence t1 address).drop requestAddressOffset
      = address.octets
        ++ List.replicate (maximumRadioAddressBytes - address.octets.length) 0 := by
    unfold encodeRequest
    rw [List.append_assoc]
    apply List.drop_left'
    simp [requestAddressOffset, headerBytes]
  have hle := isValid_length_le ha
  unfold decodeRequestAddress
  dsimp only
  rw [hlength, hdrop, if_neg]
  · exact fromBytes_octets ha _
  · apply not_or.mpr
    exact ⟨isValid_length_ne ha, Nat.not_lt.mpr hle⟩

end Request

end RadioClockSynchronizer

end EspressioRadio
