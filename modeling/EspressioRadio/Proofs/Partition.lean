/-
What `SendVia` hands the radio.

Declined, it hands over nothing (`Declined`). Otherwise the calls are
those for the fragments of the message, in order and within the MTU,
until the radio rejects one (`Partition`). A fragment's bytes say which
of how many it is and carry one chunk of the payload (`Carries`), so the
bodies of an accepted send put end to end are the payload. The loop's
index is as wide as its bound: it never runs past 255, and the send of a
message of 255 fragments ends like any other.
-/
import EspressioRadio.Proofs.Fragments

namespace EspressioRadio

open Chunks

variable {b : Bounds} {ρ : Type} {radios : Radios ρ} {radio : ρ}
  {nextHop : RadioAddress} {m : Outbound}

/-- The send is refused before any `radio.Send`, for the radio's sake or the
message's size. -/
def Declined (r : RadioTransportSendResult × List (SendCall ρ)) : Prop :=
  (r.1.status = .interfaceUnavailable ∨ r.1.status = .messageTooLarge) ∧ r.2 = []

/-- The packet is the `i`-th of the `n` frames `m` is cut into at chunk
size `c`, and fits the radio. -/
structure Carries (m : Outbound) (mtu c n i : Nat) (packet : List UInt8) : Prop where
  length_le_mtu : packet.length ≤ mtu
  length_le_frame : packet.length ≤ wireHeaderBytes + 255
  header : ∃ h, decodeHeader packet = some h
    ∧ h.source = m.source ∧ h.destination = m.destination
    ∧ h.channel = m.channel ∧ h.messageId = m.messageId
    ∧ h.hopLimit = m.hopLimit ∧ h.fragmentIndex.toNat = i
    ∧ h.fragmentCount.toNat = n ∧ h.chunkBytes.toNat = c
  full : i + 1 < n → (packetBody packet).length = c
  nonempty : m.payload ≠ [] → packetBody packet ≠ []

/-- What `SendVia` comes to once past its checks: its calls are the
fragments of the message, in order, up to the first that the radio rejects. -/
structure Partition (radios : Radios ρ) (radio : ρ) (nextHop : RadioAddress)
    (m : Outbound) (c n : Nat) (r : RadioTransportSendResult × List (SendCall ρ)) :
    Prop where
  count_pos : 1 ≤ n
  count_le : n ≤ 255
  calls_pos : 1 ≤ r.2.length
  calls_le : r.2.length ≤ n
  call : ∀ i (hi : i < r.2.length), (r.2[i]).radio = radio
    ∧ (r.2[i]).nextHop = nextHop ∧ (r.2[i]).result = radios.send radio (UInt8.ofNat i)
    ∧ Carries m (radios.capabilities radio).maximumPayloadBytes.toNat c n i (r.2[i]).frame
  /-- Only the last call can have been rejected. -/
  stops : ∀ i (hi : i + 1 < r.2.length), (r.2[i]).result.ok = true
  payload : (∀ call ∈ r.2, call.result.ok = true) → r.2.length = n
    ∧ r.2.flatMap (fun call => packetBody call.frame) = m.payload
  accepted_iff : r.1.ok = true
    ↔ r.2.length = n ∧ ∀ call ∈ r.2, call.result.ok = true

/-- A chunk size is what the MTU leaves beside the header. -/
theorem header_add_fragmentPayloadBytes_le
    (hpos : 0 < fragmentPayloadBytes radios radio) :
    wireHeaderBytes + fragmentPayloadBytes radios radio
      ≤ (radios.capabilities radio).maximumPayloadBytes.toNat := by
  unfold fragmentPayloadBytes at hpos ⊢
  dsimp only at hpos ⊢
  split at hpos
  · cases hpos
  · next hmtu =>
    rw [if_neg hmtu]
    have := Nat.min_le_right 255
      ((radios.capabilities radio).maximumPayloadBytes.toNat - wireHeaderBytes)
    omega

/-- Each fragment is within the MTU and carries its chunk. -/
theorem frame_carries {i : Nat}
    (hs : Sendable m.payload (fragmentPayloadBytes radios radio))
    (hi : i < chunkCount m.payload.length (fragmentPayloadBytes radios radio)) :
    Carries m (radios.capabilities radio).maximumPayloadBytes.toNat
      (fragmentPayloadBytes radios radio)
      (chunkCount m.payload.length (fragmentPayloadBytes radios radio)) i
      (frame m (fragmentPayloadBytes radios radio) i) := by
  have hmtu := header_add_fragmentPayloadBytes_le hs.chunk_pos
  generalize fragmentPayloadBytes radios radio = c at hs hi hmtu ⊢
  have hpos := hs.chunk_pos
  have hlast := pred_chunkCount_mul_lt (n := m.payload.length) (c := c)
  have hlen : (frame m c i).length = wireHeaderBytes + (chunk m.payload c i).length := by
    rw [frame_eq hs hi, List.length_append, encodeHeader_length]
  have hchunk : (chunk m.payload c i).length ≤ c := chunk_length_le ..
  have hbody : packetBody (frame m c i) = chunk m.payload c i := by
    rw [frame_eq hs hi, packetBody_encode]
  have hbefore : i * c ≤ (chunkCount m.payload.length c - 1) * c :=
    Nat.mul_le_mul_right c (by omega)
  refine ⟨by omega, by have := hs.chunk_le; omega, ?_, ?_, ?_⟩
  · obtain ⟨-, hhop, hindex, hcount, hc, -⟩ := frameHeader_spec hs hi
    exact ⟨_, (frame_fragmentOf hs hi).decodes, rfl, rfl, rfl, rfl, hhop, hindex,
      hcount, hc⟩
  · -- a later chunk begins inside the payload
    intro hmore
    have hnext : (i + 1) * c ≤ (chunkCount m.payload.length c - 1) * c :=
      Nat.mul_le_mul_right c (by omega)
    rw [Nat.succ_mul] at hnext
    have := pred_chunkCount_mul_le m.payload.length hpos
    rw [hbody, chunk_length]
    omega
  · intro hne hempty
    have hlt := hlast (List.length_pos_iff.mpr hne) hpos
    have hzero := congrArg List.length hempty
    rw [hbody, chunk_length, List.length_nil] at hzero
    omega

/-- Short of its checks `SendVia` names the radio or the size. -/
theorem sendVia_declined (hg : ¬ SendViaGuard b radios radio m.payload) :
    Declined (sendVia b radios radio nextHop m) := by
  refine ⟨?_, (sendVia_refused hg).1⟩
  unfold sendVia
  split
  · exact Or.inl rfl
  · next hstarted =>
    dsimp only
    split
    · exact Or.inl rfl
    · next hchunk =>
      split
      · exact Or.inr rfl
      · next hsize =>
        split
        · exact Or.inr rfl
        · next hcount =>
          exact absurd ⟨by simpa using hstarted, by omega, by omega,
            fragmentPayloadBytes_le radios radio,
            by rw [fragmentCountValue_eq] at hcount; omega⟩ hg

/-- The calls of a send that goes through. -/
def fragmentCalls (radios : Radios ρ) (radio : ρ) (nextHop : RadioAddress)
    (m : Outbound) : List (SendCall ρ) :=
  let c := fragmentPayloadBytes radios radio
  (List.range (chunkCount m.payload.length c)).map
    (fragmentCall radios radio nextHop m c (fragmentTotal m.payload c))

@[simp] theorem fragmentCalls_length :
    (fragmentCalls radios radio nextHop m).length
      = chunkCount m.payload.length (fragmentPayloadBytes radios radio) := by
  simp [fragmentCalls]

theorem fragmentCalls_getElem {i : Nat}
    (hi : i < (fragmentCalls radios radio nextHop m).length) :
    (fragmentCalls radios radio nextHop m)[i]
      = fragmentCall radios radio nextHop m (fragmentPayloadBytes radios radio)
        (fragmentTotal m.payload (fragmentPayloadBytes radios radio)) i := by
  simp [fragmentCalls]

/-- The bodies of a send's calls, put end to end, are the payload. -/
theorem fragmentCalls_bodies
    (hs : Sendable m.payload (fragmentPayloadBytes radios radio)) :
    (fragmentCalls radios radio nextHop m).flatMap (fun call => packetBody call.frame)
      = m.payload := by
  have hbody : ∀ i ∈ List.range (chunkCount m.payload.length
      (fragmentPayloadBytes radios radio)),
      packetBody (frame m (fragmentPayloadBytes radios radio) i)
        = chunk m.payload (fragmentPayloadBytes radios radio) i := by
    intro i hi
    rw [frame_eq hs (List.mem_range.mp hi), packetBody_encode]
  simp only [fragmentCalls, List.flatMap_map]
  calc (List.range _).flatMap (fun i => packetBody (frame m _ i))
      = (List.range _).flatMap (chunk m.payload _) := List.flatMap_congr hbody
    _ = m.payload.take _ := flatMap_chunk_range m.payload _ _
    _ = m.payload := List.take_of_length_le (le_chunkCount_mul _ hs.chunk_pos)

/-- Past its checks `SendVia` makes these calls until one is rejected. -/
theorem sendVia_tried (nextHop : RadioAddress)
    (hg : SendViaGuard b radios radio m.payload) :
    (sendVia b radios radio nextHop m).2
        = Attempts.tried (fun call => call.result.ok)
          (fragmentCalls radios radio nextHop m)
      ∧ ((sendVia b radios radio nextHop m).1.ok = true
        ↔ ∀ call ∈ (sendVia b radios radio nextHop m).2, call.result.ok = true) := by
  rw [sendVia_eq hg]
  refine ⟨?_, sendFragments_tried.2⟩
  rw [sendFragments_tried.1, hg.sendable.fragmentTotal_toNat, fragmentCalls,
    List.range_eq_range']
  rfl

/-- The calls of a send that is not declined partition the payload. -/
theorem sendVia_handed (hg : SendViaGuard b radios radio m.payload) :
    Partition radios radio nextHop m (fragmentPayloadBytes radios radio)
      (fragmentCountValue m.payload.length (fragmentPayloadBytes radios radio))
      (sendVia b radios radio nextHop m) := by
  have hs := hg.sendable
  have hpos := chunkCount_pos (n := m.payload.length) hs.chunk_pos
  have htried := sendVia_tried nextHop hg
  rw [fragmentCountValue_eq]
  generalize sendVia b radios radio nextHop m = r at htried ⊢
  obtain ⟨result, calls⟩ := r
  obtain ⟨hcalls, hok⟩ := htried
  dsimp only at hcalls hok
  subst hcalls
  have hle : (Attempts.tried (fun call => call.result.ok)
      (fragmentCalls radios radio nextHop m)).length ≤ _ :=
    (Attempts.tried_isPrefixOf _).length_le
  rw [fragmentCalls_length] at hle
  have hall : (∀ call ∈ Attempts.tried (fun call => call.result.ok)
      (fragmentCalls radios radio nextHop m), call.result.ok = true) → _ := fun hacc =>
    Attempts.tried_of_all (Attempts.tried_all_iff.mp hacc)
  refine ⟨hpos, hs.count_le, ?_, hle, ?_, fun i hi => Attempts.ok_of_succ_lt hi, ?_, ?_⟩
  · refine List.length_pos_iff.mpr (Attempts.tried_ne_nil fun hnil => ?_)
    have hlength := congrArg List.length hnil
    rw [fragmentCalls_length, List.length_nil] at hlength
    omega
  · intro i hi
    dsimp only at hi ⊢
    have hlt := Nat.lt_of_lt_of_le hi hle
    rw [Attempts.getElem_tried hi (by rw [fragmentCalls_length]; exact hlt),
      fragmentCalls_getElem]
    exact ⟨rfl, rfl, rfl, frame_carries hs hlt⟩
  · intro hacc
    rw [hall hacc]
    exact ⟨fragmentCalls_length, fragmentCalls_bodies hs⟩
  · refine hok.trans ⟨fun hacc => ⟨?_, hacc⟩, And.right⟩
    rw [hall hacc]
    exact fragmentCalls_length

/-- `SendVia` either declines, having called no radio, or hands over the
fragments of the message in order, each within the MTU, until the radio
rejects one; it is accepted if and only if none is rejected. -/
theorem sendVia_partition (b : Bounds) (radios : Radios ρ) (radio : ρ)
    (nextHop : RadioAddress) (m : Outbound) :
    Declined (sendVia b radios radio nextHop m)
      ∨ Partition radios radio nextHop m (fragmentPayloadBytes radios radio)
        (fragmentCountValue m.payload.length (fragmentPayloadBytes radios radio))
        (sendVia b radios radio nextHop m) := by
  by_cases hg : SendViaGuard b radios radio m.payload
  · exact Or.inr (sendVia_handed hg)
  · exact Or.inl (sendVia_declined hg)

end EspressioRadio
