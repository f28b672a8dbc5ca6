/-
Which accepted messages a receiver has room for.

The sender bounds the payload, the receiver the payload rounded up to
whole chunks: `FragmentCount * ChunkBytes`. The two agree on a message
exactly when the rounded size is within the bound too
(`accepted_admitted_iff`); between the two, a message is accepted, sent
in full, and no fragment of it finds a slot (`accepted_not_admitted`).
-/
import EspressioRadio.Proofs.Arrival

namespace EspressioRadio

open Chunks

namespace RadioTransport

variable {b : Bounds} {ρ : Type} {radios : Radios ρ} {radio : ρ}
  {nextHop : RadioAddress} {m : Outbound}

/-- A fragment finds a slot at a fresh transport exactly when all of its
message's chunks fit the bound, in full. -/
theorem takes_fresh_iff {t : RadioTransport b ρ} {c i : Nat}
    (hslots : ∀ j, t.reassemblies j = {}) (hrecent : ¬ t.Remembers m.identity)
    (hsource : m.source ≠ 0) (hlocal : m.source ≠ t.localNode)
    (hdestination : m.destination ≠ 0) (hs : Sendable m.payload c)
    (hi : i < chunkCount m.payload.length c) :
    (t.takes (frame m c i)).isSome = true
      ↔ chunkCount m.payload.length c * c ≤ b.maxMessageBytes := by
  have hsound := (stable_of_empty hslots).toSound
  have hd := (frame_fragmentOf hs hi).decodes
  obtain ⟨hid, -, -, hcount, hchunk, -⟩ := frameHeader_spec hs hi
  constructor
  · intro htake
    have hin := receiveFragment_inbound hsound (frame m c i)
    unfold takes at htake
    obtain ⟨j, hj⟩ := Option.isSome_iff_exists.mp htake
    rw [hj] at hin
    rcases hin.slot_cases hin.taken_used with ⟨hne, -⟩ | ⟨h, -, -, hholds, -⟩ |
      ⟨h, hd', -, -, ha, -⟩
    · exact absurd rfl hne
    · rw [hslots j] at hholds
      cases hholds
    · rw [hd] at hd'
      obtain rfl := Option.some.inj hd'
      rwa [hcount, hchunk] at ha
  · intro hle
    have hadm : t.Admits m c := ⟨hs, hle, hsource, hlocal, hdestination⟩
    have hopen := receiveFragment_opened hsound hd
      (hadm.refuses_eq rfl hid hrecent) (fun j => by rw [hslots j]; rfl)
      (by rw [hcount, hchunk]; exact hle)
    unfold takes
    rw [hopen]
    rfl

/-- What an accepted `SendVia` sent, the destination freshly started
would take in, every fragment of it, if and only if the fragments' chunks
fit its bound. -/
theorem accepted_admitted_iff (hop : UInt8) (hsource : m.source ≠ 0)
    (hlocal : m.source ≠ m.destination) (hdestination : m.destination ≠ 0)
    (hok : (sendVia b radios radio nextHop m).1.ok = true) :
    (∀ call ∈ (sendVia b radios radio nextHop m).2,
        ((create m.destination hop : RadioTransport b ρ).takes call.frame).isSome
          = true)
      ↔ fragmentCountValue m.payload.length (fragmentPayloadBytes radios radio)
          * fragmentPayloadBytes radios radio
        ≤ b.maxMessageBytes := by
  obtain ⟨hg, hframes⟩ := sendVia_frames hok
  have hs := hg.sendable
  generalize fragmentPayloadBytes radios radio = c at hs hframes ⊢
  have hfresh : ∀ i, i < chunkCount m.payload.length c →
      (((create m.destination hop : RadioTransport b ρ).takes
          (frame m c i)).isSome = true
        ↔ chunkCount m.payload.length c * c ≤ b.maxMessageBytes) := fun i hi =>
    takes_fresh_iff (fun _ => rfl) (by rintro ⟨j, hj, -⟩; cases hj) hsource hlocal
      hdestination hs hi
  rw [fragmentCountValue_eq]
  constructor
  · intro hall
    have hpos := chunkCount_pos (n := m.payload.length) hs.chunk_pos
    have hfirst : frame m c 0 ∈ (sendVia b radios radio nextHop m).2.map
        SendCall.frame := by
      rw [hframes]
      exact List.mem_map.mpr ⟨0, List.mem_range.mpr hpos, rfl⟩
    obtain ⟨call, hcall, heq⟩ := List.mem_map.mp hfirst
    exact (hfresh 0 hpos).mp (heq ▸ hall call hcall)
  · intro hle call hcall
    have hmem : call.frame ∈ (sendVia b radios radio nextHop m).2.map
        SendCall.frame := List.mem_map.mpr ⟨call, hcall, rfl⟩
    rw [hframes] at hmem
    obtain ⟨i, hi, heq⟩ := List.mem_map.mp hmem
    rw [← heq]
    exact (hfresh i (List.mem_range.mp hi)).mpr hle

-- ================================================= between the two bounds

/-- A radio that accepts everything, with room for the largest chunk a
header can name and more. -/
def wideRadios : Radios Unit where
  start := fun _ => true
  isStarted := fun _ => true
  capabilities := fun _ =>
    { flags := 1, maximumPayloadBytes := 270, addressBytes := 5 }
  send := fun _ _ => .accepted

/-- A message from node 1 to node 2 of this many zero bytes. -/
def sizedMessage (size : Nat) : Outbound :=
  { source := 1, destination := 2, channel := 7, messageId := 1, hopLimit := 4,
    payload := List.replicate size 0 }

/-- A radio of that kind accepts every message whose size is within the
sender's bound. -/
theorem sizedMessage_accepted {size : Nat} (hsize : size ≤ 4096) :
    (sendVia .defaults wideRadios () {} (sizedMessage size)).1.ok = true := by
  have hlen : (sizedMessage size).payload.length = size := List.length_replicate
  have hchunk : fragmentPayloadBytes wideRadios () = 255 := rfl
  refine sendVia_ok ⟨rfl, by rw [hlen]; exact hsize, ?_⟩ fun _ => rfl
  rw [hchunk]
  refine ⟨by decide, by decide, ?_⟩
  rw [hlen]
  unfold chunkCount
  split <;> omega

/-- A message of 4080 bytes fills sixteen chunks, which fit: the destination
takes in all its fragments. -/
theorem largest_admitted :
    (∀ call ∈ (sendVia .defaults wideRadios () {} (sizedMessage 4080)).2,
        ((create (sizedMessage 4080).destination 4 :
          RadioTransport .defaults Unit).takes call.frame).isSome = true)
      ↔ fragmentCountValue (sizedMessage 4080).payload.length
            (fragmentPayloadBytes wideRadios ())
          * fragmentPayloadBytes wideRadios ()
        ≤ Bounds.defaults.maxMessageBytes :=
  accepted_admitted_iff 4 (by decide) (by decide) (by decide)
    (sizedMessage_accepted (by decide))

/-- A message of 4096 bytes is accepted and needs seventeen chunks: no
fragment of it is taken in. -/
theorem accepted_not_admitted :
    (sendVia .defaults wideRadios () {} (sizedMessage 4096)).1.ok = true
      ∧ ∃ call ∈ (sendVia .defaults wideRadios () {} (sizedMessage 4096)).2,
        ((create 2 4 : RadioTransport .defaults Unit).takes call.frame).isSome
          = false := by
  have hok := sizedMessage_accepted (Nat.le_refl 4096)
  obtain ⟨hg, hframes⟩ := sendVia_frames hok
  have hlen : (sizedMessage 4096).payload.length = 4096 := List.length_replicate
  have hchunk : fragmentPayloadBytes wideRadios () = 255 := rfl
  have hs := hg.sendable
  rw [hchunk] at hs hframes
  have hpos := chunkCount_pos (n := (sizedMessage 4096).payload.length) hs.chunk_pos
  have hfirst : frame (sizedMessage 4096) 255 0 ∈ (sendVia .defaults wideRadios ()
      {} (sizedMessage 4096)).2.map SendCall.frame := by
    rw [hframes]
    exact List.mem_map.mpr ⟨0, List.mem_range.mpr hpos, rfl⟩
  obtain ⟨call, hcall, heq⟩ := List.mem_map.mp hfirst
  refine ⟨hok, call, hcall, ?_⟩
  rw [heq, Bool.eq_false_iff]
  intro htake
  have hle := (takes_fresh_iff (t := (create 2 4 : RadioTransport .defaults Unit))
    (fun _ => rfl) (by rintro ⟨j, hj, -⟩; cases hj) (by decide) (by decide)
    (by decide) hs hpos).mp htake
  rw [hlen] at hle
  revert hle
  decide

end RadioTransport

end EspressioRadio
