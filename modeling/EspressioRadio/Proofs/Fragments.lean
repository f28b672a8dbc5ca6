/-
What a sent message looks like on the air.

`frame m c i` is the `i`-th fragment of `m` at chunk size `c`; the send
path hands exactly these to the radio (`sendVia_calls`,
`sendFramed_calls`, and in full and in order when the send is accepted,
`sendVia_frames`). On the receiving side only four facts of a fragment
matter, and they make up `FragmentOf`: whose it is, that its geometry is
that of the payload, and which slice of the payload it carries. The hop
limit is not among them, so a forwarded copy cut at another chunk size
is `FragmentOf` the same payload.
-/
import EspressioRadio.Lib.Attempts
import EspressioRadio.Proofs.Codec
import EspressioRadio.Transport.Calls

namespace EspressioRadio

open Chunks

variable {b : Bounds} {ρ : Type}

-- ====================================================== one fragment

/-- The fragment carries a slice of the payload of the message with
this identity. -/
structure FragmentOf (id : MessageIdentity) (payload packet : List UInt8)
    (h : WireHeader) : Prop where
  decodes : decodeHeader packet = some h
  identity : h.identity = id
  count : h.fragmentCount.toNat = chunkCount payload.length h.chunkBytes.toNat
  body : packetBody packet = chunk payload h.chunkBytes.toNat h.fragmentIndex.toNat

/-- A chunk size the send path can use for this payload. -/
structure Sendable (payload : List UInt8) (c : Nat) : Prop where
  chunk_pos : 0 < c
  chunk_le : c ≤ 255
  count_le : chunkCount payload.length c ≤ 255

/-- The number of fragments of the payload, as the header carries
it. -/
def fragmentTotal (payload : List UInt8) (c : Nat) : UInt8 :=
  UInt8.ofNat (fragmentCountValue payload.length c)

/-- The `i`-th fragment of `m` at chunk size `c`. -/
def frame (m : Outbound) (c i : Nat) : List UInt8 :=
  fragmentFrame m c (fragmentTotal m.payload c) (UInt8.ofNat i)

/-- The first `k` fragments of `m` at chunk size `c`, in order. -/
def frames (m : Outbound) (c k : Nat) : List (List UInt8) :=
  (List.range k).map (frame m c)

/-- The header of the `i`-th fragment of `m` at chunk size `c`. -/
def frameHeader (m : Outbound) (c i : Nat) : WireHeader :=
  fragmentHeader m c (fragmentTotal m.payload c) (UInt8.ofNat i)

theorem fragmentCountValue_eq (n c : Nat) :
    fragmentCountValue n c = chunkCount n c := rfl

theorem Sendable.fragmentTotal_toNat {payload : List UInt8} {c : Nat}
    (hs : Sendable payload c) :
    (fragmentTotal payload c).toNat = chunkCount payload.length c := by
  have := hs.count_le
  rw [fragmentTotal, fragmentCountValue_eq, UInt8.toNat_ofNat']
  exact Nat.mod_eq_of_lt (by omega)

section Frame

variable {m : Outbound} {c i : Nat}

/-- The header of a fragment as numbers, with none of its casts to a byte
cutting anything off. -/
theorem frameHeader_spec (hs : Sendable m.payload c)
    (hi : i < chunkCount m.payload.length c) :
    (frameHeader m c i).identity = m.identity
      ∧ (frameHeader m c i).hopLimit = m.hopLimit
      ∧ (frameHeader m c i).fragmentIndex.toNat = i
      ∧ (frameHeader m c i).fragmentCount.toNat = chunkCount m.payload.length c
      ∧ (frameHeader m c i).chunkBytes.toNat = c
      ∧ (frameHeader m c i).payloadBytes.toNat = (chunk m.payload c i).length := by
  have hcount := hs.count_le
  have hchunk := hs.chunk_le
  have hindex : (UInt8.ofNat i).toNat = i := by
    rw [UInt8.toNat_ofNat']
    exact Nat.mod_eq_of_lt (by omega)
  refine ⟨rfl, rfl, hindex, hs.fragmentTotal_toNat, ?_, ?_⟩
  · show (UInt8.ofNat c).toNat = c
    rw [UInt8.toNat_ofNat']
    exact Nat.mod_eq_of_lt (by omega)
  · show (UInt8.ofNat (min c (if m.payload.length > (UInt8.ofNat i).toNat * c then
      m.payload.length - (UInt8.ofNat i).toNat * c else 0))).toNat = _
    rw [hindex, UInt8.toNat_ofNat', chunk_length, Nat.mod_eq_of_lt (by omega)]
    congr 1
    split <;> omega

theorem frameHeader_wellFormed (hs : Sendable m.payload c)
    (hi : i < chunkCount m.payload.length c) : (frameHeader m c i).WellFormed := by
  obtain ⟨-, -, hindex, hcount, hchunk, hpayload⟩ := frameHeader_spec hs hi
  refine ⟨by omega, by have := hs.chunk_pos; omega, ?_⟩
  rw [hpayload, hchunk]
  exact chunk_length_le ..

/-- A fragment is its header in front of its slice. -/
theorem frame_eq (hs : Sendable m.payload c)
    (hi : i < chunkCount m.payload.length c) :
    frame m c i = encodeHeader (frameHeader m c i) ++ chunk m.payload c i := by
  obtain ⟨-, -, hindex, -, -, hpayload⟩ := frameHeader_spec hs hi
  have hindex' : (UInt8.ofNat i).toNat = i := hindex
  show encodeHeader (frameHeader m c i)
      ++ (m.payload.drop ((UInt8.ofNat i).toNat * c)).take
        (frameHeader m c i).payloadBytes.toNat = _
  rw [hpayload, hindex', chunk_length]
  congr 1
  unfold chunk
  rw [← List.length_drop]
  exact List.take_eq_take_min.symm

/-- Every frame `SendVia` cuts from a message decodes, to the header of that
message at that index. -/
theorem frame_fragmentOf (hs : Sendable m.payload c)
    (hi : i < chunkCount m.payload.length c) :
    FragmentOf m.identity m.payload (frame m c i) (frameHeader m c i) := by
  obtain ⟨hid, -, hindex, hcount, hchunk, hpayload⟩ := frameHeader_spec hs hi
  rw [frame_eq hs hi]
  refine ⟨decodeHeader_encode (frameHeader_wellFormed hs hi) hpayload.symm, hid,
    ?_, ?_⟩
  · rw [hcount, hchunk]
  · rw [packetBody_encode, hindex, hchunk]

end Frame

-- ================================================= the send path emits

/-- The frame is one of the fragments of `m`, at some chunk size. -/
def IsFragment (m : Outbound) (packet : List UInt8) : Prop :=
  ∃ c i, Sendable m.payload c ∧ i < chunkCount m.payload.length c
    ∧ packet = frame m c i

/-- A fragment of a message decodes under the message's identity. -/
theorem IsFragment.decodes {m : Outbound} {packet : List UInt8} (hf : IsFragment m packet) :
    ∃ h, decodeHeader packet = some h ∧ h.identity = m.identity := by
  obtain ⟨c, i, hs, hi, rfl⟩ := hf
  have hfragment := frame_fragmentOf hs hi
  exact ⟨_, hfragment.decodes, hfragment.identity⟩

theorem fragmentPayloadBytes_le (radios : Radios ρ) (radio : ρ) :
    fragmentPayloadBytes radios radio ≤ 255 := by
  unfold fragmentPayloadBytes
  dsimp only
  split
  · omega
  · exact Nat.min_le_left _ _

variable {radios : Radios ρ} {radio : ρ} {nextHop : RadioAddress} {m : Outbound}

/-- The `radio.Send` of the `i`-th fragment, with the radio's answer. -/
def fragmentCall (radios : Radios ρ) (radio : ρ) (nextHop : RadioAddress)
    (m : Outbound) (chunk : Nat) (fragmentCount : UInt8) (i : Nat) : SendCall ρ where
  radio := radio
  nextHop := nextHop
  frame := fragmentFrame m chunk fragmentCount (UInt8.ofNat i)
  result := radios.send radio (UInt8.ofNat i)

private theorem range'_step {i n : Nat} (h : i < n) :
    List.range' i (n - i) = i :: List.range' (i + 1) (n - (i + 1)) := by
  rw [show n - i = (n - (i + 1)) + 1 from by omega, List.range'_succ]

/-- The fragment loop offers every fragment from its index on, in order,
until one is rejected, and accepts if none is. -/
theorem sendFragments_tried {chunk : Nat} {fragmentCount index : UInt8} :
    (sendFragments radios radio nextHop m chunk fragmentCount index).2
        = Attempts.tried (fun call => call.result.ok)
          ((List.range' index.toNat (fragmentCount.toNat - index.toNat)).map
            (fragmentCall radios radio nextHop m chunk fragmentCount))
      ∧ ((sendFragments radios radio nextHop m chunk fragmentCount index).1.ok = true
        ↔ ∀ call ∈ (sendFragments radios radio nextHop m chunk fragmentCount
          index).2, call.result.ok = true) := by
  fun_induction sendFragments radios radio nextHop m chunk fragmentCount index with
  | case1 index hlt result call hres rest ih =>
      have hlt' := UInt8.lt_iff_toNat_lt.mp hlt
      have hsucc : (index + 1).toNat = index.toNat + 1 := by
        have := fragmentCount.toNat_lt
        rw [UInt8.toNat_add]
        exact Nat.mod_eq_of_lt (by simp; omega)
      have hcall : fragmentCall radios radio nextHop m chunk fragmentCount
          index.toNat = call := by
        rw [fragmentCall, UInt8.ofNat_toNat]
      rw [hsucc] at ih
      rw [range'_step hlt', List.map_cons, hcall, Attempts.tried, if_pos hres, ← ih.1,
        List.forall_mem_cons]
      exact ⟨rfl, ih.2.trans ⟨fun hall => ⟨hres, hall⟩, And.right⟩⟩
  | case2 index hlt result call hno =>
      have hcall : fragmentCall radios radio nextHop m chunk fragmentCount
          index.toNat = call := by
        rw [fragmentCall, UInt8.ofNat_toNat]
      rw [range'_step (UInt8.lt_iff_toNat_lt.mp hlt), List.map_cons, hcall,
        Attempts.tried, if_neg hno]
      refine ⟨rfl, iff_of_false (by simp [RadioTransportSendResult.ok]) ?_⟩
      intro hall
      exact hno (hall call List.mem_cons_self)
  | case3 index hge =>
      have hle := UInt8.le_iff_toNat_le.mp (UInt8.not_lt.mp hge)
      rw [Nat.sub_eq_zero_of_le hle]
      exact ⟨rfl, iff_of_true rfl (fun call hcall => by cases hcall)⟩

/-- The fragment loop only sends fragments from its index on. -/
theorem sendFragments_calls {chunk : Nat} {fragmentCount index : UInt8} :
    ∀ call ∈ (sendFragments radios radio nextHop m chunk fragmentCount index).2,
      call.radio = radio ∧ call.nextHop = nextHop
        ∧ ∃ i < fragmentCount, call.frame = fragmentFrame m chunk fragmentCount i
          ∧ call.result = radios.send radio i := by
  intro call hcall
  rw [sendFragments_tried.1] at hcall
  obtain ⟨i, hi, rfl⟩ := List.mem_map.mp ((Attempts.tried_isPrefixOf _).subset hcall)
  have hlt : i < fragmentCount.toNat := by
    have := List.mem_range'_1.mp hi
    omega
  refine ⟨rfl, rfl, UInt8.ofNat i, ?_, rfl, rfl⟩
  rw [UInt8.lt_iff_toNat_lt, UInt8.toNat_ofNat']
  exact Nat.lt_of_le_of_lt (Nat.mod_le _ _) hlt

/-- An accepted loop has sent every fragment from its index on, in
order. -/
theorem sendFragments_frames {chunk : Nat} {fragmentCount index : UInt8}
    (hok : (sendFragments radios radio nextHop m chunk fragmentCount index).1.ok
      = true) :
    (sendFragments radios radio nextHop m chunk fragmentCount index).2.map
        SendCall.frame
      = (List.range' index.toNat (fragmentCount.toNat - index.toNat)).map
          fun i => fragmentFrame m chunk fragmentCount (UInt8.ofNat i) := by
  have hall := sendFragments_tried.2.mp hok
  rw [sendFragments_tried.1] at hall ⊢
  rw [Attempts.tried_of_all (Attempts.tried_all_iff.mp hall), List.map_map]
  rfl

/-- If the radio accepts every fragment, so does the loop. -/
theorem sendFragments_ok {chunk : Nat} {fragmentCount index : UInt8}
    (hsend : ∀ i, (radios.send radio i).ok = true) :
    (sendFragments radios radio nextHop m chunk fragmentCount index).1.ok = true := by
  refine sendFragments_tried.2.mpr fun call hcall => ?_
  obtain ⟨-, -, i, -, -, hresult⟩ := sendFragments_calls call hcall
  rw [hresult]
  exact hsend i

/-- A radio with room for seventeen payload bytes a frame, started and
accepting everything. -/
def openRadios : Radios Unit where
  start := fun _ => true
  isStarted := fun _ => true
  capabilities := fun _ =>
    { flags := 1, maximumPayloadBytes := 32, addressBytes := 5 }
  send := fun _ _ => .accepted

/-- A radio like that, but with room for one payload byte a frame. -/
def narrowRadios : Radios Unit :=
  { openRadios with
    capabilities := fun _ =>
      { flags := 1, maximumPayloadBytes := 16, addressBytes := 5 } }

/-- What `SendVia` checks before it sends anything: the radio is started,
the message within the bound, and cut into fragments that a header can
count. -/
structure SendViaGuard (b : Bounds) (radios : Radios ρ) (radio : ρ)
    (payload : List UInt8) : Prop where
  started : radios.isStarted radio = true
  size_le : payload.length ≤ b.maxMessageBytes
  sendable : Sendable payload (fragmentPayloadBytes radios radio)

/-- Once its guards have passed, `SendVia` is its loop over the fragments
and answers what that loop answers. -/
theorem sendVia_eq (hg : SendViaGuard b radios radio m.payload) :
    sendVia b radios radio nextHop m
      = sendFragments radios radio nextHop m (fragmentPayloadBytes radios radio)
          (fragmentTotal m.payload (fragmentPayloadBytes radios radio)) 0 := by
  have hpos := hg.sendable.chunk_pos
  have hle := hg.size_le
  have hcount := hg.sendable.count_le
  unfold sendVia
  rw [if_neg (by simp [hg.started])]
  dsimp only
  rw [if_neg (by omega), if_neg (by omega), fragmentCountValue_eq,
    if_neg (by omega)]
  rfl

/-- Short of its guards `SendVia` returns an error and has sent nothing. -/
theorem sendVia_refused (hg : ¬ SendViaGuard b radios radio m.payload) :
    (sendVia b radios radio nextHop m).2 = []
      ∧ (sendVia b radios radio nextHop m).1.ok = false := by
  unfold sendVia
  split
  · exact ⟨rfl, rfl⟩
  · next hstarted =>
    dsimp only
    split
    · exact ⟨rfl, rfl⟩
    · next hchunk =>
      split
      · exact ⟨rfl, rfl⟩
      · next hsize =>
        split
        · exact ⟨rfl, rfl⟩
        · next hcount =>
          exact absurd ⟨by simpa using hstarted, by omega, by omega,
            fragmentPayloadBytes_le radios radio,
            by rw [fragmentCountValue_eq] at hcount; omega⟩ hg

theorem sendVia_calls :
    ∀ call ∈ (sendVia b radios radio nextHop m).2, IsFragment m call.frame := by
  by_cases hg : SendViaGuard b radios radio m.payload
  · intro call hcall
    rw [sendVia_eq hg] at hcall
    obtain ⟨-, -, i, hi, hframe, -⟩ := sendFragments_calls call hcall
    refine ⟨_, i.toNat, hg.sendable, ?_, ?_⟩
    · rw [← hg.sendable.fragmentTotal_toNat]
      exact UInt8.lt_iff_toNat_lt.mp hi
    · rw [hframe, frame, UInt8.ofNat_toNat]
  · intro call hcall
    rw [(sendVia_refused hg).1] at hcall
    cases hcall

/-- An accepted `SendVia` has sent every fragment once, in order. -/
theorem sendVia_frames (hok : (sendVia b radios radio nextHop m).1.ok = true) :
    SendViaGuard b radios radio m.payload
      ∧ (sendVia b radios radio nextHop m).2.map SendCall.frame
        = frames m (fragmentPayloadBytes radios radio)
          (chunkCount m.payload.length (fragmentPayloadBytes radios radio)) := by
  by_cases hg : SendViaGuard b radios radio m.payload
  · refine ⟨hg, ?_⟩
    rw [sendVia_eq hg] at hok ⊢
    rw [sendFragments_frames hok, hg.sendable.fragmentTotal_toNat, frames,
      List.range_eq_range']
    rfl
  · rw [(sendVia_refused hg).2] at hok
    cases hok

/-- Past its guards, `SendVia` succeeds if the radio accepts every fragment
it is given. -/
theorem sendVia_ok (hg : SendViaGuard b radios radio m.payload)
    (hsend : ∀ i, (radios.send radio i).ok = true) :
    (sendVia b radios radio nextHop m).1.ok = true := by
  rw [sendVia_eq hg]
  exact sendFragments_ok hsend

namespace RadioTransport

theorem sendBroadcast_calls (records : List (InterfaceRecord ρ)) :
    ∀ (sent : Bool) (last : RadioTransportSendResult),
      ∀ call ∈ (sendBroadcast (b := b) radios m records sent last).2,
        IsFragment m call.frame := by
  induction records with
  | nil => intro sent last call hcall; cases hcall
  | cons record records ih =>
      intro sent last call hcall
      unfold sendBroadcast at hcall
      split at hcall
      · exact ih _ _ call hcall
      · split at hcall
        · exact ih _ _ call hcall
        · rcases List.mem_append.mp hcall with hnow | hlater
          · exact sendVia_calls call hnow
          · split at hlater
            · exact ih _ _ call hlater
            · exact ih _ _ call hlater

/-- Whatever the route, only fragments of the message are sent. -/
theorem sendFramed_calls (t : RadioTransport b ρ) :
    ∀ call ∈ (t.sendFramed radios m).2, IsFragment m call.frame := by
  intro call hcall
  unfold sendFramed at hcall
  split at hcall
  · exact sendBroadcast_calls _ _ _ call hcall
  · split at hcall
    · exact sendVia_calls call hcall
    · split at hcall
      · exact sendVia_calls call hcall
      · cases hcall

/-- A unicast with a route goes out over that route's radio, to its next
hop. -/
theorem sendFramed_route {t : RadioTransport b ρ}
    (hd : m.destination ≠ broadcastNode) {route : RouteRecord ρ}
    (hroute : t.findRoute m.destination = some route)
    (hradio : route.radio = some radio) :
    t.sendFramed radios m = sendVia b radios radio route.nextHop m := by
  obtain ⟨used, destination, radio', nextHop'⟩ := route
  obtain rfl : radio' = some radio := hradio
  unfold sendFramed
  rw [if_neg hd, hroute]

/-- A unicast without a route goes out over the default interface, to
everyone on it. -/
theorem sendFramed_default {t : RadioTransport b ρ}
    (hd : m.destination ≠ broadcastNode)
    (hroute : t.findRoute m.destination = none) {record : InterfaceRecord ρ}
    (hdefault : t.findDefaultInterface = some record)
    (hradio : record.radio = some radio) :
    t.sendFramed radios m
      = sendVia b radios radio
        (RadioAddress.broadcast (radios.capabilities radio).addressBytes) m := by
  obtain ⟨radio', defaultRoute⟩ := record
  obtain rfl : radio' = some radio := hradio
  unfold sendFramed
  rw [if_neg hd, hroute]
  dsimp only
  rw [hdefault]

/-- An accepted unicast has sent every fragment once, in order, over one
radio. -/
theorem sendFramed_frames (t : RadioTransport b ρ)
    (hd : m.destination ≠ broadcastNode)
    (hok : (t.sendFramed radios m).1.ok = true) :
    ∃ c, Sendable m.payload c
      ∧ (t.sendFramed radios m).2.map SendCall.frame
        = frames m c (chunkCount m.payload.length c) := by
  unfold sendFramed at hok ⊢
  rw [if_neg hd] at hok ⊢
  split at hok
  · obtain ⟨hg, hframes⟩ := sendVia_frames hok
    exact ⟨_, hg.sendable, hframes⟩
  · split at hok
    · obtain ⟨hg, hframes⟩ := sendVia_frames hok
      exact ⟨_, hg.sendable, hframes⟩
    · cases hok

end RadioTransport

end EspressioRadio
