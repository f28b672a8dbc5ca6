/-
Several messages arriving mixed up.

A transport takes the fragments of a few messages in any order, any
interleaving, any multiplicity. At every point each message is waiting,
underway in a slot of its own, or delivered (`Standing`); `Weave` adds
what keeps it there. A packet moves only its own message (`Weave.next`),
because what could disturb another does not happen: a slot underway is
stamped since the start, so eviction passes it over (`victim_stale`),
and a message delivered is among the last few the ring has, so its
duplicates are refused.
-/
import EspressioRadio.Proofs.Recent
import EspressioRadio.Proofs.Touch
import Mathlib.Data.List.Induction

namespace EspressioRadio

open Chunks

variable {b : Bounds} {ρ : Type}

-- =============================================================== cuts

/-- A message and the chunk size it is cut at. -/
structure Cut where
  message : Outbound
  chunk : Nat

namespace Cut

variable {x y : Cut} {past : List (List UInt8)} {hop : UInt8} {i : Nat}

def identity (x : Cut) : MessageIdentity := x.message.identity

def count (x : Cut) : Nat := chunkCount x.message.payload.length x.chunk

/-- The `i`-th fragment of the message as it is cut, in a copy with this hop
limit. -/
def fragment (x : Cut) (hop : UInt8) (i : Nat) : List UInt8 :=
  frame (x.message.withHops hop) x.chunk i

/-- The header of the `i`-th fragment, in a copy with this hop limit. -/
def header (x : Cut) (hop : UInt8) (i : Nat) : WireHeader :=
  frameHeader (x.message.withHops hop) x.chunk i

/-- The `i`-th fragment is among these packets, in some copy. -/
def Seen (x : Cut) (past : List (List UInt8)) (i : Nat) : Prop :=
  i < x.count ∧ ∃ hop, x.fragment hop i ∈ past

/-- The send path can cut the message so. -/
def Sends (x : Cut) : Prop := Sendable x.message.payload x.chunk

theorem decode_fragment (hx : x.Sends) (hi : i < x.count) (hop : UInt8) :
    decodeHeader (x.fragment hop i) = some (x.header hop i) :=
  (frame_fragmentOf (m := x.message.withHops hop) hx hi).decodes

theorem header_identity (hx : x.Sends) (hi : i < x.count) (hop : UInt8) :
    (x.header hop i).identity = x.identity :=
  (frameHeader_spec (m := x.message.withHops hop) hx hi).1

/-- A fragment's bytes determine the message it is of and its index in it,
whatever the hop limits. -/
theorem fragment_inj {hop' : UInt8} {k : Nat} (hx : x.Sends) (hy : y.Sends)
    (hi : i < x.count) (hk : k < y.count)
    (heq : x.fragment hop i = y.fragment hop' k) : x.identity = y.identity ∧ i = k := by
  have hdx := decode_fragment hx hi hop
  have hdy := decode_fragment hy hk hop'
  rw [heq, hdy] at hdx
  have hh : y.header hop' k = x.header hop i := Option.some.inj hdx
  have hindex : ∀ {z : Cut} {j : Nat} (hop : UInt8), z.Sends → j < z.count →
      (z.header hop j).fragmentIndex.toNat = j := fun {z} {_} hop hz hj =>
    (frameHeader_spec (m := z.message.withHops hop) hz hj).2.2.1
  constructor
  · rw [← header_identity hx hi hop, ← hh]
    exact header_identity hy hk hop'
  · rw [← hindex hop hx hi, ← hh]
    exact hindex hop' hy hk

/-- A fragment counts for the message it belongs to. -/
theorem seen_self (hy : y.Sends) (hi : i < y.count) (k : Nat) :
    y.Seen (past ++ [y.fragment hop i]) k ↔ y.Seen past k ∨ k = i := by
  constructor
  · rintro ⟨hk, hop', hmem⟩
    rcases List.mem_append.mp hmem with hold | hnew
    · exact Or.inl ⟨hk, hop', hold⟩
    · exact Or.inr (fragment_inj hy hy hk hi (List.mem_singleton.mp hnew)).2
  · rintro (⟨hk, hop', hold⟩ | rfl)
    · exact ⟨hk, hop', List.mem_append_left _ hold⟩
    · exact ⟨hi, hop, List.mem_append_right _ (List.mem_singleton.mpr rfl)⟩

/-- A fragment of one message does not count for a message with another
identity. -/
theorem seen_other (hx : x.Sends) (hy : y.Sends) (hne : x.identity ≠ y.identity)
    (hi : i < y.count) (k : Nat) :
    x.Seen (past ++ [y.fragment hop i]) k ↔ x.Seen past k := by
  constructor
  · rintro ⟨hk, hop', hmem⟩
    rcases List.mem_append.mp hmem with hold | hnew
    · exact ⟨hk, hop', hold⟩
    · exact absurd (fragment_inj hx hy hk hi (List.mem_singleton.mp hnew)).1 hne
  · rintro ⟨hk, hop', hold⟩
    exact ⟨hk, hop', List.mem_append_left _ hold⟩

end Cut

-- ========================================================== the messages

/-- What delivering a message here looks like from outside. -/
def delivery (message : RadioTransportMessageView) : List (Event ρ) :=
  [.receiverMessage message, .messageReceived message]

namespace RadioTransport

/-- Messages for this node, few enough to be reassembled side by side,
of which it knows nothing yet. -/
structure Expects (t : RadioTransport b ρ) (messages : List Cut) : Prop where
  few : messages.length ≤ b.maxReassemblies
  distinct : (messages.map Cut.identity).Nodup
  sends : ∀ x ∈ messages, x.Sends
  size_le : ∀ x ∈ messages, x.count * x.chunk ≤ b.maxMessageBytes
  source_ne : ∀ x ∈ messages, x.message.source ≠ 0
  source_ne_local : ∀ x ∈ messages, x.message.source ≠ t.localNode
  destination : ∀ x ∈ messages,
    x.message.destination = t.localNode ∨ x.message.destination = broadcastNode
  unknown : ∀ x ∈ messages, ¬ t.Knows x.identity

variable {t₀ t : RadioTransport b ρ} {messages : List Cut}
  {past : List (List UInt8)} {delivered : List RadioTransportMessageView}
  {before : List MessageIdentity} {x y : Cut} {hop : UInt8} {i : Nat}

/-- Each of the messages expected is one the node admits, whatever hop limit
its copy has. -/
theorem Expects.admits (he : t₀.Expects messages) (hlocal : t₀.localNode ≠ 0)
    (hx : x ∈ messages) (hop : UInt8) :
    t₀.Admits (x.message.withHops hop) x.chunk where
  sendable := he.sends x hx
  size_le := he.size_le x hx
  source_ne := he.source_ne x hx
  source_ne_local := he.source_ne_local x hx
  destination_ne := fun hzero => by
    rcases he.destination x hx with hd | hd
    · exact hlocal (hd.symm.trans hzero)
    · rw [show x.message.destination = 0 from hzero] at hd
      exact absurd hd (by decide)

/-- Two of the expected messages with one identity are the same message. -/
theorem Expects.eq_of_identity (he : t₀.Expects messages) (hx : x ∈ messages)
    (hy : y ∈ messages) (hid : x.identity = y.identity) : x = y :=
  List.inj_on_of_nodup_map he.distinct hx hy hid

-- ========================================================== where each is

/-- How far a message has come: nothing of it seen, underway in a slot
touched since `T`, or delivered. -/
inductive Standing (t : RadioTransport b ρ) (T : UInt32)
    (past : List (List UInt8)) (delivered : List RadioTransportMessageView)
    (x : Cut) : Prop where
  | waiting (hnone : ∀ i, ¬ x.Seen past i) (hunknown : ¬ t.Knows x.identity)
  | underway (j : Fin b.maxReassemblies)
      (hc : (t.reassemblies j).Collects x.message x.chunk (x.Seen past))
      (htouch : T < (t.reassemblies j).touch)
  | done (hd : x.message.view ∈ delivered)

/-- The transport `t` after taking in the packets `past` since it was
`t₀`, with `delivered` delivered since and `before` completed before. -/
structure Weave (t₀ : RadioTransport b ρ) (messages : List Cut)
    (before : List MessageIdentity) (t : RadioTransport b ρ)
    (past : List (List UInt8)) (delivered : List RadioTransportMessageView) :
    Prop where
  ring : t.RingTracks
    (before ++ delivered.map RadioTransportMessageView.identity)
  touched : t.Touched
  since : t₀.touchCounter ≤ t.touchCounter
  localNode_eq : t.localNode = t₀.localNode
  receiver_eq : t.receiver = t₀.receiver
  fresh : ∀ j, (t.reassemblies j).used = true →
    t₀.touchCounter < (t.reassemblies j).touch →
    (t.reassemblies j).identity ∈ messages.map Cut.identity
  standing : ∀ x ∈ messages, t.Standing t₀.touchCounter past delivered x
  nodup : delivered.Nodup
  ours : ∀ v ∈ delivered, v ∈ messages.map fun x => x.message.view

/-- The invariant holds before anything has been taken in. -/
theorem weave_start (hring : t₀.RingTracks before) (htouched : t₀.Touched)
    (he : t₀.Expects messages) : t₀.Weave messages before t₀ [] [] where
  ring := by simpa using hring
  touched := htouched
  since := UInt32.le_refl _
  localNode_eq := rfl
  receiver_eq := rfl
  fresh := fun j hu hlt => absurd (htouched j hu) (UInt32.not_le.mpr hlt)
  standing := fun x hx => by
    apply Standing.waiting
    · rintro i ⟨-, hop, hmem⟩
      exact List.not_mem_nil hmem
    · exact he.unknown x hx
  nodup := List.nodup_nil
  ours := fun v hv => absurd hv List.not_mem_nil

/-- The completions that are no further back than the ring is long are
remembered. -/
theorem RingTracks.remembers {ids : List MessageIdentity} {id : MessageIdentity}
    (ht : t.RingTracks (before ++ ids)) (hlen : ids.length ≤ b.maxRecentMessages)
    (hid : id ∈ ids) : t.Remembers id := by
  obtain ⟨k, hk⟩ := List.mem_iff_getElem?.mp hid
  rw [← ring_has_iff, ht.tracks.has_iff]
  refine ⟨before.length + k, ?_, ?_⟩
  · rw [List.length_append]
    omega
  · rw [List.getElem?_append_right (by omega), Nat.add_sub_cancel_left]
    exact hk

/-- A message delivered is remembered, as long as there are no more messages
than places in the ring. -/
theorem Weave.remembers (hw : t₀.Weave messages before t past delivered)
    (hfew : messages.length ≤ b.maxRecentMessages) {v : RadioTransportMessageView}
    (hv : v ∈ delivered) : t.Remembers v.identity := by
  apply hw.ring.remembers _ (List.mem_map_of_mem hv)
  rw [List.length_map]
  have hle := (List.subperm_of_subset hw.nodup hw.ours).length_le
  rw [List.length_map] at hle
  omega

/-- A message underway is in use, and not remembered. -/
theorem Standing.done_of_remembers {T : UInt32} (hs : t.Stable)
    (hst : t.Standing T past delivered x) (hr : t.Remembers x.identity) :
    x.message.view ∈ delivered := by
  cases hst with
  | waiting hnone hunknown => exact absurd (Or.inl hr) hunknown
  | underway j hc htouch =>
      exact absurd (hc.identity ▸ hr) (hs.not_recent j hc.used)
  | done hd => exact hd

-- ======================================================= taking one in

/-- The hop limit is no part of what a slot collects. -/
theorem collects_withHops {s : ReassemblyRecord} {m : Outbound} {c : Nat}
    {seen : Nat → Prop} :
    s.Collects (m.withHops hop) c seen ↔ s.Collects m c seen :=
  ⟨fun h => ⟨h.used, h.identity, h.chunk_eq, h.carries, h.got⟩,
    fun h => ⟨h.used, h.identity, h.chunk_eq, h.carries, h.got⟩⟩

/-- A fragment of message `y` is taken into slot `k`, which holds `s`
from then on, and no other message of ours was underway there. -/
structure Intake (t : RadioTransport b ρ) (T : UInt32) (past : List (List UInt8))
    (y : Cut) (packet : List UInt8) (k : Fin b.maxReassemblies)
    (s : ReassemblyRecord) : Prop where
  takes : t.takes packet = some k
  slots : (t.receiveFragment packet).1.reassemblies = Function.update t.reassemblies k s
  collects : s.Collects y.message y.chunk (y.Seen (past ++ [packet]))
  apart : ∀ j, (t.reassemblies j).used = true → T < (t.reassemblies j).touch →
    (t.reassemblies j).identity ≠ y.identity → j ≠ k

/-- The other messages are too few to fill the table, so none of them is
underway in the slot a new message gets. -/
theorem Weave.victim_apart (hw : t₀.Weave messages before t past delivered)
    (he : t₀.Expects messages) (hy : y ∈ messages) (hunknown : ¬ t.Knows y.identity)
    {j : Fin b.maxReassemblies} (hu : (t.reassemblies j).used = true)
    (hlt : t₀.touchCounter < (t.reassemblies j).touch) : j ≠ t.victim := by
  rintro rfl
  have hmem : y.identity ∈ messages.map Cut.identity := List.mem_map_of_mem hy
  have hfew : ((messages.map Cut.identity).erase y.identity).length
      < b.maxReassemblies := by
    have hle := he.few
    have hpos := List.length_pos_of_mem hmem
    rw [List.length_erase_of_mem hmem]
    rw [List.length_map] at hpos ⊢
    omega
  have hstale := victim_stale hw.ring.stable.toSound (T := t₀.touchCounter) hfew
    fun j hu hlt => (List.mem_erase_of_ne fun heq =>
      hunknown (Or.inr ⟨j, hu, heq⟩)).mpr (hw.fresh j hu hlt)
  rcases hstale with hno | hle
  · rw [hno] at hu
    cases hu
  · exact UInt32.not_le.mpr hlt hle

/-- A fragment of a message not delivered yet goes into a slot that was
free, its own, or stale. -/
theorem Weave.intake (hw : t₀.Weave messages before t past delivered)
    (hop : UInt8) (he : t₀.Expects messages) (hlocal : t₀.localNode ≠ 0) (hy : y ∈ messages)
    (hi : i < y.count) (hnew : ¬ t.Remembers y.identity)
    (hnot : y.message.view ∉ delivered) :
    ∃ k s, t.Intake t₀.touchCounter past y (y.fragment hop i) k s := by
  have hs := hw.ring.stable.toSound
  have hsend := he.sends y hy
  have hd := Cut.decode_fragment hsend hi hop
  have hid := Cut.header_identity hsend hi hop
  have ha := he.admits hlocal hy hop
  have hr : t.refuses (y.header hop i) = false :=
    ha.refuses_eq hw.localNode_eq hid hnew
  cases hw.standing y hy with
  | waiting hnone hunknown =>
      -- nothing of it is there: it opens the victim, which no message underway can be
      have hfree : ∀ j, (t.reassemblies j).holds (y.header hop i) = false := by
        intro j
        rw [Bool.eq_false_iff]
        intro hj
        obtain ⟨hu, hji⟩ := ReassemblyRecord.holds_iff.mp hj
        exact hunknown (Or.inr ⟨j, hu, hji.trans hid⟩)
      have hsize : (y.header hop i).fragmentCount.toNat
          * (y.header hop i).chunkBytes.toNat ≤ b.maxMessageBytes := by
        obtain ⟨-, -, -, hcount, hchunk, -⟩ :=
          frameHeader_spec (m := y.message.withHops hop) hsend hi
        unfold Cut.header
        rw [hcount, hchunk]
        exact he.size_le y hy
      have hopen := receiveFragment_opened hs hd hr hfree hsize
      refine ⟨t.victim, _, ⟨by unfold takes; rw [hopen], by rw [hopen]; rfl, ?_, ?_⟩⟩
      · have hfirst : (firstStore (y.header hop i) (packetBody (y.fragment hop i))
            (t.touchCounter + 1 + 1)).Collects (y.message.withHops hop) y.chunk
            fun k => k = i := firstStore_collects hsend hi (he.size_le y hy)
        apply (collects_withHops.mp hfirst).congr
        intro k
        rw [Cut.seen_self hsend hi]
        exact (or_iff_right (hnone k)).symm
      · exact fun j hu hlt _ => hw.victim_apart he hy hunknown hu hlt
  | underway j hc htouch =>
      have hstore := receiveFragment_stored hs hd hr (hc.holds hid)
        ((collects_withHops.mpr hc).fits (m := y.message.withHops hop) hsend hi)
      refine ⟨j, _, ⟨by unfold takes; rw [hstore], by rw [hstore]; rfl, ?_, ?_⟩⟩
      · have hwell := hs.slot j hc.used
        have hadd := ((collects_withHops.mpr hc).touched (t.touchCounter + 1)).store
          (m := y.message.withHops hop) (hwell.touched _) hsend hi
        apply (collects_withHops.mp hadd).congr
        exact fun k => (Cut.seen_self hsend hi k).symm
      · rintro k - - hne rfl
        exact hne hc.identity
  | done hdone => exact absurd hdone hnot

namespace Intake

variable {T : UInt32} {packet : List UInt8} {k : Fin b.maxReassemblies}
  {s : ReassemblyRecord}

theorem self (ht : t.Intake T past y packet k s) :
    (t.receiveFragment packet).1.reassemblies k = s := by
  rw [ht.slots, Function.update_self]

theorem others (ht : t.Intake T past y packet k s) {j : Fin b.maxReassemblies}
    (hj : j ≠ k) :
    (t.receiveFragment packet).1.reassemblies j = t.reassemblies j := by
  rw [ht.slots, Function.update_of_ne hj]

end Intake

/-- A packet that teaches nothing about a message and leaves its slot
alone does not move it. -/
theorem Standing.other {t' : RadioTransport b ρ} {T : UInt32}
    {new : List RadioTransportMessageView} (hx : x.Sends) (hy : y.Sends)
    (hne : x.identity ≠ y.identity) (hi : i < y.count)
    (hst : t.Standing T past delivered x)
    (hknows : t'.Knows x.identity → t.Knows x.identity)
    (hslot : ∀ j, (t.reassemblies j).used = true →
      T < (t.reassemblies j).touch → (t.reassemblies j).identity = x.identity →
      t'.reassemblies j = t.reassemblies j) :
    t'.Standing T (past ++ [y.fragment hop i]) (delivered ++ new) x := by
  have hseen : ∀ k, x.Seen (past ++ [y.fragment hop i]) k ↔ x.Seen past k :=
    Cut.seen_other hx hy hne hi
  cases hst with
  | waiting hnone hunknown =>
      apply Standing.waiting
      · exact fun k hk => hnone k ((hseen k).mp hk)
      · exact fun hk => hunknown (hknows hk)
  | underway j hc htouch =>
      have heq := hslot j hc.used htouch hc.identity
      apply Standing.underway j
      · rw [heq]
        exact hc.congr fun k => (hseen k).symm
      · rw [heq]
        exact htouch
  | done hd => exact Standing.done (List.mem_append_left _ hd)

section Next

variable (hw : t₀.Weave messages before t past delivered)
  (he : t₀.Expects messages) (hy : y ∈ messages) (hi : i < y.count)
  {radios : Radios ρ}

include hw he hy hi

/-- A fragment of a message that was delivered already leaves the transport
as it was and shows nothing outside. -/
theorem Weave.duplicate (radios : Radios ρ) (hop : UInt8)
    (hr : t.Remembers y.identity) :
    t.processInboundPacket radios (y.fragment hop i) = (t, [])
      ∧ t₀.Weave messages before t (past ++ [y.fragment hop i]) delivered := by
  have hsend := he.sends y hy
  have hd := Cut.decode_fragment hsend hi hop
  have hid := Cut.header_identity hsend hi hop
  have hrefuse : t.refuses (y.header hop i) = true := by
    unfold refuses
    rw [isRecent_iff.mpr (hid ▸ hr), Bool.or_true]
  refine ⟨processInboundPacket_refused radios hd hrefuse, ?_⟩
  have hstand : ∀ x ∈ messages, t.Standing t₀.touchCounter
      (past ++ [y.fragment hop i]) delivered x := by
    intro x hx
    by_cases hxy : x.identity = y.identity
    · obtain rfl := he.eq_of_identity hx hy hxy
      exact Standing.done
        ((hw.standing x hx).done_of_remembers hw.ring.stable hr)
    · have hst : t.Standing t₀.touchCounter (past ++ [y.fragment hop i])
          (delivered ++ []) x :=
        (hw.standing x hx).other (he.sends x hx) hsend hxy hi (fun hk => hk)
          fun j _ _ _ => rfl
      rwa [List.append_nil] at hst
  exact { hw with standing := hstand }

variable [DecidableEq ρ]

/-- What is left to check of a packet taken into slot `k`: the slot
itself, and what it completed. -/
theorem Weave.extend {k : Fin b.maxReassemblies}
    {new : List RadioTransportMessageView} {t' : RadioTransport b ρ}
    (hdvd : b.maxRecentMessages ∣ 2 ^ b.sizeBits)
    (hun : t.Unwrapped ⟨radios, .processInboundPacket (y.fragment hop i)⟩)
    (ht' : t.after ⟨radios, .processInboundPacket (y.fragment hop i)⟩ = t')
    (hcomp : t.completion (y.fragment hop i)
      = (new.map RadioTransportMessageView.identity).head?)
    (hone : new.length ≤ 1)
    (hapart : ∀ j, (t.reassemblies j).used = true →
      t₀.touchCounter < (t.reassemblies j).touch →
      (t.reassemblies j).identity ≠ y.identity → j ≠ k)
    (hkeep : ∀ j, j ≠ k → t'.reassemblies j = t.reassemblies j)
    (hk : (t'.reassemblies k).used = true →
      (t'.reassemblies k).identity = y.identity)
    (hown : t'.Standing t₀.touchCounter (past ++ [y.fragment hop i])
      (delivered ++ new) y)
    (hnodup : (delivered ++ new).Nodup)
    (hours : ∀ v ∈ new, v = y.message.view) :
    t₀.Weave messages before t' (past ++ [y.fragment hop i]) (delivered ++ new) := by
  have hsend := he.sends y hy
  have hstable := hw.ring.stable
  have htouched := hw.touched.after hstable hun
  have hcounter : t.touchCounter ≤ (t.after _).touchCounter := hun
  have hlocal := after_localNode t
    ⟨radios, .processInboundPacket (y.fragment hop i)⟩
  have hreceiver : (t.after ⟨radios, .processInboundPacket (y.fragment hop i)⟩).receiver
      = t.receiver := (processInboundPacket_frame _ radios _).2.2.2.1
  rw [ht'] at htouched hcounter hlocal hreceiver
  refine ⟨?_, htouched, UInt32.le_trans hw.since hcounter,
    hlocal.trans hw.localNode_eq, hreceiver.trans hw.receiver_eq, ?_, ?_, hnodup, ?_⟩
  · -- the ring: what the packet completed goes on top
    have hexact : t.RingExact ⟨radios, .processInboundPacket (y.fragment hop i)⟩ :=
      fun _ => Or.inl hdvd
    have hafter := hw.ring.after hexact
    have hnew : t.completions ⟨radios, .processInboundPacket (y.fragment hop i)⟩
        = new.map RadioTransportMessageView.identity := by
      show (t.completion (y.fragment hop i)).toList = _
      rw [hcomp]
      match new, hone with
      | [], _ => rfl
      | [v], _ => rfl
    rw [hnew, ht', List.append_assoc, ← List.map_append] at hafter
    exact hafter
  · -- slots taken since the start: `k` is the packet's, the others are as they were
    intro j hu hlt
    by_cases hj : j = k
    · subst hj
      rw [hk hu]
      exact List.mem_map_of_mem hy
    · rw [hkeep j hj] at hu hlt ⊢
      exact hw.fresh j hu hlt
  · -- the messages: this one as given, the others unmoved by its packet
    intro x hx
    by_cases hxy : x.identity = y.identity
    · obtain rfl := he.eq_of_identity hx hy hxy
      exact hown
    · apply (hw.standing x hx).other (he.sends x hx) hsend hxy hi
      · rw [← ht']
        apply knows_after hstable
        rintro packet h hcall hd
        injection hcall with hcall
        subst hcall
        rw [Cut.decode_fragment hsend hi hop] at hd
        obtain rfl := Option.some.inj hd
        rw [Cut.header_identity hsend hi hop]
        exact fun heq => hxy heq.symm
      · intro j hu hlt hid
        exact hkeep j (hapart j hu hlt (by rw [hid]; exact hxy))
  · intro v hv
    rcases List.mem_append.mp hv with hold | hnew
    · exact hw.ours v hold
    · rw [hours v hnew]
      exact List.mem_map_of_mem hy

/-- The invariant is kept by a fragment that leaves more of its message to
come. -/
theorem Weave.more {k : Fin b.maxReassemblies} {s : ReassemblyRecord}
    (hdvd : b.maxRecentMessages ∣ 2 ^ b.sizeBits)
    (hun : t.Unwrapped ⟨radios, .processInboundPacket (y.fragment hop i)⟩)
    (ht : t.Intake t₀.touchCounter past y (y.fragment hop i) k s)
    (hcomp : t.completion (y.fragment hop i) = none)
    (heq : t.processInboundPacket radios (y.fragment hop i)
      = ((t.receiveFragment (y.fragment hop i)).1, [])) :
    t₀.Weave messages before (t.receiveFragment (y.fragment hop i)).1
      (past ++ [y.fragment hop i]) (delivered ++ []) := by
  have hsound := hw.ring.stable.toSound
  have hnone : t.completion (y.fragment hop i)
      = (([] : List RadioTransportMessageView).map
        RadioTransportMessageView.identity).head? := hcomp
  apply hw.extend he hy hi hdvd hun (congrArg Prod.fst heq) hnone (Nat.zero_le _)
    ht.apart fun j hj => ht.others hj
  · intro _
    rw [ht.self]
    exact ht.collects.identity
  · have hin := receiveFragment_inbound hsound (y.fragment hop i)
    have htake : (t.receiveFragment (y.fragment hop i)).2 = some k := ht.takes
    rw [htake] at hin
    obtain ⟨hstamp, hmoved⟩ := hin.taken_touch
    rw [ht.self] at hstamp
    have hcount := processInboundPacket_touchCounter hsound radios (y.fragment hop i)
    have hle : t.touchCounter
        ≤ (t.processInboundPacket radios (y.fragment hop i)).1.touchCounter := hun
    rw [hcount] at hle
    apply Standing.underway k
    · rw [ht.self]
      exact ht.collects
    · rw [ht.self, hstamp]
      exact UInt32.lt_of_le_of_lt hw.since
        (UInt32.lt_of_le_of_ne hle fun h => hmoved h.symm)
  · rw [List.append_nil]
    exact hw.nodup
  · exact fun v hv => absurd hv List.not_mem_nil

/-- The invariant is kept by a fragment that is the last index of its
message, which is delivered. -/
theorem Weave.last {k : Fin b.maxReassemblies} {s : ReassemblyRecord}
    (hrecv : t₀.receiver = true) (hdvd : b.maxRecentMessages ∣ 2 ^ b.sizeBits)
    (hun : t.Unwrapped ⟨radios, .processInboundPacket (y.fragment hop i)⟩)
    (hnot : y.message.view ∉ delivered)
    (ht : t.Intake t₀.touchCounter past y (y.fragment hop i) k s)
    (hdone : s.isComplete = true)
    (hcomp : t.completion (y.fragment hop i) = some s.identity)
    (heq : t.processInboundPacket radios (y.fragment hop i)
      = ((t.receiveFragment (y.fragment hop i)).1.finish k,
        (t.receiveFragment (y.fragment hop i)).1.dispatch radios s)) :
    (t.processInboundPacket radios (y.fragment hop i)).2 = delivery y.message.view
      ∧ t₀.Weave messages before
        (t.processInboundPacket radios (y.fragment hop i)).1
        (past ++ [y.fragment hop i]) (delivered ++ [y.message.view]) := by
  have hsound := hw.ring.stable.toSound
  have hin := receiveFragment_inbound hsound (y.fragment hop i)
  have hwell := (hin.sound hsound).slot k (by rw [ht.self]; exact ht.collects.used)
  rw [ht.self] at hwell
  have hview := ht.collects.message_eq hwell hdone
  have hdst : s.destination = y.message.destination :=
    congrArg RadioTransportMessageView.destinationNode hview
  have hreceiver : (t.receiveFragment (y.fragment hop i)).1.receiver = true := by
    rw [hin.frame]
    exact hw.receiver_eq.trans hrecv
  rw [heq]
  constructor
  · rw [dispatch_local, if_pos hreceiver, hview]
    · rfl
    · rw [hdst, hin.localNode_eq, hw.localNode_eq]
      exact he.destination y hy
  · have hone : t.completion (y.fragment hop i)
        = ([y.message.view].map RadioTransportMessageView.identity).head? := by
      rw [hcomp, ht.collects.identity]
      rfl
    apply hw.extend he hy hi hdvd hun (congrArg Prod.fst heq) hone (Nat.le_refl 1)
      ht.apart
    · intro j hj
      exact (setSlot_ne _ k {} hj).trans (ht.others hj)
    · intro hu
      unfold finish at hu
      rw [setSlot_self] at hu
      cases hu
    · exact Standing.done (List.mem_append_right _ (List.mem_singleton.mpr rfl))
    · apply List.Nodup.append hw.nodup (List.nodup_singleton _)
      intro v hv hv'
      rw [List.mem_singleton.mp hv'] at hv
      exact hnot hv
    · exact fun v hv => List.mem_singleton.mp hv

/-- A fragment of a message not delivered yet moves that message: on to
underway, or, with its last index, to delivered. -/
theorem Weave.taken (hlocal : t₀.localNode ≠ 0) (hrecv : t₀.receiver = true)
    (hring : b.maxReassemblies ≤ b.maxRecentMessages)
    (hdvd : b.maxRecentMessages ∣ 2 ^ b.sizeBits)
    (hun : t.Unwrapped ⟨radios, .processInboundPacket (y.fragment hop i)⟩)
    (hnew : ¬ t.Remembers y.identity) :
    ∃ new : List RadioTransportMessageView,
      (t.processInboundPacket radios (y.fragment hop i)).2 = new.flatMap delivery
      ∧ t₀.Weave messages before
        (t.processInboundPacket radios (y.fragment hop i)).1
        (past ++ [y.fragment hop i]) (delivered ++ new) := by
  have hsound := hw.ring.stable.toSound
  have hnot : y.message.view ∉ delivered := fun hv =>
    hnew (hw.remembers (Nat.le_trans he.few hring) hv)
  obtain ⟨k, s, ht⟩ := hw.intake hop he hlocal hy hi hnew hnot
  rcases completion_cases hsound radios (y.fragment hop i) with
    ⟨hcomp, -, heq, -⟩ | ⟨k', id, htk, hid, hdone, hcomp, -, -, heq⟩
  · refine ⟨[], congrArg Prod.snd heq, ?_⟩
    have hmore := hw.more he hy hi hdvd hun ht hcomp heq
    rw [heq]
    exact hmore
  · obtain rfl : k = k' := Option.some.inj (ht.takes.symm.trans htk)
    rw [ht.self] at hid hdone heq
    subst hid
    obtain ⟨heff, hnext⟩ := hw.last he hy hi hrecv hdvd hun hnot ht hdone hcomp heq
    exact ⟨[y.message.view], by simpa using heff, hnext⟩

end Next

-- ================================================================ runs

variable [DecidableEq ρ]

/-- Some run of calls from construction ends here, and no call of it
wraps the touch counter. -/
def ReachedUnwrapped (t : RadioTransport b ρ) : Prop :=
  ∃ localNode defaultHopLimit inputs,
    Observed.Along after Unwrapped
        (create localNode defaultHopLimit : RadioTransport b ρ) inputs
      ∧ t = Observed.run after (create localNode defaultHopLimit) inputs

/-- What a run that wraps no counter leaves for the messages to come. -/
theorem ReachedUnwrapped.ready (hr : t.ReachedUnwrapped)
    (hdvd : b.maxRecentMessages ∣ 2 ^ b.sizeBits) :
    t.Touched ∧ ∃ before, t.RingTracks before := by
  obtain ⟨localNode, hop, inputs, hun, rfl⟩ := hr
  constructor
  · have hstart : (create localNode hop : RadioTransport b ρ).Stable
        ∧ (create localNode hop : RadioTransport b ρ).Touched :=
      ⟨stable_of_empty fun _ => rfl, fun j hu => by cases hu⟩
    exact (Observed.invariant_along (C := Unwrapped)
      (P := fun s : RadioTransport b ρ => s.Stable ∧ s.Touched)
      (fun s input hc hs => ⟨hs.1.after input, hs.2.after hs.1 hc⟩) hstart hun).2
  · have hring : (Observed.run after (create localNode hop : RadioTransport b ρ)
        inputs).RingTracks ([] ++ Observed.trace after completions
          (create localNode hop : RadioTransport b ρ) inputs) :=
      Observed.history_run (R := fun (s : RadioTransport b ρ) h => s.RingTracks h)
        (fun s h input hs => hs.after fun _ => Or.inl hdvd)
        (ringTracks_create localNode hop) inputs
    exact ⟨_, hring⟩

/-- A counter that starts low enough does not wrap. -/
theorem arrivals_unwrapped (hs : t.Stable) (radios : Nat → Radios ρ)
    (packets : List (List UInt8))
    (hlow : t.touchCounter.toNat + 2 * packets.length < 2 ^ 32) :
    Observed.Along after Unwrapped t (arrivals radios packets)
      ∧ (Observed.run after t (arrivals radios packets)).Stable
      ∧ (Observed.run after t (arrivals radios packets)).touchCounter.toNat
        ≤ t.touchCounter.toNat + 2 * packets.length := by
  induction packets using List.reverseRecOn with
  | nil => exact ⟨trivial, hs, Nat.le_refl _⟩
  | append_singleton packets packet ih =>
      rw [List.length_append, List.length_singleton] at hlow ⊢
      obtain ⟨halong, hstable, hle⟩ := ih (by omega)
      rw [arrivals_concat, Observed.run_append, Observed.along_append]
      generalize Observed.run after t (arrivals radios packets) = s at hstable hle ⊢
      obtain ⟨k, hk, hadd⟩ := processInboundPacket_advance hstable.toSound
        (radios packets.length) packet
      have hnat : (s.after ⟨radios packets.length,
          .processInboundPacket packet⟩).touchCounter.toNat
          = s.touchCounter.toNat + k.toNat := by
        have hk' : k.toNat ≤ 2 := UInt32.le_iff_toNat_le.mp hk
        rw [show (s.after ⟨radios packets.length,
          .processInboundPacket packet⟩).touchCounter = _ from hadd, UInt32.toNat_add]
        exact Nat.mod_eq_of_lt (by omega)
      have hk' : k.toNat ≤ 2 := UInt32.le_iff_toNat_le.mp hk
      refine ⟨⟨halong, UInt32.le_iff_toNat_le.mpr ?_, trivial⟩, hstable.after _, ?_⟩
      · omega
      · exact Nat.le_trans (Nat.le_of_eq hnat) (by omega)

section Run

variable (he : t₀.Expects messages)

include he

/-- Fragments of the messages coming in: everything visible outside is
deliveries, and the weave holds. -/
theorem Weave.run (hring : b.maxReassemblies ≤ b.maxRecentMessages)
    (hdvd : b.maxRecentMessages ∣ 2 ^ b.sizeBits) (hlocal : t₀.localNode ≠ 0)
    (hrecv : t₀.receiver = true) (hw : t₀.Weave messages before t₀ [] [])
    {radios : Nat → Radios ρ} {packets : List (List UInt8)}
    (hfrom : ∀ packet ∈ packets, ∃ x ∈ messages, ∃ hop, ∃ i < x.count,
      packet = x.fragment hop i)
    (hun : Observed.Along after Unwrapped t₀ (arrivals radios packets)) :
    ∃ delivered : List RadioTransportMessageView,
      Observed.trace after effects t₀ (arrivals radios packets)
        = delivered.flatMap delivery
      ∧ t₀.Weave messages before
        (Observed.run after t₀ (arrivals radios packets)) packets delivered := by
  induction packets using List.reverseRecOn with
  | nil => exact ⟨[], rfl, hw⟩
  | append_singleton packets packet ih =>
      rw [arrivals_concat, Observed.along_append] at hun
      obtain ⟨hunFirst, hunLast, -⟩ := hun
      obtain ⟨delivered, htrace, hweave⟩ :=
        ih (fun p hp => hfrom p (List.mem_append_left _ hp)) hunFirst
      obtain ⟨y, hy, hop, i, hi, rfl⟩ :=
        hfrom packet (List.mem_append_right _ (List.mem_singleton.mpr rfl))
      rw [arrivals_concat, Observed.trace_append, Observed.run_append, htrace]
      generalize Observed.run after t₀ (arrivals radios packets) = s at hweave hunLast ⊢
      by_cases hknown : s.Remembers y.identity
      · -- delivered before, so the ring drops it
        obtain ⟨heq, hnext⟩ :=
          hweave.duplicate he hy hi (radios packets.length) hop hknown
        refine ⟨delivered, ?_, ?_⟩
        · show delivered.flatMap delivery
            ++ ((s.processInboundPacket (radios packets.length)
              (y.fragment hop i)).2 ++ []) = _
          rw [heq, List.append_nil, List.append_nil]
        · show t₀.Weave messages before (s.processInboundPacket
            (radios packets.length) (y.fragment hop i)).1 _ _
          rw [heq]
          exact hnext
      · -- not delivered yet: it is taken in
        obtain ⟨new, heff, hnext⟩ :=
          hweave.taken he hy hi hlocal hrecv hring hdvd hunLast hknown
        refine ⟨delivered ++ new, ?_, hnext⟩
        show delivered.flatMap delivery
          ++ ((s.processInboundPacket (radios packets.length)
            (y.fragment hop i)).2 ++ []) = _
        rw [heff, List.append_nil, List.flatMap_append]

omit [DecidableEq ρ] in
/-- With every fragment in, every message has been delivered, once. -/
theorem Weave.complete (hw : t₀.Weave messages before t past delivered)
    (hall : ∀ x ∈ messages, ∀ i < x.count, x.Seen past i) :
    delivered.Perm (messages.map fun x => x.message.view) := by
  have hviews : (messages.map fun x => x.message.view).Nodup := by
    apply List.Nodup.of_map RadioTransportMessageView.identity
    rw [List.map_map]
    exact he.distinct
  rw [List.perm_ext_iff_of_nodup hw.nodup hviews]
  refine fun v => ⟨hw.ours v, fun hv => ?_⟩
  obtain ⟨x, hx, rfl⟩ := List.mem_map.mp hv
  have hstable := hw.ring.stable
  cases hw.standing x hx with
  | waiting hnone hunknown =>
      exact absurd (hall x hx 0 (chunkCount_pos (he.sends x hx).chunk_pos)) (hnone 0)
  | underway j hc htouch =>
      have hpart := hstable.incomplete j hc.used
      rw [(hc.isComplete_iff (hstable.slot j hc.used)).mpr (hall x hx)] at hpart
      cases hpart
  | done hd => exact hd

end Run

/-- Up to four messages in a build with the default bounds: whatever the
order of their fragments, however they are mixed and however often each
comes in, the receiver gets every message once and whole, and nothing
else happens outside. -/
theorem interleaved_delivered {sizeBits : Nat} {hbits : 16 ≤ sizeBits}
    {t : RadioTransport (.onTarget sizeBits hbits) ρ} (hreach : t.ReachedUnwrapped)
    (hlocal : t.localNode ≠ 0) (hreceiver : t.receiver = true)
    {messages : List Cut} (he : t.Expects messages) {radios : Nat → Radios ρ}
    {packets : List (List UInt8)}
    (hfrom : ∀ packet ∈ packets, ∃ x ∈ messages, ∃ hop, ∃ i < x.count,
      packet = x.fragment hop i)
    (hall : ∀ x ∈ messages, ∀ i < x.count, ∃ hop, x.fragment hop i ∈ packets)
    (hun : Observed.Along after Unwrapped t (arrivals radios packets)) :
    ∃ order : List RadioTransportMessageView,
      order.Perm (messages.map fun x => x.message.view)
      ∧ Observed.trace after effects t (arrivals radios packets)
        = order.flatMap fun message =>
          [.receiverMessage message, .messageReceived message] := by
  have hdvd : (Bounds.onTarget sizeBits hbits).maxRecentMessages
      ∣ 2 ^ (Bounds.onTarget sizeBits hbits).sizeBits :=
    pow_dvd_pow 2 (show 5 ≤ sizeBits by omega)
  obtain ⟨htouched, before, hring⟩ := hreach.ready hdvd
  obtain ⟨order, htrace, hweave⟩ := Weave.run he (show 4 ≤ 32 by decide) hdvd hlocal
    hreceiver (weave_start hring htouched he) hfrom hun
  exact ⟨order, hweave.complete he fun x hx i hi => ⟨hi, hall x hx i hi⟩, htrace⟩

/-- Node 2, freshly built, with a receiver. -/
def mixedNode : RadioTransport (.onTarget 32 Bounds.defaults.sizeBits_ge) Unit :=
  (create 2 4).after ⟨openRadios, .setReceiver true⟩

/-- Node 1's message of two bytes, cut into two fragments. -/
def mixedFirst : Cut where
  message :=
    { source := 1, destination := 2, channel := 7, messageId := 1, hopLimit := 4
      payload := [0xA1, 0xA2] }
  chunk := 1

/-- Node 1's message of no bytes, in one fragment. -/
def mixedSecond : Cut where
  message :=
    { source := 1, destination := 2, channel := 7, messageId := 2, hopLimit := 4
      payload := [] }
  chunk := 5

/-- The fragments of the two messages, mixed: the first message's last one
comes first, and once more at the end. -/
def mixedPackets : List (List UInt8) :=
  [mixedFirst.fragment 4 1, mixedSecond.fragment 0 0, mixedFirst.fragment 3 0,
    mixedFirst.fragment 4 1]

theorem mixed_mem {x : Cut} (hx : x ∈ [mixedFirst, mixedSecond]) :
    x = mixedFirst ∨ x = mixedSecond := by
  simpa using hx

theorem mixedNode_expects : mixedNode.Expects [mixedFirst, mixedSecond] where
  few := by decide
  distinct := by decide
  sends := fun x hx => by
    rcases mixed_mem hx with rfl | rfl
    · exact ⟨by decide, by decide, by decide⟩
    · exact ⟨by decide, by decide, by decide⟩
  size_le := fun x hx => by rcases mixed_mem hx with rfl | rfl <;> decide
  source_ne := fun x hx => by rcases mixed_mem hx with rfl | rfl <;> decide
  source_ne_local := fun x hx => by rcases mixed_mem hx with rfl | rfl <;> decide
  destination := fun x hx => by
    rcases mixed_mem hx with rfl | rfl <;> exact Or.inl rfl
  unknown := by
    rintro x - (⟨j, hu, -⟩ | ⟨j, hu, -⟩)
    · cases hu
    · cases hu

/-- The fragments of both messages come in mixed, out of order and some of
them twice: both messages are delivered, in one order or the other. -/
theorem mixed_delivered :
    ∃ order : List RadioTransportMessageView,
      order.Perm [mixedFirst.message.view, mixedSecond.message.view]
      ∧ Observed.trace after effects mixedNode
          (arrivals (fun _ => openRadios) mixedPackets)
        = order.flatMap fun message =>
          [.receiverMessage message, .messageReceived message] := by
  apply interleaved_delivered
    ⟨2, 4, [⟨openRadios, .setReceiver true⟩], ⟨UInt32.le_refl _, trivial⟩, rfl⟩
    (by decide) rfl mixedNode_expects
  · intro packet hp
    simp only [mixedPackets, List.mem_cons, List.not_mem_nil, or_false] at hp
    rcases hp with rfl | rfl | rfl | rfl
    · exact ⟨_, List.mem_cons_self, 4, 1, by decide, rfl⟩
    · exact ⟨mixedSecond, by simp, 0, 0, by decide, rfl⟩
    · exact ⟨_, List.mem_cons_self, 3, 0, by decide, rfl⟩
    · exact ⟨_, List.mem_cons_self, 4, 1, by decide, rfl⟩
  · intro x hx i hi
    rcases mixed_mem hx with rfl | rfl
    · match i, hi with
      | 0, _ => exact ⟨3, by simp [mixedPackets]⟩
      | 1, _ => exact ⟨4, by simp [mixedPackets]⟩
    · match i, hi with
      | 0, _ => exact ⟨0, by simp [mixedPackets]⟩
  · exact (arrivals_unwrapped (stable_of_empty fun _ => rfl) _ _ (by decide)).1

end RadioTransport

end EspressioRadio
