/-
Duplicate suppression over whole runs.

`completions` observes a run: the identities `Complete` gets past its
check of the ring, in order. The ring is the last of them
(`RingTracks`), so no identity completes twice within a window of
`maxRecentMessages + 1` completions (`completions_distinct`), whatever
the packets are.

The one proviso is the ring's cursor. It runs freely and is reduced
modulo the ring's size at each use; when it wraps at the end of
`std::size_t`'s range and the size does not divide that range, the next
write lands on the wrong entry. `RingExact` excludes that step. The
default size, 32, divides every range (`default_ringExact`); with three
entries the run of `wrapped_ring_repeats` completes one message twice
within four.
-/
import EspressioRadio.Lib.Ring
import EspressioRadio.Proofs.Arrival

namespace EspressioRadio

open Chunks

variable {b : Bounds} {ρ : Type}

def RadioTransportMessageView.identity (m : RadioTransportMessageView) :
    MessageIdentity where
  source := m.sourceNode
  destination := m.destinationNode
  channel := m.channel
  messageId := m.messageId

/-- The messages handed to the receiver or passed on. -/
def handledIdentities (events : List (Event ρ)) : List MessageIdentity :=
  events.filterMap fun
    | .receiverMessage message => some message.identity
    | .messageForwarded message _ => some message.identity
    | _ => none

/-- An entry of the ring, as the library has it. -/
def RecentMessageRecord.cell (r : RecentMessageRecord) : Option MessageIdentity :=
  if r.used then some r.identity else none

namespace RadioTransport

-- ========================================================== completions

/-- The message the packet completes, if it gets past the ring. -/
def completion (t : RadioTransport b ρ) (packet : List UInt8) :
    Option MessageIdentity :=
  match t.receiveFragment packet with
  | (_, none) => none
  | (t, some i) =>
      let identity := (t.reassemblies i).identity
      if (t.reassemblies i).isComplete && !t.isRecent identity.header then
        some identity
      else none

/-- The identities of the messages one call completes: at most one. -/
def completions (t : RadioTransport b ρ) (input : Input ρ) : List MessageIdentity :=
  match input.call with
  | .processInboundPacket packet => (t.completion packet).toList
  | _ => []

/-- The recent messages and their cursor as a ring of the library's. -/
def ring (t : RadioTransport b ρ) :
    Ring.Cells b.maxRecentMessages MessageIdentity where
  cell := fun i => (t.recent i).cell
  cursor := t.recentCursor

variable {t : RadioTransport b ρ}

theorem ring_has_iff {id : MessageIdentity} : t.ring.Has id ↔ t.Remembers id := by
  unfold Ring.Cells.Has Remembers ring
  refine exists_congr fun i => ?_
  dsimp only [RecentMessageRecord.cell]
  split
  · next hu => simp [hu]
  · next hu => simp [hu]

/-- `Remember` is a push of the header's identity, with a cursor that wraps
as `std::size_t` does. -/
theorem ring_remember (t : RadioTransport b ρ) (h : WireHeader) :
    (t.remember h).ring = t.ring.push (2 ^ b.sizeBits) h.identity := by
  unfold ring Ring.Cells.push remember
  congr 1
  funext i
  dsimp only
  by_cases hi : i = Fin.ofNat b.maxRecentMessages t.recentCursor
  · subst hi
    rw [Function.update_self, Function.update_self]
    rfl
  · rw [Function.update_of_ne hi, Function.update_of_ne hi]

/-- The ring depends on the recent messages and their cursor alone. -/
theorem ring_congr {t' : RadioTransport b ρ} (hr : t'.recent = t.recent)
    (hc : t'.recentCursor = t.recentCursor) : t'.ring = t.ring := by
  unfold ring
  rw [hr, hc]

/-- What a packet does to the ring, and what it completes. -/
theorem completion_cases (hs : t.Sound) (radios : Radios ρ) (packet : List UInt8) :
    (t.completion packet = none
        ∧ (t.processInboundPacket radios packet).1.ring = t.ring
        ∧ t.processInboundPacket radios packet = ((t.receiveFragment packet).1, [])
        ∧ ∀ i, t.takes packet = some i →
          ((t.receiveFragment packet).1.reassemblies i).isComplete = false)
      ∨ ∃ i id, t.takes packet = some i
        ∧ ((t.receiveFragment packet).1.reassemblies i).identity = id
        ∧ ((t.receiveFragment packet).1.reassemblies i).isComplete = true
        ∧ t.completion packet = some id ∧ ¬ t.Remembers id
        ∧ (t.processInboundPacket radios packet).1.ring
          = t.ring.push (2 ^ b.sizeBits) id
        ∧ t.processInboundPacket radios packet
          = ((t.receiveFragment packet).1.finish i,
            (t.receiveFragment packet).1.dispatch radios
              ((t.receiveFragment packet).1.reassemblies i)) := by
  have hin := receiveFragment_inbound hs packet
  have hcases := processInboundPacket_cases hs radios packet
  unfold takes at hcases ⊢
  unfold completion
  generalize t.receiveFragment packet = r at hin hcases ⊢
  obtain ⟨t₁, taken⟩ := r
  dsimp only at hin hcases ⊢
  have hring : t₁.ring = t.ring :=
    ring_congr hin.recent_eq (by rw [hin.frame])
  rcases hcases with ⟨heq, hpart⟩ | ⟨i, rfl, hdone, heq⟩
  · left
    refine ⟨?_, by rw [heq]; exact hring, heq, hpart⟩
    cases taken with
    | none => rfl
    | some i =>
        dsimp only
        rw [hpart i rfl]
        rfl
  · right
    -- the second look at the ring, in `Complete`, finds nothing
    have hfresh := (hin.sound hs).not_recent i hin.taken_used
    refine ⟨i, _, rfl, rfl, hdone, ?_, ?_, ?_, heq⟩
    · dsimp only
      rw [hdone, isRecent_eq_false_iff.mpr hfresh]
      rfl
    · rw [← ring_has_iff, ← hring, ring_has_iff]
      exact hfresh
    · rw [heq, ← hring]
      exact ring_remember t₁ (t₁.reassemblies i).identity.header

/-- Of a completed message at most one thing becomes: it is handed over, or
forwarded. -/
theorem handled_dispatch (radios : Radios ρ) (slot : ReassemblyRecord) :
    (handledIdentities (t.dispatch radios slot)).Sublist [slot.identity] := by
  have hsends : ∀ calls : List (SendCall ρ),
      handledIdentities (calls.map .radioSend) = [] := fun calls => by
    unfold handledIdentities
    rw [List.filterMap_map]
    exact List.filterMap_eq_nil_iff.mpr fun _ _ => rfl
  by_cases hd : slot.destination = t.localNode ∨ slot.destination = broadcastNode
  · rw [dispatch_local hd]
    split
    · exact List.Sublist.refl _
    · exact List.nil_sublist _
  · by_cases hh : slot.hopLimit > 0
    · rw [dispatch_forward hd hh]
      unfold handledIdentities at hsends ⊢
      rw [List.filterMap_append, hsends]
      exact List.Sublist.refl _
    · rw [dispatch_exhausted hd hh]
      exact List.nil_sublist _

/-- With no slot in use, a message of one fragment completes at once,
unless it is remembered. -/
theorem single_completes {m : Outbound} {c : Nat} (radios : Radios ρ)
    (ha : t.Admits m c) (hone : chunkCount m.payload.length c = 1)
    (hrecent : ¬ t.Remembers m.identity) (hfree : ∀ i, t.reassemblies i = {}) :
    t.completion (frame m c 0) = some m.identity
      ∧ (∀ i, (t.processInboundPacket radios (frame m c 0)).1.reassemblies i = {})
      ∧ (t.processInboundPacket radios (frame m c 0)).1.ring
        = t.ring.push (2 ^ b.sizeBits) m.identity := by
  have hs := (stable_of_empty hfree).toSound
  have hpos : 0 < chunkCount m.payload.length c := by omega
  obtain ⟨hid, -, -, hcount, hchunk, -⟩ := frameHeader_spec ha.sendable hpos
  have hopen := receiveFragment_opened hs
    (frame_fragmentOf ha.sendable hpos).decodes
    (ha.refuses_eq rfl hid hrecent) (fun j => by rw [hfree j]; rfl)
    (by rw [hcount, hchunk]; exact ha.size_le)
  have hcol : ((t.receiveFragment (frame m c 0)).1.reassemblies
      t.victim).Collects m c fun i => i = 0 := by
    rw [hopen]
    dsimp only
    rw [setSlot_self]
    exact firstStore_collects ha.sendable hpos ha.size_le
  have hw := ((receiveFragment_inbound hs (frame m c 0)).sound hs).slot
    t.victim hcol.used
  have hdone := (hcol.isComplete_iff hw).mpr fun i hi => by omega
  have htake : t.takes (frame m c 0) = some t.victim := by
    unfold takes
    rw [hopen]
  rcases completion_cases hs radios (frame m c 0) with
    ⟨-, -, -, hpart⟩ | ⟨i, id, hi, hsid, -, hcomp, -, hring, heq⟩
  · rw [hpart t.victim htake] at hdone
    cases hdone
  · rw [htake] at hi
    obtain rfl := Option.some.inj hi
    obtain rfl : id = m.identity := hsid.symm.trans hcol.identity
    refine ⟨hcomp, fun j => ?_, hring⟩
    rw [heq, hopen]
    by_cases hj : j = t.victim
    · subst hj
      exact setSlot_self ..
    · exact (setSlot_ne _ _ _ hj).trans ((setSlot_ne _ _ _ hj).trans (hfree j))

variable [DecidableEq ρ]

/-- A call that brings in no packet completes nothing and leaves the ring
alone. -/
theorem quiet_ring {input : Input ρ}
    (hnot : ∀ packet, input.call ≠ .processInboundPacket packet) :
    t.completions input = [] ∧ (t.after input).ring = t.ring := by
  obtain ⟨hr, hc, -⟩ := after_tables t input hnot
  refine ⟨?_, ring_congr hr hc⟩
  unfold completions
  split
  · next packet heq => exact absurd heq (hnot packet)
  · rfl

/-- Whatever a call hands to the receiver or forwards, it completed. -/
theorem handled_sublist (hs : t.Stable) (input : Input ρ) :
    (handledIdentities (t.effects input)).Sublist (t.completions input) := by
  by_cases hin : ∃ packet, input.call = .processInboundPacket packet
  · obtain ⟨packet, hcall⟩ := hin
    unfold effects perform completions
    rw [hcall]
    dsimp only
    rcases completion_cases hs.toSound input.radios packet with
      ⟨-, -, heq, -⟩ | ⟨i, id, -, rfl, -, hsome, -, -, heq⟩
    · rw [heq]
      exact List.nil_sublist _
    · rw [heq, hsome]
      exact handled_dispatch input.radios _
  · have hnone : handledIdentities (t.effects input) = [] :=
      List.filterMap_eq_nil_iff.mpr fun e he => by
        have hno := effects_ofCompletion
          (fun packet hcall => hin ⟨packet, hcall⟩) e he
        cases e with
        | receiverMessage message => cases hno
        | messageForwarded message result => cases hno
        | _ => rfl
    rw [hnone]
    exact List.nil_sublist _

-- ============================================================ whole runs

/-- The step does not wrap the ring's cursor, or wrapping does no
harm. -/
def RingExact (t : RadioTransport b ρ) (input : Input ρ) : Prop :=
  t.completions input ≠ [] →
    b.maxRecentMessages ∣ 2 ^ b.sizeBits ∨ t.recentCursor + 1 < 2 ^ b.sizeBits

/-- The ring is what these completions have made of it, of which no two
equal ones are closer than it is long. -/
structure RingTracks (t : RadioTransport b ρ) (h : List MessageIdentity) :
    Prop where
  stable : t.Stable
  tracks : t.ring.Tracks (2 ^ b.sizeBits) h
  spaced : Ring.Spaced b.maxRecentMessages h
  exact : b.maxRecentMessages ∣ 2 ^ b.sizeBits ∨ h.length < 2 ^ b.sizeBits

omit [DecidableEq ρ] in
theorem ringTracks_create (localNode : RadioNodeId) (hop : UInt8) :
    (create localNode hop : RadioTransport b ρ).RingTracks [] where
  stable := stable_of_empty fun _ => rfl
  tracks := Ring.Cells.tracks_nil rfl fun _ => rfl
  spaced := Ring.spaced_nil _
  exact := Or.inr (Nat.pow_pos (by decide))

/-- One call adds what it completes to the completions so far. -/
theorem RingTracks.after {h : List MessageIdentity} (ht : t.RingTracks h)
    {input : Input ρ} (hexact : t.RingExact input) :
    (t.after input).RingTracks (h ++ t.completions input) := by
  have hquiet : t.completions input = [] → (t.after input).ring = t.ring →
      (t.after input).RingTracks (h ++ t.completions input) := by
    intro hnone hring
    rw [hnone, List.append_nil]
    exact ⟨ht.stable.after input, by rw [hring]; exact ht.tracks, ht.spaced,
      ht.exact⟩
  by_cases hin : ∃ packet, input.call = .processInboundPacket packet
  · obtain ⟨packet, hcall⟩ := hin
    have hafter : t.after input = (t.processInboundPacket input.radios packet).1 := by
      unfold RadioTransport.after perform
      rw [hcall]
    have hcomp : t.completions input = (t.completion packet).toList := by
      unfold completions
      rw [hcall]
    rcases completion_cases ht.stable.toSound input.radios packet with
      ⟨hnone, hring, -⟩ | ⟨i, id, -, -, -, hsome, hnew, hring, -⟩
    · exact hquiet (by rw [hcomp, hnone]; rfl) (by rw [hafter, hring])
    · have hone : t.completions input = [id] := by
        rw [hcomp, hsome]
        rfl
      have hwrap := hexact (by rw [hone]; exact List.cons_ne_nil _ _)
      rw [hone]
      refine ⟨ht.stable.after input, ?_, ?_, ?_⟩
      · rw [hafter, hring]
        exact ht.tracks.push ht.exact id
      · -- a completion is of a message the ring does not hold
        exact ht.spaced.push ht.tracks fun hhas => hnew (ring_has_iff.mp hhas)
      · -- short of a wrap the cursor is the count
        rcases ht.exact with hdvd | hlt
        · exact Or.inl hdvd
        · refine hwrap.imp_right fun hcur => ?_
          have heq : t.recentCursor = h.length % 2 ^ b.sizeBits :=
            ht.tracks.cursor_eq
          rw [Nat.mod_eq_of_lt hlt] at heq
          rw [List.length_append, List.length_singleton]
          omega
  · obtain ⟨hnone, hring⟩ := quiet_ring fun packet hcall => hin ⟨packet, hcall⟩
    exact hquiet hnone hring

/-- A run of exact calls adds what it completes to the completions so far. -/
theorem RingTracks.run {h : List MessageIdentity} (ht : t.RingTracks h)
    {inputs : List (Input ρ)}
    (hexact : Observed.Along RadioTransport.after RingExact t inputs) :
    (Observed.run RadioTransport.after t inputs).RingTracks
      (h ++ Observed.trace RadioTransport.after completions t inputs) :=
  Observed.history_along (R := fun (s : RadioTransport b ρ) h => s.RingTracks h)
    (C := RingExact) (fun _ _ _ hc hs => hs.after hc) ht hexact

/-- Along a run whose completing steps do not wrap the cursor past a
ring it does not fit, any `maxRecentMessages + 1` consecutive completions
are of different messages; and whatever is delivered or forwarded was
completed then. -/
theorem completions_distinct {localNode : RadioNodeId} {hop : UInt8}
    {inputs : List (Input ρ)}
    (hexact : Observed.Along after RingExact
      (create localNode hop : RadioTransport b ρ) inputs) :
    (∀ k, (((Observed.trace after completions
          (create localNode hop : RadioTransport b ρ) inputs).drop k).take
        (b.maxRecentMessages + 1)).Nodup)
      ∧ (Observed.trace after (fun t input => handledIdentities (t.effects input))
          (create localNode hop : RadioTransport b ρ) inputs).Sublist
        (Observed.trace after completions
          (create localNode hop : RadioTransport b ρ) inputs) := by
  have hrun := (ringTracks_create localNode hop).run hexact
  rw [List.nil_append] at hrun
  exact ⟨hrun.spaced.nodup_window,
    Observed.trace_sublist (P := fun s : RadioTransport b ρ => s.Stable)
      (fun s i hs => hs.after i) (fun s i hs => handled_sublist hs i)
      (stable_of_empty fun _ => rfl) inputs⟩

omit [DecidableEq ρ] in
/-- A ring whose size divides the cursor's range is always exact, so the
default ring is. -/
theorem default_ringExact (t : RadioTransport .defaults ρ) (input : Input ρ) :
    t.RingExact input := fun _ => Or.inl ⟨2 ^ 27, by decide⟩

/-- The message number `k`, empty, from node 5 to node 2. -/
def tickMessage (k : Nat) : Outbound :=
  { source := 5, destination := 2, channel := 0, messageId := UInt16.ofNat k
    hopLimit := 0, payload := [] }

/-- The one fragment of the message numbered `k` coming in. -/
def tick (k : Nat) : Input Unit :=
  ⟨openRadios, .processInboundPacket (frame (tickMessage k) 1 0)⟩

/-- Messages 1 and 2, then 1 again, 3, and 2 and 1 again. -/
def repeating : List (Input Unit) :=
  ⟨openRadios, .setReceiver true⟩ :: [1, 2, 1, 3, 2, 1].map tick

/-- In a default build every run qualifies. In this one each message is
completed and handled once, and its repeats are suppressed. -/
theorem repeating_completions_distinct :
    Observed.trace after completions (create 2 4 : RadioTransport .defaults Unit) repeating
        = [⟨5, 2, 0, 1⟩, ⟨5, 2, 0, 2⟩, ⟨5, 2, 0, 3⟩]
      ∧ Observed.trace after (fun t input => handledIdentities (t.effects input))
          (create 2 4 : RadioTransport .defaults Unit) repeating
        = [⟨5, 2, 0, 1⟩, ⟨5, 2, 0, 2⟩, ⟨5, 2, 0, 3⟩]
      ∧ (∀ k, (((Observed.trace after completions
            (create 2 4 : RadioTransport .defaults Unit) repeating).drop k).take 33).Nodup)
      ∧ (Observed.trace after (fun t input => handledIdentities (t.effects input))
          (create 2 4 : RadioTransport .defaults Unit) repeating).Sublist
        (Observed.trace after completions
          (create 2 4 : RadioTransport .defaults Unit) repeating) :=
  ⟨by decide +kernel, by decide +kernel,
    completions_distinct (Observed.along_imp (fun t input _ => default_ringExact t input)
      (Observed.along_of_forall (C := fun _ => True) (fun _ _ => trivial) _))⟩

-- ================================================== past the cursor's range

/-- A ring of three on a 32-bit target. -/
abbrev threeRecent : Bounds :=
  { Bounds.defaults with maxRecentMessages := 3, recent_pos := by decide }

theorem tickMessage_count (k : Nat) :
    chunkCount (tickMessage k).payload.length 1 = 1 := rfl

theorem tickMessage_admits {t : RadioTransport threeRecent Unit}
    (hlocal : t.localNode = 2) (k : Nat) : t.Admits (tickMessage k) 1 where
  sendable := ⟨Nat.one_pos, by decide, by rw [tickMessage_count]; decide⟩
  size_le := by rw [tickMessage_count]; decide
  source_ne := show (5 : UInt16) ≠ 0 by decide
  source_ne_local := by rw [hlocal]; exact (show (5 : UInt16) ≠ 2 by decide)
  destination_ne := show (2 : UInt16) ≠ 0 by decide

theorem tickMessage_identity_inj {i j : Nat} (hi : i < 65536) (hj : j < 65536)
    (h : (tickMessage i).identity = (tickMessage j).identity) : i = j := by
  have hid : UInt16.ofNat i = UInt16.ofNat j := congrArg MessageIdentity.messageId h
  rw [← UInt16.toNat_inj, UInt16.toNat_ofNat', UInt16.toNat_ofNat',
    Nat.mod_eq_of_lt hi, Nat.mod_eq_of_lt hj] at hid
  exact hid

/-- A message the ring does not hold is completed and pushed, up to the
wrap and through it. -/
theorem tick_completes {t : RadioTransport threeRecent Unit}
    (hfree : ∀ i, t.reassemblies i = {}) (hlocal : t.localNode = 2) {k : Nat}
    (hnew : ¬ t.ring.Has (tickMessage k).identity) :
    t.completions (tick k) = [(tickMessage k).identity]
      ∧ (∀ i, (t.after (tick k)).reassemblies i = {})
      ∧ (t.after (tick k)).localNode = 2
      ∧ (t.after (tick k)).ring
        = t.ring.push (2 ^ 32) (tickMessage k).identity := by
  obtain ⟨hcomp, hslots, hring⟩ := single_completes openRadios
    (tickMessage_admits hlocal k) (tickMessage_count k)
    (fun hr => hnew (ring_has_iff.mpr hr)) hfree
  have hafter : t.after (tick k)
      = (t.processInboundPacket openRadios (frame (tickMessage k) 1 0)).1 := rfl
  have hnode := (processInboundPacket_frame t openRadios
    (frame (tickMessage k) 1 0)).1
  rw [hafter]
  refine ⟨?_, hslots, hnode.trans hlocal, hring⟩
  show (t.completion (frame (tickMessage k) 1 0)).toList = _
  rw [hcomp]
  rfl

/-- A fresh node 2 whose ring has three places. -/
def ticker : RadioTransport threeRecent Unit := create 2 4

/-- The messages numbered 0 to 3 come in, in turn. -/
def turns (n : Nat) : List (Input Unit) := (List.range n).map fun k => tick (k % 4)

/-- The identities of the messages as their turns come. -/
def turnIds (n : Nat) : List MessageIdentity :=
  (List.range n).map fun k => (tickMessage (k % 4)).identity

theorem turnIds_getElem? {n j k : Nat} (hk : k < 4)
    (h : (turnIds n)[j]? = some (tickMessage k).identity) : j < n ∧ j % 4 = k := by
  obtain ⟨hj, heq⟩ := List.getElem?_eq_some_iff.mp h
  simp only [turnIds, List.length_map, List.length_range] at hj
  simp only [turnIds, List.getElem_map, List.getElem_range] at heq
  exact ⟨hj, tickMessage_identity_inj (by omega) (by omega) heq⟩

/-- Until the cursor wraps, each completes when its turn comes: the three
before it have other numbers. -/
theorem turns_tracks {n : Nat} (hn : n ≤ 2 ^ 32) :
    (∀ i, (Observed.run after ticker (turns n)).reassemblies i = {})
      ∧ (Observed.run after ticker (turns n)).localNode = 2
      ∧ (Observed.run after ticker (turns n)).ring.Tracks (2 ^ 32) (turnIds n)
      ∧ Observed.trace after completions ticker (turns n) = turnIds n := by
  induction n with
  | zero =>
      exact ⟨fun _ => rfl, rfl, Ring.Cells.tracks_nil rfl fun _ => rfl, rfl⟩
  | succ n ih =>
      obtain ⟨hfree, hlocal, htracks, htrace⟩ := ih (by omega)
      have hturns : turns (n + 1) = turns n ++ [tick (n % 4)] := by
        unfold turns
        rw [List.range_succ, List.map_append]
        rfl
      have hids : turnIds (n + 1)
          = turnIds n ++ [(tickMessage (n % 4)).identity] := by
        unfold turnIds
        rw [List.range_succ, List.map_append]
        rfl
      have hlen : (turnIds n).length = n := by simp [turnIds]
      rw [hturns, hids, Observed.run_append, Observed.trace_append, htrace]
      generalize Observed.run after ticker (turns n) = s at hfree hlocal htracks ⊢
      have hnew : ¬ s.ring.Has (tickMessage (n % 4)).identity := by
        rw [htracks.has_iff]
        rintro ⟨j, hj, hget⟩
        have hj' : n ≤ j + 3 := hlen ▸ hj
        have := turnIds_getElem? (by omega) hget
        omega
      obtain ⟨hcomp, hfree', hlocal', hring⟩ := tick_completes hfree hlocal hnew
      rw [Observed.run_cons, Observed.run_nil, Observed.trace_cons,
        Observed.trace_nil, hcomp, List.append_nil]
      refine ⟨hfree', hlocal', ?_, rfl⟩
      rw [hring]
      exact htracks.push (Or.inr (by omega)) _

/-- The run: as many turns as the cursor has values, then message 0 and
message 3 again. -/
def wrapRun : List (Input Unit) := turns (2 ^ 32) ++ [tick 0, tick 3]

/-- The run's last completions are 2, 3, 0 and 3 once more: the cursor had
wrapped to cell 0, which was the latest entry's, not the oldest's. -/
theorem wrapped_ring_repeats :
    ¬ ∀ k, (((Observed.trace after completions ticker wrapRun).drop k).take
      (threeRecent.maxRecentMessages + 1)).Nodup := by
  unfold wrapRun
  generalize hN : 2 ^ 32 = N
  intro hall
  obtain ⟨hfree, hlocal, htracks, htrace⟩ := turns_tracks (Nat.le_of_eq hN.symm)
  rw [hN] at htracks
  rw [Observed.trace_append, htrace] at hall
  generalize Observed.run after ticker (turns N) = s at hfree hlocal htracks hall
  have hlen : (turnIds N).length = N := by
    rw [turnIds, List.length_map, List.length_range]
  have hcursor : s.ring.cursor = 0 := by
    rw [htracks.cursor_eq, hlen, Nat.mod_self]
  have hnew0 : ¬ s.ring.Has (tickMessage 0).identity := by
    rw [htracks.has_iff]
    rintro ⟨j, hj, hget⟩
    have hj' : N ≤ j + 3 := hlen ▸ hj
    have := turnIds_getElem? (by omega) hget
    omega
  obtain ⟨hcomp0, hfree0, hlocal0, hring0⟩ := tick_completes hfree hlocal hnew0
  have hnew3 : ¬ (s.after (tick 0)).ring.Has (tickMessage 3).identity := by
    rw [hring0]
    intro hhas
    rcases Ring.Cells.has_push hhas with heq | ⟨i, hi, hhas'⟩
    · have := tickMessage_identity_inj (by decide) (by decide) heq
      omega
    · obtain ⟨j, hj, hij, hget⟩ := htracks.cell_mem i _ hhas'
      have hj' : N ≤ j + 3 := hlen ▸ hj
      have := turnIds_getElem? (by omega) hget
      have hcell : j % 3 = s.ring.cursor % 3 := by
        rw [hcursor]
        omega
      exact hi (hij.trans (Ring.Cells.ofNat_congr hcell))
  have hcomp3 := (tick_completes hfree0 hlocal0 hnew3).1
  rw [Observed.trace_cons, hcomp0, Observed.trace_cons, hcomp3,
    Observed.trace_nil] at hall
  -- the window from the second to last turn on
  have hwin := List.nodup_iff_getElem?_ne_getElem?.mp (hall (N - 2)) 1 3 (by decide)
    (by
      rw [List.length_take, List.length_drop, List.length_append, hlen]
      show 3 < min 4 (N + 2 - (N - 2))
      omega)
  refine hwin ?_
  have hthird : (turnIds N)[N - 2 + 1]? = some (tickMessage 3).identity := by
    rw [turnIds, List.getElem?_map, List.getElem?_range (by omega),
      Option.map_some, show (N - 2 + 1) % 4 = 3 by omega]
  rw [List.getElem?_take_of_lt (by decide), List.getElem?_take_of_lt (by decide),
    List.getElem?_drop, List.getElem?_drop,
    List.getElem?_append_left (by omega),
    List.getElem?_append_right (by omega), hlen, hthird,
    show N - 2 + 3 - N = 1 by omega]
  rfl

end RadioTransport

end EspressioRadio
