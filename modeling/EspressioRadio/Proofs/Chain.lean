/-
End to end over a chain: one message, any number of relays, each link
with its own chunk size.

Every link but the first carries nothing, or all fragments of the
message with one hop less than the link before (`Carried`); a relay
turns the one into the other when it has taken the last fragment of its
link (`relay_log`). From there `chain_delivers` only counts hops.
-/
import EspressioRadio.Proofs.Arrival
import EspressioRadio.Transport.Chain
import Mathlib.Algebra.Order.BigOperators.Group.Finset

namespace EspressioRadio

open Chunks

variable {b : Bounds} {ρ : Type}

/-- The messages the events report as passed on, in order. -/
def forwardedMessages (events : List (Event ρ)) : List RadioTransportMessageView :=
  events.filterMap fun
    | .messageForwarded message _ => some message
    | _ => none

theorem forwardedMessages_append (xs ys : List (Event ρ)) :
    forwardedMessages (xs ++ ys) = forwardedMessages xs ++ forwardedMessages ys :=
  List.filterMap_append

theorem forwardedMessages_map_radioSend (calls : List (SendCall ρ)) :
    forwardedMessages (calls.map .radioSend) = [] := by
  unfold forwardedMessages
  rw [List.filterMap_map]
  exact List.filterMap_eq_nil_iff.mpr fun _ _ => rfl

/-- The chain of the statement: fresh nodes with distinct valid ids, a
route at each node but the last over its link, links that are started
and lossless, a receiver at the end, and a payload every link has room
for. -/
structure ChainReady (links : ChainLinks ρ) (node : Nat → RadioTransport b ρ)
    (relays : Nat) (bytes : List UInt8) : Prop where
  free : ∀ i ≤ relays + 1, ∀ j, (node i).reassemblies j = {}
  unremembered : ∀ i ≤ relays + 1, ∀ j, ((node i).recent j).used = false
  distinct : ∀ i ≤ relays + 1, ∀ j ≤ relays + 1,
    (node i).localNode = (node j).localNode → i = j
  id_ne_zero : ∀ i ≤ relays + 1, (node i).localNode ≠ 0
  id_ne_broadcast : ∀ i ≤ relays + 1, (node i).localNode ≠ broadcastNode
  route : ∀ i ≤ relays, ∃ route,
    (node i).findRoute (node (relays + 1)).localNode = some route
      ∧ route.radio = some (links.out i)
  started : ∀ i ≤ relays, (links.radios i).isStarted (links.out i) = true
  lossless : ∀ i ≤ relays, ∀ index,
    ((links.radios i).send (links.out i) index).ok = true
  receiver : (node (relays + 1)).receiver = true
  chunk_pos : ∀ i ≤ relays, 0 < links.chunk i
  count_le : ∀ i ≤ relays, fragmentCountValue bytes.length (links.chunk i) ≤ 255
  admitted : ∀ i ≤ relays,
    fragmentCountValue bytes.length (links.chunk i) * links.chunk i
      ≤ b.maxMessageBytes
  size_le : bytes.length ≤ b.maxMessageBytes

-- ==================================================== packets at one stage

/-- Arrivals that all find the radios the same are one call for each packet. -/
theorem arrivals_const (radios : Radios ρ) (packets : List (List UInt8)) :
    RadioTransport.arrivals (fun _ => radios) packets
      = packets.map fun packet => ⟨radios, .processInboundPacket packet⟩ := by
  refine List.ext_getElem (by simp [RadioTransport.arrivals]) fun i _ _ => ?_
  simp [RadioTransport.arrivals]

theorem frames_take (m : Outbound) (c : Nat) {k n : Nat} (hk : k ≤ n) :
    (frames m c n).take k = frames m c k := by
  rw [frames, ← List.map_take, List.take_range, Nat.min_eq_left hk]
  rfl

theorem frames_length (m : Outbound) (c k : Nat) : (frames m c k).length = k := by
  rw [frames, List.length_map, List.length_range]

/-- What node `i + 1` shows on taking these packets, freshly started. -/
def stageLog [DecidableEq ρ] (links : ChainLinks ρ)
    (node : Nat → RadioTransport b ρ) (i : Nat) (packets : List (List UInt8)) :
    List (Event ρ) :=
  Observed.trace (chainStage links i).step (chainStage links i).obs (node (i + 1))
    packets

/-- What a stage shows over some packets is what the transport of its node
does outside as they arrive. -/
theorem stageLog_eq [DecidableEq ρ] (links : ChainLinks ρ)
    (node : Nat → RadioTransport b ρ) (i : Nat) (packets : List (List UInt8)) :
    stageLog links node i packets
      = Observed.trace RadioTransport.after RadioTransport.effects (node (i + 1))
        (RadioTransport.arrivals (fun _ => links.radios (i + 1)) packets) := by
  rw [arrivals_const, Observed.trace_map]
  rfl

/-- What a send its radio accepts in full puts on the radio's link. -/
theorem sendVia_linkFrames [DecidableEq ρ] {radios : Radios ρ} {radio : ρ}
    {nextHop : RadioAddress} {m : Outbound}
    (hg : SendViaGuard b radios radio m.payload)
    (hsend : ∀ index, (radios.send radio index).ok = true) :
    ((sendVia b radios radio nextHop m).2.map Event.radioSend).filterMap
        (linkFrame radio)
      = frames m (fragmentPayloadBytes radios radio)
        (fragmentCountValue m.payload.length (fragmentPayloadBytes radios radio)) := by
  have hok : (sendVia b radios radio nextHop m).1.ok = true := sendVia_ok hg hsend
  rw [fragmentCountValue_eq, ← (sendVia_frames hok).2, List.filterMap_map,
    ← List.filterMap_eq_map]
  refine List.filterMap_congr fun call hcall => if_pos ?_
  rw [sendVia_eq hg] at hcall
  obtain ⟨hradio, -, i, -, -, hresult⟩ := sendFragments_calls call hcall
  exact ⟨hradio, by rw [hresult]; exact hsend i⟩

-- ======================================================== one message

/-- The message node 0 sends: the outbound of its public `Send` to the last
node. -/
def chainMessage (node : Nat → RadioTransport b ρ) (relays : Nat)
    (channel : RadioChannel) (bytes : List UInt8) : Outbound :=
  (node 0).outbound (node (relays + 1)).localNode channel bytes

/-- All fragments of the message, as the link from node `i` carries
them. -/
def linkFrames (links : ChainLinks ρ) (m : Outbound) (i : Nat) : List (List UInt8) :=
  frames m (links.chunk i) (fragmentCountValue m.payload.length (links.chunk i))

section Ready

variable {links : ChainLinks ρ} {node : Nat → RadioTransport b ρ} {relays : Nat}
  {channel : RadioChannel} {bytes : List UInt8} {hop : UInt8} {i : Nat}
  (h : ChainReady links node relays bytes)

include h

/-- The chunk size of a link suits the payload. -/
theorem ChainReady.sendable (hi : i ≤ relays) : Sendable bytes (links.chunk i) :=
  ⟨h.chunk_pos i hi, fragmentPayloadBytes_le _ _, h.count_le i hi⟩

/-- Every later node has room for the message and will take it for no other. -/
theorem ChainReady.admits (hi : i ≤ relays) :
    (node (i + 1)).Admits ((chainMessage node relays channel bytes).withHops hop)
      (links.chunk i) where
  sendable := h.sendable hi
  size_le := h.admitted i hi
  source_ne := h.id_ne_zero 0 (by omega)
  source_ne_local := fun heq => by
    have := h.distinct 0 (by omega) (i + 1) (by omega) heq
    omega
  destination_ne := h.id_ne_zero _ (Nat.le_refl _)

theorem ChainReady.stable (hi : i ≤ relays + 1) : (node i).Stable :=
  RadioTransport.stable_of_empty (h.free i hi)

theorem ChainReady.not_remembers (hi : i ≤ relays + 1) (id : MessageIdentity) :
    ¬ (node i).Remembers id := by
  rintro ⟨j, hu, -⟩
  rw [h.unremembered i hi j] at hu
  cases hu

theorem ChainReady.no_slot (hi : i ≤ relays + 1) (id : MessageIdentity)
    (j : Fin b.maxReassemblies) (hu : ((node i).reassemblies j).used = true) :
    ((node i).reassemblies j).identity ≠ id := by
  rw [h.free i hi j] at hu
  cases hu

variable [DecidableEq ρ]

/-- A node sending the message on: accepted, with every fragment on its
link. -/
theorem ChainReady.sends (channel : RadioChannel) (hop : UInt8) (hi : i ≤ relays) :
    ((node i).sendFramed (links.radios i)
        ((chainMessage node relays channel bytes).withHops hop)).1.ok = true
      ∧ (((node i).sendFramed (links.radios i)
          ((chainMessage node relays channel bytes).withHops hop)).2.map
            Event.radioSend).filterMap (linkFrame (links.out i))
        = linkFrames links
          ((chainMessage node relays channel bytes).withHops hop) i := by
  obtain ⟨route, hroute, hradio⟩ := h.route i hi
  have hg : SendViaGuard b (links.radios i) (links.out i)
      ((chainMessage node relays channel bytes).withHops hop).payload :=
    ⟨h.started i hi, h.size_le, h.sendable hi⟩
  rw [RadioTransport.sendFramed_route
    (m := (chainMessage node relays channel bytes).withHops hop)
    (h.id_ne_broadcast _ (Nat.le_refl _)) hroute hradio]
  exact ⟨sendVia_ok hg (h.lossless i hi), sendVia_linkFrames hg (h.lossless i hi)⟩

-- ========================================================= stage by stage

/-- A node of the chain that has heard some but not all fragments of its
link, in order, has done nothing outside yet. -/
theorem ChainReady.stage_partial (hi : i ≤ relays) {r : Nat}
    (hr : r < fragmentCountValue bytes.length (links.chunk i)) :
    stageLog links node i ((linkFrames links
      ((chainMessage node relays channel bytes).withHops hop) i).take r) = [] := by
  have hle : r ≤ fragmentCountValue
      ((chainMessage node relays channel bytes).withHops hop).payload.length
      (links.chunk i) := Nat.le_of_lt hr
  rw [stageLog_eq, linkFrames, frames_take _ _ hle]
  exact (RadioTransport.in_order_before_last (h.stable (by omega)) (h.admits hi)
    (h.not_remembers (by omega) _) (h.no_slot (by omega) _) _ hr).2

/-- A node that is handed all of the message's frames completes it with the
last, in a slot that has the hops its copy came with. -/
theorem ChainReady.stage_complete (hi : i ≤ relays) :
    ∃ slot : ReassemblyRecord,
      slot.message = (chainMessage node relays channel bytes).view
        ∧ slot.forwarded
          = (chainMessage node relays channel bytes).withHops (hop - 1)
        ∧ slot.hopLimit = hop
        ∧ slot.destination = (node (relays + 1)).localNode
        ∧ stageLog links node i (linkFrames links
            ((chainMessage node relays channel bytes).withHops hop) i)
          = (node (i + 1)).dispatch (links.radios (i + 1)) slot := by
  have hpos := chunkCount_pos (n := bytes.length) (h.chunk_pos i hi)
  obtain ⟨n, hlast⟩ := Nat.exists_eq_add_one_of_ne_zero (Nat.pos_iff_ne_zero.mp hpos)
  obtain ⟨slot, hview, hfwd, hhop, htrace⟩ := RadioTransport.in_order
    (m := (chainMessage node relays channel bytes).withHops hop)
    (h.stable (by omega)) (h.admits hi)
    (h.not_remembers (by omega) _) (h.no_slot (by omega) _)
    (fun _ => links.radios (i + 1)) hlast
  refine ⟨slot, hview, hfwd, hhop,
    congrArg RadioTransportMessageView.destinationNode hview, ?_⟩
  rw [stageLog_eq, linkFrames, fragmentCountValue_eq]
  exact hlast.symm ▸ htrace

/-- The last node, handed all of the message's frames, delivers it once and
does nothing else. -/
theorem ChainReady.last_log :
    stageLog links node relays (linkFrames links
        ((chainMessage node relays channel bytes).withHops hop) relays)
      = [.receiverMessage (chainMessage node relays channel bytes).view,
        .messageReceived (chainMessage node relays channel bytes).view] := by
  obtain ⟨slot, hview, -, -, hdst, hlog⟩ :=
    h.stage_complete (Nat.le_refl relays)
  rw [hlog, RadioTransport.dispatch_local (Or.inl hdst), if_pos h.receiver, hview]
  rfl

omit [DecidableEq ρ] in
/-- A relay is not the destination, so it passes the message on or drops it. -/
theorem ChainReady.relay_not_local (hi : i < relays) {destination : RadioNodeId}
    (hdst : destination = (node (relays + 1)).localNode) :
    ¬(destination = (node (i + 1)).localNode ∨ destination = broadcastNode) := by
  subst hdst
  rintro (heq | heq)
  · have := h.distinct _ (Nat.le_refl _) (i + 1) (by omega) heq
    omega
  · exact h.id_ne_broadcast _ (Nat.le_refl _) heq

/-- A relay with a hop left passes the message on. -/
theorem ChainReady.relay_log (channel : RadioChannel) (hi : i < relays)
    (hhop : hop > 0) :
    ∃ log : List (Event ρ),
      stageLog links node i (linkFrames links
          ((chainMessage node relays channel bytes).withHops hop) i) = log
        ∧ log.filterMap (linkFrame (links.out (i + 1)))
          = linkFrames links
            ((chainMessage node relays channel bytes).withHops (hop - 1)) (i + 1)
        ∧ receiverMessages log = []
        ∧ forwardedMessages log = [(chainMessage node relays channel bytes).view] := by
  obtain ⟨slot, hview, hfwd, hlim, hdst, hlog⟩ :=
    h.stage_complete (Nat.le_of_lt hi)
  refine ⟨_, hlog, ?_⟩
  rw [RadioTransport.dispatch_forward (h.relay_not_local hi hdst)
    (by rw [hlim]; exact hhop), hfwd, hview]
  obtain ⟨-, hframes⟩ := h.sends channel (hop - 1) (show i + 1 ≤ relays from hi)
  refine ⟨?_, ?_, ?_⟩
  · rw [List.filterMap_append, hframes]
    exact List.append_nil _
  · rw [receiverMessages_append, receiverMessages_map_radioSend]
    rfl
  · rw [forwardedMessages_append, forwardedMessages_map_radioSend]
    rfl

/-- A relay that gets the message with no hops left shows nothing at all. -/
theorem ChainReady.relay_exhausted (hi : i < relays) :
    stageLog links node i (linkFrames links
      ((chainMessage node relays channel bytes).withHops 0) i) = [] := by
  obtain ⟨slot, -, -, hlim, hdst, hlog⟩ :=
    h.stage_complete (Nat.le_of_lt hi)
  rw [hlog, RadioTransport.dispatch_exhausted (h.relay_not_local hi hdst)
    (by rw [hlim]; decide)]

/-- Node 0's `Send` is accepted and fills the first link. -/
theorem ChainReady.send_spec (channel : RadioChannel) :
    (chainSend links node relays channel bytes).2.1.ok = true
      ∧ (chainSend links node relays channel bytes).2.2.filterMap
          (linkFrame (links.out 0))
        = linkFrames links (chainMessage node relays channel bytes) 0 := by
  have hvalid : ¬((node (relays + 1)).localNode = 0
      ∨ (node (relays + 1)).localNode = (node 0).localNode) := by
    rintro (heq | heq)
    · exact h.id_ne_zero _ (Nat.le_refl _) heq
    · have := h.distinct _ (Nat.le_refl _) 0 (by omega) heq
      omega
  obtain ⟨hok, hframes⟩ :=
    h.sends channel (node 0).defaultHopLimit (Nat.zero_le relays)
  unfold chainSend
  rw [(RadioTransport.send_valid (node 0) (links.radios 0) channel hvalid rfl).2]
  refine ⟨hok, ?_⟩
  dsimp only
  rw [List.filterMap_append]
  exact (List.append_nil _).trans hframes

-- ================================================================== runs

/-- Link `i` carried nothing, or the whole message with `i` hops
gone. -/
def Carried (links : ChainLinks ρ) (m : Outbound) (i : Nat)
    (packets : List (List UInt8)) : Prop :=
  packets = [] ∨ ∃ hop : UInt8, hop.toNat + i = m.hopLimit.toNat
    ∧ packets = linkFrames links (m.withHops hop) i

section Run

variable {n : Nat} {taken : Nat → Nat}
  {c : Pipeline.Config (RadioTransport b ρ) (List UInt8) (Event ρ)}
  (hp : Pipeline.Progress (chainStage links) (relays + 1) (fun i => node (i + 1))
    (linkFrames links (chainMessage node relays channel bytes) 0) n c taken)

include hp

/-- What a stage has shown: nothing, or all of one message. -/
theorem ChainReady.log_cases (hi : i ≤ relays)
    (hc : Carried links (chainMessage node relays channel bytes) i
      (Pipeline.fed (chainStage (b := b) links)
        (linkFrames links (chainMessage node relays channel bytes) 0) c.log i)) :
    c.log i = [] ∨ ∃ hop : UInt8,
      hop.toNat + i = (node 0).defaultHopLimit.toNat
        ∧ c.log i = stageLog links node i (linkFrames links
          ((chainMessage node relays channel bytes).withHops hop) i) := by
  have hlog := hp.log_eq i
  have hle := hp.le i
  rcases hc with hnone | ⟨hop, hhop, hfed⟩
  · rw [hnone, List.take_nil] at hlog
    exact Or.inl hlog
  · rw [hfed] at hlog hle
    rcases Nat.lt_or_ge (taken i) (fragmentCountValue bytes.length (links.chunk i))
      with hlt | hge
    · exact Or.inl (hlog.trans (h.stage_partial hi hlt))
    · refine Or.inr ⟨hop, hhop, hlog.trans ?_⟩
      rw [List.take_of_length_le (by rw [linkFrames, frames_length]; exact hge)]
      rfl

/-- Every link of the chain carries nothing at all or every fragment of the
message: a node passes a message on whole or not. -/
theorem ChainReady.carried (hi : i ≤ relays) :
    Carried links (chainMessage node relays channel bytes) i
      (Pipeline.fed (chainStage (b := b) links)
        (linkFrames links (chainMessage node relays channel bytes) 0) c.log i) := by
  induction i with
  | zero => exact Or.inr ⟨(node 0).defaultHopLimit, rfl, rfl⟩
  | succ i ih =>
      show Carried links _ (i + 1) ((c.log i).filterMap (linkFrame (links.out (i + 1))))
      rcases h.log_cases hp (by omega) (ih (by omega)) with hlog | ⟨hop, hhop, hlog⟩
      · rw [hlog]
        exact Or.inl rfl
      · by_cases hpos : hop > 0
        · obtain ⟨log, hstage, hframes, -, -⟩ := h.relay_log channel hi hpos
          rw [hlog, hstage, hframes]
          have hone : (1 : UInt8) ≤ hop := by
            rw [UInt8.le_iff_toNat_le]
            exact UInt8.lt_iff_toNat_lt.mp hpos
          have hgt : 1 ≤ hop.toNat := UInt8.le_iff_toNat_le.mp hone
          refine Or.inr ⟨hop - 1, ?_, rfl⟩
          rw [UInt8.toNat_sub_of_le _ _ hone]
          show hop.toNat - 1 + (i + 1) = (node 0).defaultHopLimit.toNat
          omega
        · have hzero : hop = 0 := by
            rw [← UInt8.toNat_inj]
            exact Nat.eq_zero_of_not_pos fun hlt => hpos (UInt8.lt_iff_toNat_lt.mpr hlt)
          subst hzero
          rw [hlog, h.relay_exhausted hi]
          exact Or.inl rfl

/-- A run is no longer than the fragments of all links together. -/
theorem ChainReady.run_le :
    n ≤ ∑ i ∈ Finset.range (relays + 1),
      fragmentCountValue bytes.length (links.chunk i) := by
  rw [hp.count]
  refine Finset.sum_le_sum fun i hi => Nat.le_trans (hp.le i) ?_
  rcases h.carried hp (Nat.lt_succ_iff.mp (Finset.mem_range.mp hi)) with
    hnone | ⟨hop, -, hfed⟩
  · rw [hnone]
    exact Nat.zero_le _
  · rw [hfed, linkFrames, frames_length]
    exact Nat.le_refl _

/-- With the queues empty and hops enough, every link has carried the
message. -/
theorem ChainReady.settled_log (hq : ∀ i ≤ relays, c.queue i = [])
    (hhops : relays ≤ (node 0).defaultHopLimit.toNat) (hi : i ≤ relays) :
    ∃ hop : UInt8, hop.toNat + i = (node 0).defaultHopLimit.toNat
      ∧ Pipeline.fed (chainStage (b := b) links)
          (linkFrames links (chainMessage node relays channel bytes) 0) c.log i
        = linkFrames links ((chainMessage node relays channel bytes).withHops hop) i
      ∧ c.log i = stageLog links node i (linkFrames links
          ((chainMessage node relays channel bytes).withHops hop) i) := by
  induction i with
  | zero =>
      exact ⟨(node 0).defaultHopLimit, rfl, rfl, hp.settled (hq 0 hi)⟩
  | succ i ih =>
      obtain ⟨hop, hhop, -, hlog⟩ := ih (by omega)
      have hpos : hop > 0 := UInt8.lt_iff_toNat_lt.mpr (show 0 < hop.toNat by omega)
      have hone : (1 : UInt8) ≤ hop := by
        rw [UInt8.le_iff_toNat_le]
        exact UInt8.lt_iff_toNat_lt.mp hpos
      obtain ⟨log, hstage, hframes, -, -⟩ := h.relay_log channel hi hpos
      have hfed : Pipeline.fed (chainStage (b := b) links)
          (linkFrames links (chainMessage node relays channel bytes) 0) c.log (i + 1)
          = linkFrames links
            ((chainMessage node relays channel bytes).withHops (hop - 1)) (i + 1) := by
        show (c.log i).filterMap (linkFrame (links.out (i + 1))) = _
        rw [hlog, hstage, hframes]
      refine ⟨hop - 1, ?_, hfed, ?_⟩
      · rw [UInt8.toNat_sub_of_le _ _ hone]
        show hop.toNat - 1 + (i + 1) = _
        omega
      · have := hp.settled (hq (i + 1) hi)
        rw [hfed] at this
        exact this

end Run

end Ready

/-- What a receiver is to get of that `Send`: its channel and its bytes,
from node 0 to the last node, under the number node 0 is at. -/
def chainView (node : Nat → RadioTransport b ρ) (relays : Nat) (channel : RadioChannel)
    (bytes : List UInt8) : RadioTransportMessageView where
  sourceNode := (node 0).localNode
  destinationNode := (node (relays + 1)).localNode
  channel := channel
  messageId := (node 0).nextMessageId
  payload := bytes

/-- End to end over a chain with `relays` nodes in between. Node 0's
`Send` is accepted; in whatever order the links then deliver, no relay
calls its receiver, and none passes the message on more than once, nor
the last node's receiver gets it more than once; a run is finite, and
when no packet is left on a link, each relay has passed it on and the
last node's receiver has it, once and whole, if the hop limit allows for
the relays. If it does not, the message never arrives. -/
theorem chain_delivers [DecidableEq ρ] {links : ChainLinks ρ}
    {node : Nat → RadioTransport b ρ} {relays : Nat} {bytes : List UInt8}
    (h : ChainReady links node relays bytes) (channel : RadioChannel) :
    (chainSend links node relays channel bytes).2.1.status = .accepted
      ∧ ∀ n c, Pipeline.Run (chainStage links) (relays + 1)
          (chainStart links node relays channel bytes) n c →
        n ≤ ∑ i ∈ Finset.range (relays + 1),
            fragmentCountValue bytes.length (links.chunk i)
        ∧ (∀ i < relays, receiverMessages (c.log i) = []
          ∧ (forwardedMessages (c.log i) = []
            ∨ forwardedMessages (c.log i)
              = [chainView node relays channel bytes]))
        ∧ (receiverMessages (c.log relays) = []
          ∨ receiverMessages (c.log relays)
            = [chainView node relays channel bytes])
        ∧ ((node 0).defaultHopLimit.toNat < relays →
          receiverMessages (c.log relays) = [])
        ∧ ((∀ i ≤ relays, c.queue i = []) →
          relays ≤ (node 0).defaultHopLimit.toNat →
          receiverMessages (c.log relays)
              = [chainView node relays channel bytes]
            ∧ ∀ i < relays, forwardedMessages (c.log i)
              = [chainView node relays channel bytes]) := by
  have hview : chainView node relays channel bytes
      = (chainMessage node relays channel bytes).view := rfl
  rw [hview]
  obtain ⟨hok, hfirst⟩ := h.send_spec channel
  refine ⟨by simpa [RadioTransportSendResult.ok] using hok, fun n c hrun => ?_⟩
  unfold chainStart at hrun
  rw [hfirst] at hrun
  obtain ⟨taken, hp⟩ := hrun.progress
  have hlast := h.log_cases hp (Nat.le_refl relays) (h.carried hp (Nat.le_refl relays))
  refine ⟨h.run_le hp, fun i hi => ?_, ?_, fun hfew => ?_, fun hq hhops => ⟨?_, ?_⟩⟩
  · -- a relay's log is empty, or that of all the frames with the hops they have there
    rcases h.log_cases hp (Nat.le_of_lt hi) (h.carried hp (Nat.le_of_lt hi)) with
      hlog | ⟨hop, -, hlog⟩
    · rw [hlog]
      exact ⟨rfl, Or.inl rfl⟩
    · by_cases hpos : hop > 0
      · obtain ⟨log, hstage, -, hrecv, hfwd⟩ :=
          h.relay_log channel hi hpos
        rw [hlog, hstage]
        exact ⟨hrecv, Or.inr hfwd⟩
      · have hzero : hop = 0 := by
          rw [← UInt8.toNat_inj]
          exact Nat.eq_zero_of_not_pos fun hlt => hpos (UInt8.lt_iff_toNat_lt.mpr hlt)
        subst hzero
        rw [hlog, h.relay_exhausted hi]
        exact ⟨rfl, Or.inl rfl⟩
  · rcases hlast with hlog | ⟨hop, -, hlog⟩
    · rw [hlog]
      exact Or.inl rfl
    · rw [hlog, h.last_log]
      exact Or.inr rfl
  · -- with fewer hops than relays the last node's log is the empty one
    rcases hlast with hlog | ⟨hop, hhop, -⟩
    · rw [hlog]
      rfl
    · omega
  · obtain ⟨hop, -, -, hlog⟩ := h.settled_log hp hq hhops (Nat.le_refl relays)
    rw [hlog, h.last_log]
    rfl
  · intro i hi
    obtain ⟨hop, hhop, -, hlog⟩ := h.settled_log hp hq hhops (Nat.le_of_lt hi)
    have hpos : hop > 0 := UInt8.lt_iff_toNat_lt.mpr (show 0 < hop.toNat by omega)
    obtain ⟨log, hstage, -, -, hfwd⟩ := h.relay_log channel hi hpos
    rw [hlog, hstage, hfwd]

/-- A row of fresh nodes 1, 2, 3, .., each with a route to node 4. -/
def rowNode (i : Nat) : RadioTransport .defaults Unit where
  localNode := UInt16.ofNat (i + 1)
  receiver := true
  routes := fun _ => { used := true, destination := 4, radio := some () }
  started := true

/-- Their links, the first with one payload byte a frame, the second with
two, the third with seventeen. -/
def rowLinks : ChainLinks Unit where
  out := fun _ => ()
  radios := fun
    | 0 => narrowRadios
    | 1 =>
        { openRadios with
          capabilities := fun _ =>
            { flags := 1, maximumPayloadBytes := 17, addressBytes := 5 } }
    | _ => openRadios

/-- Two relays, three fragments, then two, then one: once the links are
empty, nodes 2 and 3 have passed the bytes on, and the receiver of node 4
has them. -/
theorem row_delivers :
    (chainSend rowLinks rowNode 2 7 [0xAA, 0xBB, 0xCC]).2.1.status = .accepted
      ∧ ∀ n c, Pipeline.Run (chainStage rowLinks) 3
          (chainStart rowLinks rowNode 2 7 [0xAA, 0xBB, 0xCC]) n c →
        n ≤ 3 + 2 + 1
          ∧ ((∀ i ≤ 2, c.queue i = []) →
            receiverMessages (c.log 2) = [⟨1, 4, 7, 1, [0xAA, 0xBB, 0xCC]⟩]
              ∧ ∀ i < 2, forwardedMessages (c.log i)
                = [⟨1, 4, 7, 1, [0xAA, 0xBB, 0xCC]⟩]) := by
  have h : ChainReady rowLinks rowNode 2 [0xAA, 0xBB, 0xCC] :=
    { free := fun _ _ _ => rfl
      unremembered := fun _ _ _ => rfl
      distinct := by decide
      id_ne_zero := by decide
      id_ne_broadcast := by decide
      route := fun _ _ => ⟨_, rfl, rfl⟩
      started := by decide
      lossless := by
        intro i hi index
        match i, hi with
        | 0, _ => rfl
        | 1, _ => rfl
        | 2, _ => rfl
      receiver := rfl
      chunk_pos := by decide
      count_le := by decide
      admitted := by decide
      size_le := by decide }
  obtain ⟨haccepted, hruns⟩ := chain_delivers h 7
  refine ⟨haccepted, fun n c hrun => ?_⟩
  obtain ⟨hle, -, -, -, hquiet⟩ := hruns n c hrun
  exact ⟨hle, fun hq => hquiet hq (by decide)⟩

end EspressioRadio
