/-
What a transport takes across a `Stop`: nothing underway.

`Stop` only resets the slots, whether the transport was started or not.
The ring of recent messages, the touch counter and the message ids go on.
What has to be seen is that no later step looks behind the reset: the
fragments a slot is made of (its ledger) all came in since
(`Since.after`), so neither a delivery nor a forward nor a single frame
sent on after a `Stop` owes anything to a packet from before it
(`effects_since_stop`).
-/
import EspressioRadio.Proofs.Independence
import EspressioRadio.Proofs.Provenance

namespace EspressioRadio

open Chunks

variable {b : Bounds} {ρ : Type}

/-- The packet a call brings in, if it does. -/
def Input.packets (input : Input ρ) : List (List UInt8) :=
  match input.call with
  | .processInboundPacket packet => [packet]
  | _ => []

/-- The event is about a message with these bytes. -/
def Event.About (bytes : List UInt8) : Event ρ → Prop
  | .receiverMessage message => message.payload = bytes
  | .messageReceived message => message.payload = bytes
  | .messageForwarded message _ => message.payload = bytes
  | .radioSend call => ∃ m : Outbound, m.payload = bytes ∧ IsFragment m call.frame
  | _ => False

/-- The fragments in index order, padded to the chunk size, cut off at the
size announced. -/
def assembled (taken : List TakenFragment) : List UInt8 :=
  (padded 0 (TakenFragment.chunkSize taken) (TakenFragment.firstBodies taken)).take
    (TakenFragment.announcedSize taken)

/-- The payload of a slot's message is what its ledger's fragments are
assembled to. -/
theorem ReassemblyRecord.Stored.message_payload {s : ReassemblyRecord}
    {taken : List TakenFragment} (hs : s.Stored taken) (hw : s.WellFormed b)
    (hne : taken ≠ []) : s.message.payload = assembled taken := by
  show s.buffer.take s.total = assembled taken
  rw [hs.buffer_eq hw hne, hs.total_eq hw hne]
  rfl

/-- Everything that comes of a completion is about the message in its slot. -/
theorem RadioTransport.dispatch_about {t : RadioTransport b ρ} {radios : Radios ρ}
    {slot : ReassemblyRecord} {event : Event ρ} (he : event ∈ t.dispatch radios slot) :
    event.About slot.message.payload := by
  by_cases hd : slot.destination = t.localNode ∨ slot.destination = broadcastNode
  · rw [dispatch_local hd] at he
    rcases List.mem_append.mp he with hreceiver | hobservers
    · split at hreceiver
      · obtain rfl := List.mem_singleton.mp hreceiver
        rfl
      · cases hreceiver
    · obtain rfl := List.mem_singleton.mp hobservers
      rfl
  · by_cases hh : slot.hopLimit > 0
    · rw [dispatch_forward hd hh] at he
      rcases List.mem_append.mp he with hsent | hforwarded
      · obtain ⟨call, hcall, rfl⟩ := List.mem_map.mp hsent
        exact ⟨slot.forwarded, rfl, sendFramed_calls t call hcall⟩
      · obtain rfl := List.mem_singleton.mp hforwarded
        rfl
    · rw [dispatch_exhausted hd hh] at he
      cases he

namespace Recorded

/-- The fragment came with one of these packets. -/
def CameWith (packets : List (List UInt8)) (f : TakenFragment) : Prop :=
  ∃ packet ∈ packets, takenFragment packet = some f

/-- Whatever is in a slot came with one of these packets. -/
structure Since (r : Recorded b ρ) (packets : List (List UInt8)) : Prop where
  stable : r.transport.Stable
  came : ∀ j, (r.transport.reassemblies j).used = true →
    ∀ f ∈ r.ledger j, CameWith packets f

variable {r : Recorded b ρ} {packet : List UInt8} {packets : List (List UInt8)}
  {j : Fin b.maxReassemblies} {f : TakenFragment}

theorem CameWith.more (h : CameWith packets f) (later : List (List UInt8)) :
    CameWith (packets ++ later) f := by
  obtain ⟨packet, hmem, hf⟩ := h
  exact ⟨packet, List.mem_append_left _ hmem, hf⟩

/-- Once the packet is entered, a ledger has what it had and the
packet. -/
theorem Since.entered (hr : r.Since packets)
    (hu : ((r.transport.receiveFragment packet).1.reassemblies j).used = true)
    (hf : f ∈ r.entered packet j) : CameWith (packets ++ [packet]) f := by
  have hin := RadioTransport.receiveFragment_inbound hr.stable.toSound packet
  have hnew : takenFragment packet = some f → CameWith (packets ++ [packet]) f :=
    fun h => ⟨packet, by simp, h⟩
  have hold : (r.transport.reassemblies j).used = true → f ∈ r.ledger j →
      CameWith (packets ++ [packet]) f :=
    fun hused hmem => (hr.came j hused f hmem).more _
  have hentry : r.transport.takes packet = some j →
      r.entered packet j = (if r.transport.opens packet then [] else r.ledger j)
        ++ (takenFragment packet).toList := by
    intro htake
    unfold Recorded.entered
    rw [htake]
    exact Function.update_self ..
  rcases hin.slot_cases hu with ⟨htake, heq⟩ | ⟨h, hd, -, hi, -, htake, -⟩ |
    ⟨h, hd, -, hn, -, htake, -⟩
  · -- another slot, or none, took the packet
    have hkept : r.entered packet j = r.ledger j := by
      unfold Recorded.entered
      cases htk : r.transport.takes packet with
      | none => rfl
      | some i =>
          apply Function.update_of_ne
          intro hji
          exact htake (htk.trans (congrArg some hji.symm))
    rw [heq] at hu
    rw [hkept] at hf
    exact hold hu hf
  · rw [hentry htake, RadioTransport.opens_eq_false hd hi] at hf
    rcases List.mem_append.mp hf with hledger | hlast
    · exact hold (ReassemblyRecord.holds_iff.mp hi).1 hledger
    · exact hnew (Option.mem_toList.mp hlast)
  · rw [hentry htake, RadioTransport.opens_eq_true hd hn] at hf
    exact hnew (Option.mem_toList.mp hf)

variable [DecidableEq ρ]

/-- A slot in use after a call was in use before it, or the call's packet
opened it. -/
theorem Since.after (hr : r.Since packets) (input : Input ρ) :
    (r.after input).Since (packets ++ input.packets) := by
  refine ⟨hr.stable.after input, ?_⟩
  intro j hu f hf
  obtain ⟨radios, call⟩ := input
  by_cases hcall : ∃ packet, call = .processInboundPacket packet
  · obtain ⟨packet, rfl⟩ := hcall
    have hslot := RadioTransport.processInboundPacket_slot hr.stable.toSound radios hu
    have hu' : ((r.transport.receiveFragment packet).1.reassemblies j).used = true := by
      rw [← hslot]
      exact hu
    exact hr.entered hu' hf
  · have hledger : (r.after ⟨radios, call⟩).ledger = r.ledger := by
      cases call with
      | processInboundPacket packet => exact absurd ⟨packet, rfl⟩ hcall
      | _ => rfl
    rw [hledger] at hf
    obtain ⟨-, -, hsame | hempty⟩ := RadioTransport.after_tables r.transport
      ⟨radios, call⟩ fun packet heq => hcall ⟨packet, heq⟩
    · have hused : (r.transport.reassemblies j).used = true := by
        rw [← congrFun hsame j]
        exact hu
      exact (hr.came j hused f hf).more _
    · rw [show (r.after ⟨radios, call⟩).transport.reassemblies j = {} from hempty j] at hu
      cases hu

/-- Every call keeps the table stable, `Stop` leaves no slot in use. -/
theorem since_stop (hs : r.transport.Stable) (radios : Radios ρ) :
    (r.after ⟨radios, .stop⟩).Since [] := by
  refine ⟨hs.after _, ?_⟩
  intro j hu
  cases hu

/-- All that a packet makes the transport do outside, with the ledger of the
slot it went into. -/
def effectsOf (r : Recorded b ρ) (input : Input ρ) :
    List (Event ρ × List TakenFragment) :=
  match input.call with
  | .processInboundPacket packet =>
      (r.transport.takes packet).toList.flatMap fun j =>
        (r.transport.effects input).map fun event => (event, r.entered packet j)
  | _ => []

/-- A packet that goes into no slot does nothing outside. -/
theorem effectsOf_events (hs : r.transport.Stable) (input : Input ρ) :
    (r.effectsOf input).map Prod.fst = r.transport.packetEffects input := by
  obtain ⟨radios, call⟩ := input
  cases call with
  | processInboundPacket packet =>
      show (r.effectsOf ⟨radios, .processInboundPacket packet⟩).map Prod.fst
        = r.transport.effects ⟨radios, .processInboundPacket packet⟩
      unfold effectsOf
      dsimp only
      cases htake : r.transport.takes packet with
      | some j => simp [Function.comp_def]
      | none =>
          rcases RadioTransport.processInboundPacket_cases hs.toSound radios packet with
            ⟨heq, -⟩ | ⟨i, htk, -⟩
          · exact (congrArg Prod.snd heq).symm
          · rw [htake] at htk
            cases htk
  | _ => rfl

/-- Over a run, nothing a packet does goes without its ledger. -/
theorem trace_effectsOf (hs : r.transport.Stable) (inputs : List (Input ρ)) :
    (Observed.trace Recorded.after Recorded.effectsOf r inputs).map Prod.fst
      = Observed.trace RadioTransport.after RadioTransport.packetEffects r.transport inputs := by
  induction inputs generalizing r with
  | nil => rfl
  | cons input inputs ih =>
      rw [Observed.trace_cons, Observed.trace_cons, List.map_append, effectsOf_events hs,
        ih (hs.after input)]
      rfl

/-- What a packet makes the transport do is about the bytes of its slot's
ledger, and those came with these packets or it. -/
theorem Since.effectsOf (hr : r.Since packets) (hright : r.Right) {input : Input ρ}
    {effect : Event ρ × List TakenFragment} (heffect : effect ∈ r.effectsOf input) :
    effect.1.About (assembled effect.2)
      ∧ ∀ f ∈ effect.2, CameWith (packets ++ input.packets) f := by
  obtain ⟨radios, call⟩ := input
  cases call with
  | processInboundPacket packet =>
      unfold Recorded.effectsOf at heffect
      simp only [List.mem_flatMap, Option.mem_toList, List.mem_map] at heffect
      obtain ⟨j, htake, event, hevent, rfl⟩ := heffect
      have hs := hr.stable.toSound
      have hin := RadioTransport.receiveFragment_inbound hs packet
      rw [show (r.transport.receiveFragment packet).2 = some j from htake] at hin
      refine ⟨?_, fun f hf => hr.entered hin.taken_used hf⟩
      rcases RadioTransport.processInboundPacket_cases hs radios packet with
        ⟨heq, -⟩ | ⟨i, htk, -, heq⟩
      · rw [show r.transport.effects ⟨radios, .processInboundPacket packet⟩ = []
          from congrArg Prod.snd heq] at hevent
        cases hevent
      · rw [show r.transport.effects ⟨radios, .processInboundPacket packet⟩ = _
          from congrArg Prod.snd heq] at hevent
        obtain rfl := Option.some.inj (htake.symm.trans htk)
        obtain ⟨hstored, hne⟩ := hright.entered hin.taken_used
        have hbytes := hstored.message_payload ((hin.sound hs).slot j hin.taken_used) hne
        rw [← hbytes]
        exact RadioTransport.dispatch_about hevent
  | _ => cases heffect

/-- Whatever came before a `Stop`: all that packets make the transport do
after it is about bytes of fragments that came in after it. -/
theorem effects_since_stop (localNode : RadioNodeId) (defaultHopLimit : UInt8)
    (past future : List (Input ρ)) (radios : Radios ρ) :
    let stopped := Observed.run after (create localNode defaultHopLimit : Recorded b ρ)
      (past ++ [⟨radios, .stop⟩])
    (Observed.trace after effectsOf stopped future).map Prod.fst
        = Observed.trace RadioTransport.after RadioTransport.packetEffects stopped.transport future
      ∧ ∀ effect ∈ Observed.trace after effectsOf stopped future,
        effect.1.About (assembled effect.2)
          ∧ ∀ f ∈ effect.2, CameWith (future.flatMap Input.packets) f := by
  intro stopped
  have hright : ∀ inputs, (Observed.run after
      (create localNode defaultHopLimit : Recorded b ρ) inputs).Right := fun inputs =>
    Observed.invariant_run (fun _ input hr => hr.after input)
      (right_create localNode defaultHopLimit) inputs
  have hsince : stopped.Since [] := by
    show (Observed.run after _ (past ++ [⟨radios, .stop⟩])).Since []
    rw [Observed.run_append]
    exact since_stop (hright past).stable radios
  refine ⟨trace_effectsOf hsince.stable future, ?_⟩
  intro effect heffect
  obtain ⟨earlier, input, later, rfl, hnow⟩ := Observed.mem_trace heffect
  have hreached : (Observed.run after stopped earlier).Since
      ([] ++ Observed.trace after (fun _ input => input.packets) stopped earlier) :=
    Observed.history_run (R := fun r packets => Since r packets)
      (fun _ _ input hr => hr.after input) hsince earlier
  rw [Observed.trace_static, List.nil_append] at hreached
  have hrun := hright ((past ++ [⟨radios, .stop⟩]) ++ earlier)
  rw [Observed.run_append] at hrun
  obtain ⟨habout, hcame⟩ := hreached.effectsOf hrun hnow
  refine ⟨habout, ?_⟩
  intro f hf
  rw [List.flatMap_append, List.flatMap_cons, ← List.append_assoc]
  exact (hcame f hf).more _

end Recorded

end EspressioRadio
