/-
What a remembered identity says of its message.

`Complete` remembers a message before it decides what becomes of it, so
the ring holds what was completed here, whatever came of it: delivered,
passed on with any result, or dropped for want of hops (`Fate`). Every
remembered identity goes back to such a completion, and as long as it is
remembered, further copies change nothing (`remembered_completed`). A
copy that came in with no hops left thus suppresses one that has some
(`exhausted_suppresses`).
-/
import EspressioRadio.Proofs.Recent

namespace EspressioRadio

variable {b : Bounds} {ρ : Type}

namespace RadioTransport

variable {t : RadioTransport b ρ} {id : MessageIdentity}

section Fates

variable [DecidableEq ρ]

/-- What becomes of a completed slot's message in the call that
completed it. -/
inductive Fate (t : RadioTransport b ρ) (input : Input ρ) (slot : ReassemblyRecord) :
    Prop where
  /-- The message is for this node: it goes to the receiver, if one is set,
  and the observers. -/
  | delivered
      (hto : slot.destination = t.localNode ∨ slot.destination = broadcastNode)
      (hevents : t.effects input
        = (if t.receiver then [.receiverMessage slot.message] else [])
          ++ [.messageReceived slot.message])
  /-- The message is passed on with a hop less; the send may have failed. -/
  | forwarded
      (hto : ¬(slot.destination = t.localNode ∨ slot.destination = broadcastNode))
      (hhops : slot.hopLimit > 0)
      (hevents : t.effects input
        = (t.sendFramed input.radios slot.forwarded).2.map .radioSend
          ++ [.messageForwarded slot.message
            (t.sendFramed input.radios slot.forwarded).1])
  /-- The message has no hops left and goes nowhere. -/
  | exhausted
      (hto : ¬(slot.destination = t.localNode ∨ slot.destination = broadcastNode))
      (hhops : slot.hopLimit = 0) (hevents : t.effects input = [])

/-- The call completes the message of this identity. -/
def Completes (t : RadioTransport b ρ) (input : Input ρ) (id : MessageIdentity) : Prop :=
  ∃ packet i, input.call = .processInboundPacket packet ∧ t.takes packet = some i
    ∧ ((t.receiveFragment packet).1.reassemblies i).identity = id
    ∧ ((t.receiveFragment packet).1.reassemblies i).isComplete = true
    ∧ t.Fate input ((t.receiveFragment packet).1.reassemblies i)

/-- A completed slot meets one of the three fates. -/
theorem fate_of_dispatch {input : Input ρ} {slot : ReassemblyRecord}
    (hevents : t.effects input = t.dispatch input.radios slot) : t.Fate input slot := by
  by_cases hto : slot.destination = t.localNode ∨ slot.destination = broadcastNode
  · rw [dispatch_local hto] at hevents
    exact .delivered hto hevents
  · by_cases hhops : slot.hopLimit > 0
    · rw [dispatch_forward hto hhops] at hevents
      exact .forwarded hto hhops hevents
    · rw [dispatch_exhausted hto hhops] at hevents
      exact .exhausted hto (UInt8.not_lt.mp hhops |> UInt8.le_zero_iff.mp) hevents

/-- A call that completes a message gives it one of those fates. -/
theorem completes_of_mem (hs : t.Stable) {input : Input ρ}
    (hmem : id ∈ t.completions input) : t.Completes input id := by
  unfold completions at hmem
  split at hmem
  · next packet hcall =>
    rcases completion_cases hs.toSound input.radios packet with
      ⟨hnone, -⟩ | ⟨i, id', htake, hid, hdone, hsome, -, -, heq⟩
    · rw [hnone] at hmem
      cases hmem
    · rw [hsome, Option.toList_some, List.mem_singleton] at hmem
      subst hmem
      refine ⟨packet, i, hcall, htake, hid, hdone, fate_of_dispatch ?_⟩
      have heffects : t.effects input
          = (t.processInboundPacket input.radios packet).2 := by
        unfold effects perform
        rw [hcall]
      have hframe := (receiveFragment_inbound hs.toSound packet).frame
      rw [heffects, heq]
      dsimp only
      rw [hframe]
      exact dispatch_congr rfl rfl rfl rfl
  · cases hmem

/-- After a call, no identity is remembered that was not before, other than
those the call completed. -/
theorem remembers_after (hs : t.Stable) {input : Input ρ}
    (hr : (t.after input).Remembers id) : t.Remembers id ∨ id ∈ t.completions input := by
  rw [← ring_has_iff] at hr ⊢
  by_cases hin : ∃ packet, input.call = .processInboundPacket packet
  · obtain ⟨packet, hcall⟩ := hin
    have hafter : t.after input = (t.processInboundPacket input.radios packet).1 := by
      unfold RadioTransport.after perform
      rw [hcall]
    have hcompletions : t.completions input = (t.completion packet).toList := by
      unfold completions
      rw [hcall]
    rw [hafter] at hr
    rw [hcompletions]
    rcases completion_cases hs.toSound input.radios packet with
      ⟨-, hring, -⟩ | ⟨i, id', -, -, -, hsome, -, hring, -⟩
    · rw [hring] at hr
      exact Or.inl hr
    · rw [hring] at hr
      rw [hsome, Option.toList_some, List.mem_singleton]
      rcases Ring.Cells.has_push hr with heq | ⟨j, -, hold⟩
      · exact Or.inr heq
      · exact Or.inl ⟨j, hold⟩
  · rw [(quiet_ring fun packet hcall => hin ⟨packet, hcall⟩).2] at hr
    exact Or.inl hr

/-- A run that starts with an empty ring remembers only what some call of it
completed. -/
theorem remembers_run {localNode : RadioNodeId} {defaultHopLimit : UInt8}
    (hs : (create localNode defaultHopLimit : RadioTransport b ρ).Stable)
    (inputs : List (Input ρ))
    (hr : (Observed.run after (create localNode defaultHopLimit : RadioTransport b ρ)
      inputs).Remembers id) :
    id ∈ Observed.trace after completions
      (create localNode defaultHopLimit : RadioTransport b ρ) inputs := by
  have hstart : (create localNode defaultHopLimit : RadioTransport b ρ).Stable
      ∧ ∀ id, (create localNode defaultHopLimit : RadioTransport b ρ).Remembers id →
        id ∈ ([] : List MessageIdentity) := by
    refine ⟨hs, fun id hr => ?_⟩
    obtain ⟨i, hi, -⟩ := hr
    cases hi
  refine (Observed.history_run (R := fun (t : RadioTransport b ρ) log =>
    t.Stable ∧ ∀ id, t.Remembers id → id ∈ log) ?_ hstart inputs).2 id hr
  rintro t log input ⟨hs, hlog⟩
  refine ⟨hs.after input, fun id hr => ?_⟩
  rcases remembers_after hs hr with hold | hnew
  · exact List.mem_append_left _ (hlog id hold)
  · exact List.mem_append_right _ hnew

/-- Whatever is remembered was completed by a call of the run; and as
long as it is, its packets change nothing. -/
theorem remembered_completed (localNode : RadioNodeId) (defaultHopLimit : UInt8)
    (inputs : List (Input ρ)) (id : MessageIdentity)
    (hr : (Observed.run after (create localNode defaultHopLimit : RadioTransport b ρ)
      inputs).Remembers id) :
    (∃ earlier input later, inputs = earlier ++ input :: later
        ∧ (Observed.run after (create localNode defaultHopLimit : RadioTransport b ρ)
          earlier).Completes input id)
      ∧ ∀ radios packet h, decodeHeader packet = some h → h.identity = id →
        (Observed.run after (create localNode defaultHopLimit : RadioTransport b ρ)
            inputs).processInboundPacket radios packet
          = (Observed.run after (create localNode defaultHopLimit) inputs, []) := by
  have hfresh : (create localNode defaultHopLimit : RadioTransport b ρ).Stable :=
    stable_of_empty fun _ => rfl
  constructor
  · obtain ⟨earlier, input, later, rfl, hmem⟩ :=
      Observed.mem_trace (remembers_run hfresh inputs hr)
    exact ⟨earlier, input, later, rfl, completes_of_mem
      (Observed.invariant_run (fun _ input hs => hs.after input) hfresh earlier) hmem⟩
  · intro radios packet h hd hid
    refine processInboundPacket_refused radios hd ?_
    have hrecent := isRecent_iff.mpr (hid.symm ▸ hr)
    unfold refuses
    rw [hrecent, Bool.or_true]

end Fates

-- ============================================================== no hops

/-- A byte from node 1 to node 3, in one fragment with these hops left. -/
def passing (hopLimit : UInt8) : List UInt8 :=
  frame ⟨1, 3, 7, 1, hopLimit, [0xA1]⟩ 1 0

/-- Node 2 gets a receiver, an interface everything goes out on, and a
copy with no hops left. -/
def exhaustedInputs : List (Input Unit) :=
  [⟨openRadios, .setReceiver true⟩, ⟨openRadios, .addInterface () true⟩,
    ⟨openRadios, .processInboundPacket (passing 0)⟩]

theorem exhausted_remembered :
    (Observed.run after (create 2 4 : RadioTransport .defaults Unit)
      exhaustedInputs).Remembers ⟨1, 3, 7, 1⟩ :=
  ⟨0, by decide, by decide⟩

/-- The copy with no hops left is where the identity comes from. -/
theorem exhausted_completed :
    (∃ earlier input later, exhaustedInputs = earlier ++ input :: later
        ∧ (Observed.run after (create 2 4 : RadioTransport .defaults Unit)
          earlier).Completes input ⟨1, 3, 7, 1⟩)
      ∧ ∀ radios packet h, decodeHeader packet = some h → h.identity = ⟨1, 3, 7, 1⟩ →
        (Observed.run after (create 2 4 : RadioTransport .defaults Unit)
            exhaustedInputs).processInboundPacket radios packet
          = (Observed.run after (create 2 4) exhaustedInputs, []) :=
  remembered_completed 2 4 exhaustedInputs ⟨1, 3, 7, 1⟩ exhausted_remembered

/-- The message was handed to the receiver, or forwarded and accepted. -/
def Handled (events : List (Event ρ)) (id : MessageIdentity) : Prop :=
  (∃ message, .receiverMessage message ∈ events ∧ message.identity = id)
    ∨ ∃ message result, .messageForwarded message result ∈ events
      ∧ message.identity = id ∧ result.ok = true

/-- The copy was neither handed over nor forwarded, and yet a later copy
that has hops left is dropped on its account. -/
theorem exhausted_suppresses :
    (Observed.run after (create 2 4 : RadioTransport .defaults Unit)
        exhaustedInputs).receiver = true
      ∧ (Observed.run after (create 2 4 : RadioTransport .defaults Unit)
        exhaustedInputs).Remembers ⟨1, 3, 7, 1⟩
      ∧ ¬ Handled (Observed.trace after effects
          (create 2 4 : RadioTransport .defaults Unit) exhaustedInputs) ⟨1, 3, 7, 1⟩
      ∧ ((Observed.run after (create 2 4 : RadioTransport .defaults Unit)
        exhaustedInputs).processInboundPacket openRadios (passing 3)).2 = [] := by
  refine ⟨rfl, exhausted_remembered, ?_, rfl⟩
  have htrace : Observed.trace after effects
      (create 2 4 : RadioTransport .defaults Unit) exhaustedInputs
      = [.interfaceConfigured () true] := rfl
  rw [htrace]
  rintro (⟨message, hmem, -⟩ | ⟨message, result, hmem, -⟩)
  · simp at hmem
  · simp at hmem

end RadioTransport

end EspressioRadio
