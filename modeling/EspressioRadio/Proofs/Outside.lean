/-
What one call does outside: frames to radios, messages to the receiver,
and the sender's own bookkeeping.

A transport has two ways to put frames on the air, a public `Send` and
the forward of a completed slot, and both only send fragments of the one
message they are about (`effects_sentFrames`, `dispatch_sentFrames`).
The receiver is called for a completed slot and nowhere else.
-/
import EspressioRadio.Proofs.Content
import EspressioRadio.Transport.Network

namespace EspressioRadio

variable {b : Bounds} {ρ : Type}

-- ==================================================== reading the events

/-- The events of a completed message. -/
def Event.ofCompletion : Event ρ → Bool
  | .receiverMessage _ => true
  | .messageReceived _ => true
  | .messageForwarded _ _ => true
  | _ => false

@[simp] theorem sentFrames_append (xs ys : List (Event ρ)) :
    sentFrames (xs ++ ys) = sentFrames xs ++ sentFrames ys :=
  List.filterMap_append

@[simp] theorem receiverMessages_append (xs ys : List (Event ρ)) :
    receiverMessages (xs ++ ys) = receiverMessages xs ++ receiverMessages ys :=
  List.filterMap_append

/-- The frames of a list of `radio.Send` calls. -/
@[simp] theorem sentFrames_map_radioSend (calls : List (SendCall ρ)) :
    sentFrames (calls.map .radioSend) = calls.map SendCall.frame := by
  unfold sentFrames
  rw [List.filterMap_map, ← List.filterMap_eq_map]
  rfl

@[simp] theorem receiverMessages_map_radioSend (calls : List (SendCall ρ)) :
    receiverMessages (calls.map .radioSend) = [] := by
  unfold receiverMessages
  rw [List.filterMap_map]
  exact List.filterMap_eq_nil_iff.mpr fun _ _ => rfl

@[simp] theorem sentFrames_map_radioStart (radios : List ρ) :
    sentFrames (radios.map .radioStart) = [] := by
  unfold sentFrames
  rw [List.filterMap_map]
  exact List.filterMap_eq_nil_iff.mpr fun _ _ => rfl

@[simp] theorem sentFrames_map_radioStop (radios : List ρ) :
    sentFrames (radios.map .radioStop) = [] := by
  unfold sentFrames
  rw [List.filterMap_map]
  exact List.filterMap_eq_nil_iff.mpr fun _ _ => rfl

namespace RadioTransport

variable {t : RadioTransport b ρ} {radios : Radios ρ}

-- ============================================================ completion

/-- A completed slot is either delivered here or passed on. -/
theorem dispatch_local {slot : ReassemblyRecord}
    (hd : slot.destination = t.localNode ∨ slot.destination = broadcastNode) :
    t.dispatch radios slot
      = (if t.receiver then [.receiverMessage slot.message] else [])
        ++ [.messageReceived slot.message] :=
  if_pos hd

theorem dispatch_forward {slot : ReassemblyRecord}
    (hd : ¬(slot.destination = t.localNode ∨ slot.destination = broadcastNode))
    (hh : slot.hopLimit > 0) :
    t.dispatch radios slot
      = (t.sendFramed radios slot.forwarded).2.map .radioSend
        ++ [.messageForwarded slot.message
          (t.sendFramed radios slot.forwarded).1] := by
  unfold dispatch
  rw [if_neg hd, if_pos hh]

theorem dispatch_exhausted {slot : ReassemblyRecord}
    (hd : ¬(slot.destination = t.localNode ∨ slot.destination = broadcastNode))
    (hh : ¬ slot.hopLimit > 0) : t.dispatch radios slot = [] := by
  unfold dispatch
  rw [if_neg hd, if_neg hh]

/-- Completion sends fragments of the forwarded message only, and none
without a hop left. -/
theorem dispatch_sentFrames {slot : ReassemblyRecord} {packet : List UInt8}
    (hp : packet ∈ sentFrames (t.dispatch radios slot)) :
    slot.hopLimit > 0 ∧ IsFragment slot.forwarded packet := by
  by_cases hd : slot.destination = t.localNode ∨ slot.destination = broadcastNode
  · rw [dispatch_local hd, sentFrames_append] at hp
    split at hp <;> cases hp
  · by_cases hh : slot.hopLimit > 0
    · rw [dispatch_forward hd hh, sentFrames_append,
        sentFrames_map_radioSend] at hp
      rcases List.mem_append.mp hp with hsent | hnone
      · obtain ⟨call, hcall, rfl⟩ := List.mem_map.mp hsent
        exact ⟨hh, sendFramed_calls t call hcall⟩
      · cases hnone
    · rw [dispatch_exhausted hd hh] at hp
      cases hp

/-- Completion hands the receiver the slot's message, if anything. -/
theorem dispatch_receiverMessages {slot : ReassemblyRecord}
    {message : RadioTransportMessageView}
    (hm : message ∈ receiverMessages (t.dispatch radios slot)) :
    message = slot.message := by
  by_cases hd : slot.destination = t.localNode ∨ slot.destination = broadcastNode
  · rw [dispatch_local hd] at hm
    split at hm
    · simpa [receiverMessages] using hm
    · cases hm
  · by_cases hh : slot.hopLimit > 0
    · rw [dispatch_forward hd hh, receiverMessages_append,
        receiverMessages_map_radioSend] at hm
      cases hm
    · rw [dispatch_exhausted hd hh] at hm
      cases hm

-- ======================================================= the other calls

/-- What a public `Send` comes to when its arguments are valid: the message
framed with the current counters goes to `SendFramed`. -/
theorem send_valid (t : RadioTransport b ρ) (radios : Radios ρ)
    {destination : RadioNodeId} (channel : RadioChannel) {payload : PayloadArgument}
    {bytes : List UInt8} (hd : ¬(destination = 0 ∨ destination = t.localNode))
    (hp : payload.get? = some bytes) :
    t.framing (.send destination channel payload)
        = some (t.outbound destination channel bytes)
      ∧ t.send radios destination channel payload
        = (t.advanceMessageId,
          (t.sendFramed radios (t.outbound destination channel bytes)).1,
          (t.sendFramed radios (t.outbound destination channel bytes)).2.map
              .radioSend
            ++ [.sendCompleted destination channel payload.size
              (t.sendFramed radios (t.outbound destination channel bytes)).1]) := by
  have hf : t.framing (.send destination channel payload)
      = payload.get?.map (t.outbound destination channel) := if_neg hd
  refine ⟨by rw [hf, hp]; rfl, ?_⟩
  unfold send
  dsimp only
  rw [if_neg hd, hp]

/-- A public `Send` is either refused for its arguments, which sends no
frame and leaves the transport as it was, or it frames the message and
advances the message id. -/
theorem send_cases (t : RadioTransport b ρ) (radios : Radios ρ)
    (destination : RadioNodeId) (channel : RadioChannel)
    (payload : PayloadArgument) :
    (t.framing (.send destination channel payload) = none
        ∧ (t.send radios destination channel payload).1 = t
        ∧ sentFrames (t.send radios destination channel payload).2.2 = [])
      ∨ ∃ bytes, t.framing (.send destination channel payload)
          = some (t.outbound destination channel bytes)
        ∧ (t.send radios destination channel payload).1 = t.advanceMessageId
        ∧ sentFrames (t.send radios destination channel payload).2.2
          = (t.sendFramed radios (t.outbound destination channel bytes)).2.map
            SendCall.frame := by
  by_cases hd : destination = 0 ∨ destination = t.localNode
  · refine Or.inl ⟨if_pos hd, ?_⟩
    unfold send
    dsimp only
    rw [if_pos hd]
    exact ⟨rfl, rfl⟩
  · cases hp : payload.get? with
    | none =>
        refine Or.inl ⟨(if_neg hd).trans (by rw [hp]; rfl), ?_⟩
        unfold send
        dsimp only
        rw [if_neg hd, hp]
        exact ⟨rfl, rfl⟩
    | some bytes =>
        obtain ⟨hf, heq⟩ := send_valid t radios channel hd hp
        refine Or.inr ⟨bytes, hf, ?_⟩
        rw [heq]
        refine ⟨rfl, ?_⟩
        dsimp only
        rw [sentFrames_append, sentFrames_map_radioSend]
        exact List.append_nil _

section Calls

variable [DecidableEq ρ] {input : Input ρ}
  (hnot : ∀ packet, input.call ≠ .processInboundPacket packet)

include hnot

/-- Only an inbound packet completes a message. -/
theorem effects_ofCompletion :
    ∀ e ∈ t.effects input, e.ofCompletion = false := by
  have hmap : ∀ {α : Type} (f : α → Event ρ) (xs : List α) (e : Event ρ),
      (∀ x, (f x).ofCompletion = false) → e ∈ xs.map f → e.ofCompletion = false :=
    fun f xs e hf he => by
      obtain ⟨x, -, rfl⟩ := List.mem_map.mp he
      exact hf x
  have hone : ∀ e e' : Event ρ, e'.ofCompletion = false → e ∈ [e'] →
      e.ofCompletion = false := fun e e' h he => by
    rw [List.mem_singleton.mp he]
    exact h
  -- call by call: what each shows is a list of radio calls, then one event of its own
  obtain ⟨radios, call⟩ := input
  intro e he
  unfold effects perform at he
  cases call with
  | processInboundPacket packet => exact absurd rfl (hnot packet)
  | send destination channel payload =>
      dsimp only [send] at he
      split at he
      · exact hone e _ rfl he
      · split at he
        · exact hone e _ rfl he
        · rcases List.mem_append.mp he with hsend | hdone
          · exact hmap _ _ e (fun _ => rfl) hsend
          · exact hone e _ rfl hdone
  | start =>
      rcases List.mem_append.mp he with hradio | hdone
      · exact hmap _ _ e (fun _ => rfl) hradio
      · split at hdone
        · exact hone e _ rfl hdone
        · cases hdone
  | stop =>
      rcases List.mem_append.mp he with hradio | hdone
      · exact hmap _ _ e (fun _ => rfl) hradio
      · split at hdone
        · exact hone e _ rfl hdone
        · cases hdone
  | addInterface radio defaultRoute =>
      dsimp only [addInterface] at he
      split at he
      · exact hone e _ rfl he
      · split at he
        · exact hone e _ rfl he
        · cases he
  | setRoute destination radio nextHop =>
      dsimp only [setRoute] at he
      split at he
      · cases he
      · split at he
        · exact hone e _ rfl he
        · split at he
          · exact hone e _ rfl he
          · cases he
  | removeRoute destination =>
      dsimp only [removeRoute] at he
      split at he
      · exact hone e _ rfl he
      · cases he
  | setReceiver present => cases he

/-- No call but an inbound packet reaches the receiver. -/
theorem effects_receiverMessages : receiverMessages (t.effects input) = [] :=
  List.filterMap_eq_nil_iff.mpr fun e he => by
    have hno := effects_ofCompletion hnot e he
    cases e with
    | receiverMessage message => cases hno
    | _ => rfl

/-- What a call other than an inbound packet sends are fragments of the
message it frames. -/
theorem effects_sentFrames {packet : List UInt8}
    (hp : packet ∈ sentFrames (t.effects input)) :
    ∃ m, t.framing input.call = some m ∧ IsFragment m packet := by
  obtain ⟨radios, call⟩ := input
  unfold effects perform at hp
  cases call with
  | processInboundPacket packet => exact absurd rfl (hnot packet)
  | send destination channel payload =>
      dsimp only at hp ⊢
      rcases send_cases t radios destination channel payload with
        ⟨-, -, hs⟩ | ⟨bytes, hf, -, hs⟩
      · rw [hs] at hp
        cases hp
      · rw [hs] at hp
        obtain ⟨call, hcall, rfl⟩ := List.mem_map.mp hp
        exact ⟨_, hf, sendFramed_calls t call hcall⟩
  | start =>
      dsimp only [start] at hp
      rw [sentFrames_append, sentFrames_map_radioStart] at hp
      split at hp <;> cases hp
  | stop =>
      dsimp only [stop] at hp
      rw [sentFrames_append, sentFrames_map_radioStop] at hp
      split at hp <;> cases hp
  | addInterface radio defaultRoute =>
      dsimp only [addInterface] at hp
      split at hp
      · cases hp
      · split at hp <;> cases hp
  | setRoute destination radio nextHop =>
      dsimp only [setRoute] at hp
      split at hp
      · cases hp
      · split at hp
        · cases hp
        · split at hp <;> cases hp
  | removeRoute destination =>
      dsimp only [removeRoute] at hp
      split at hp <;> cases hp
  | setReceiver present => cases hp

/-- The sender's identity and message counter across a call. -/
theorem after_sender :
    (t.after input).localNode = t.localNode
      ∧ (t.after input).defaultHopLimit = t.defaultHopLimit
      ∧ (t.after input).touchCounter = t.touchCounter
      ∧ (t.after input).nextMessageId
        = (if (t.framing input.call).isSome then t.advanceMessageId
            else t).nextMessageId := by
  obtain ⟨radios, call⟩ := input
  unfold after perform
  cases call with
  | processInboundPacket packet => exact absurd rfl (hnot packet)
  | send destination channel payload =>
      dsimp only
      rcases send_cases t radios destination channel payload with
        ⟨hf, ht, -⟩ | ⟨bytes, hf, ht, -⟩
      · rw [ht, hf]
        exact ⟨rfl, rfl, rfl, rfl⟩
      · rw [ht, hf]
        exact ⟨rfl, rfl, rfl, rfl⟩
  | start => exact ⟨rfl, rfl, rfl, rfl⟩
  | stop => exact ⟨rfl, rfl, rfl, rfl⟩
  | addInterface radio defaultRoute =>
      dsimp only [addInterface]
      split
      · exact ⟨rfl, rfl, rfl, rfl⟩
      · split <;> exact ⟨rfl, rfl, rfl, rfl⟩
  | setRoute destination radio nextHop =>
      dsimp only [setRoute]
      split
      · exact ⟨rfl, rfl, rfl, rfl⟩
      · split
        · exact ⟨rfl, rfl, rfl, rfl⟩
        · split <;> exact ⟨rfl, rfl, rfl, rfl⟩
  | removeRoute destination =>
      dsimp only [removeRoute]
      split <;> exact ⟨rfl, rfl, rfl, rfl⟩
  | setReceiver present => exact ⟨rfl, rfl, rfl, rfl⟩

end Calls

/-- Only a `Send` with valid arguments frames a message: the one made of
the arguments and the sender's own members. -/
theorem framing_send {call : Call ρ} {m : Outbound} (hf : t.framing call = some m) :
    ∃ destination channel payload bytes, call = .send destination channel payload
      ∧ payload.get? = some bytes ∧ m = t.outbound destination channel bytes
      ∧ destination ≠ 0 ∧ destination ≠ t.localNode := by
  unfold framing at hf
  split at hf
  · next destination channel payload =>
    split at hf
    · cases hf
    · next hd =>
      obtain ⟨bytes, hbytes, rfl⟩ := Option.map_eq_some_iff.mp hf
      exact ⟨destination, channel, payload, bytes, rfl, hbytes, rfl,
        fun h => hd (Or.inl h), fun h => hd (Or.inr h)⟩
  · cases hf

/-- The message framed carries the sender's current counters. -/
theorem framing_eq_some {call : Call ρ} {m : Outbound}
    (hf : t.framing call = some m) :
    m.source = t.localNode ∧ m.messageId = t.nextMessageId
      ∧ m.hopLimit = t.defaultHopLimit ∧ m.destination ≠ 0
      ∧ m.destination ≠ t.localNode := by
  obtain ⟨destination, channel, payload, bytes, -, -, rfl, hne, hlocal⟩ := framing_send hf
  exact ⟨rfl, rfl, rfl, hne, hlocal⟩

end RadioTransport

end EspressioRadio
