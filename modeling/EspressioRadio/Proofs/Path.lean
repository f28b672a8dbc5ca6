/-
End to end over busy nodes.

A relay takes fragments of the one message in amid whatever else it
hears. As long as every fragment of the message it hears is one its link
carried, whatever it hands on under the message's name is the message
(`Inbox.Pure`); and if it is paced, it hands it on (`Awaits`). So the next
link carries all fragments of the message, as that link cuts them, and no
others (`Path.Ready.carries`), until no hop is left.

Nothing is said of how the nodes' calls interleave: a frame heard is one
that was on the link before it, but no step of the argument needs that.
-/
import EspressioRadio.Proofs.Chain
import EspressioRadio.Proofs.Traffic
import EspressioRadio.Transport.Path

namespace EspressioRadio

open Chunks TakenFragment

variable {b : Bounds} {ρ : Type}

-- ================================================== parcels of a message

/-- The packet, if of this message, is a fragment as told by `Q`. -/
def Heeded (id : MessageIdentity) (Q : TakenFragment → Prop)
    (packet : List UInt8) : Prop :=
  ∀ h, decodeHeader packet = some h → h.identity = id → Q ⟨h, packetBody packet⟩

namespace Inbox

variable {I : Inbox b} {id : MessageIdentity} {Q : TakenFragment → Prop} {p q : Parcel}
  {localNode : RadioNodeId} {packet : List UInt8}

/-- The parcels underway for this message hold only fragments of this kind. -/
def Pure (I : Inbox b) (id : MessageIdentity) (Q : TakenFragment → Prop) : Prop :=
  ∀ p ∈ I.underway, p.identity = id → ∀ f ∈ p.taken, Q f

theorem mem_keep (hq : q ∈ (I.keep p).underway) : q = p ∨ q ∈ I.underway := by
  rcases List.mem_cons.mp hq with rfl | hold
  · exact Or.inl rfl
  · exact Or.inr (LruCache.mem_without.mp (List.mem_of_mem_take hold)).1

/-- Accepting a parcel of such fragments, kept underway or handed over,
leaves only such fragments there. -/
theorem Pure.accept (hI : I.Pure id Q) (hp : ∀ f ∈ p.taken, Q f) :
    (I.accept p).1.Pure id Q
      ∧ ∀ q ∈ (I.accept p).2, (∀ f ∈ q.taken, Q f) ∧ q.isComplete = true := by
  have hkeep : (I.keep p).Pure id Q := by
    intro q hq hid
    rcases mem_keep hq with rfl | hold
    · exact hp
    · exact hI q hold hid
  unfold Inbox.accept
  split
  · next hcomplete =>
    refine ⟨fun q hq => hkeep q (LruCache.mem_without.mp hq).1, fun q hq => ?_⟩
    rw [← Option.mem_some.mp hq]
    exact ⟨hp, hcomplete⟩
  · exact ⟨hkeep, fun q hq => nomatch hq⟩

/-- A packet leaves it so, and what it completes of the message is made of
such fragments. -/
theorem Pure.receive (hI : I.Pure id Q) (hheeded : Heeded id Q packet) :
    (I.receive localNode packet).1.Pure id Q
      ∧ ∀ q ∈ (I.receive localNode packet).2, q.identity = id →
        (∀ f ∈ q.taken, Q f) ∧ q.isComplete = true := by
  cases hd : decodeHeader packet with
  | none =>
      rw [receive_undecodable hd]
      exact ⟨hI, fun q hq => nomatch hq⟩
  | some h =>
      by_cases hid : h.identity = id
      · have hfragment := hheeded h hd hid
        -- a packet under the name: it is dropped, or joins what came in of the
        -- message
        have hquiet : ∀ J : Inbox b, J.Pure id Q →
            J.Pure id Q ∧ ∀ q ∈ (none : Option Parcel), q.identity = id →
              (∀ f ∈ q.taken, Q f) ∧ q.isComplete = true :=
          fun J hJ => ⟨hJ, fun q hq => nomatch hq⟩
        have haccept : ∀ p : Parcel, (∀ f ∈ p.taken, Q f) →
            (I.accept p).1.Pure id Q ∧ ∀ q ∈ (I.accept p).2, q.identity = id →
              (∀ f ∈ q.taken, Q f) ∧ q.isComplete = true := by
          intro p hp
          obtain ⟨hpure, hhanded⟩ := hI.accept hp
          exact ⟨hpure, fun q hq _ => hhanded q hq⟩
        simp only [Inbox.receive, hd]
        split
        · exact hquiet I hI
        · split
          · next p hfind =>
            obtain ⟨hp, hpid⟩ := (LruCache.find?_eq_some_iff I.keyed).mp hfind
            split
            · refine haccept _ fun f hf => ?_
              rw [Parcel.taken_add] at hf
              rcases List.mem_append.mp hf with hold | hnew
              · exact hI p hp (hpid.trans hid) f hold
              · rw [List.mem_singleton.mp hnew]
                exact hfragment
            · exact hquiet _ fun q hq => hI q (LruCache.mem_without.mp hq).1
          · split
            · exact hquiet _ fun q hq => hI q (List.mem_of_mem_take hq)
            · refine haccept _ fun f hf => ?_
              rw [List.mem_singleton.mp hf]
              exact hfragment
      · -- a packet under another name only drops parcels of this one
        have hr : Received I h (I.receive localNode packet) := receive_received hd
        refine ⟨fun q hq hqid => ?_, fun q hq hqid => ?_⟩
        · rcases hr.mem_underway hq with hold | hnow
          · exact hI q hold hqid
          · exact absurd (hnow.symm.trans hqid) hid
        · exact absurd ((hr.handed hq).symm.trans hqid) hid

end Inbox

/-- The fragment is one of the message's own. -/
def Cut.Owns (x : Cut) (f : TakenFragment) : Prop :=
  ∃ i < x.count, f = x.piece x.message.hopLimit i

namespace Parcel

variable {p : Parcel} {x : Cut}

theorem gathers_of_owns (hp : ∀ f ∈ p.taken, x.Owns f) :
    p.Gathers x fun i => ∃ f ∈ p.taken, f.index = i where
  ours := by
    intro f hf
    obtain ⟨i, hi, heq⟩ := hp f hf
    exact ⟨_, i, hi, heq⟩
  seen_iff := fun _ => Iff.rfl

/-- Complete and of its own fragments, a parcel is the message, with the
hop limit they have. -/
theorem whole_of_owns (hp : ∀ f ∈ p.taken, x.Owns f) (hx : x.Sends)
    (hcomplete : p.isComplete = true) :
    p.view = x.message.view
      ∧ p.forwarded = x.message.withHops (x.message.hopLimit - 1)
      ∧ p.first.header.hopLimit = x.message.hopLimit := by
  have hgathers := gathers_of_owns hp
  have hall := (hgathers.isComplete_iff hx).mp hcomplete
  have hid := (hgathers.spec hx).1
  have hhop : p.first.header.hopLimit = x.message.hopLimit := by
    obtain ⟨i, -, hfirst⟩ := hp p.first List.mem_cons_self
    rw [hfirst]
    rfl
  refine ⟨hgathers.view_eq hx hall, ?_, hhop⟩
  unfold forwarded
  rw [hid, hhop, hgathers.payload_eq hx hall]
  rfl

end Parcel

-- ===================================================== under its name

/-- The event shows something of this message outside. -/
def Event.Names (id : MessageIdentity) : Event ρ → Prop
  | .radioSend call => ∃ h, decodeHeader call.frame = some h ∧ h.identity = id
  | .receiverMessage message => message.identity = id
  | .messageForwarded message _ => message.identity = id
  | _ => False

theorem mem_ofMessage {id : MessageIdentity} {packets : List (List UInt8)}
    {packet : List UInt8} :
    packet ∈ ofMessage id packets
      ↔ packet ∈ packets ∧ ∃ h, decodeHeader packet = some h ∧ h.identity = id := by
  unfold ofMessage
  rw [List.mem_filter, Option.any_eq_true]
  simp

/-- A frame of the message on a link is one its node sent over it. -/
theorem mem_ofMessage_link {id : MessageIdentity} {out : ρ} [DecidableEq ρ]
    {events : List (Event ρ)} {frame : List UInt8}
    (hmem : frame ∈ ofMessage id (events.filterMap (linkFrame out))) :
    ∃ call : SendCall ρ, Event.radioSend call ∈ events ∧ call.frame = frame
      ∧ (Event.radioSend call).Names id := by
  obtain ⟨hlink, hnamed⟩ := mem_ofMessage.mp hmem
  obtain ⟨e, he, hframe⟩ := List.mem_filterMap.mp hlink
  cases e with
  | radioSend call =>
      have heq : call.frame = frame := by
        unfold linkFrame at hframe
        dsimp only at hframe
        split at hframe
        · exact Option.some.inj hframe
        · cases hframe
      exact ⟨call, he, heq, by rw [← heq] at hnamed; exact hnamed⟩
  | _ => cases hframe

namespace RadioTransport

variable {t : RadioTransport b ρ} {radios : Radios ρ} {p : Parcel} {id : MessageIdentity}
  {e : Event ρ}

/-- A message handed on is shown under its own name only. -/
theorem deliver_names (he : e ∈ t.deliver radios p) (hid : e.Names id) :
    p.identity = id := by
  unfold deliver at he
  split at he
  · rcases List.mem_append.mp he with hmessage | hreceived
    · split at hmessage
      · rw [List.mem_singleton.mp hmessage] at hid
        exact hid
      · cases hmessage
    · rw [List.mem_singleton.mp hreceived] at hid
      exact hid.elim
  · split at he
    · rcases List.mem_append.mp he with hsent | hforwarded
      · obtain ⟨call, hcall, rfl⟩ := List.mem_map.mp hsent
        obtain ⟨h, hd, hname⟩ := (sendFramed_calls t call hcall).decodes
        obtain ⟨h', hd', hname'⟩ := hid
        rw [hd] at hd'
        rw [← hname', ← Option.some.inj hd', hname]
        rfl
      · rw [List.mem_singleton.mp hforwarded] at hid
        exact hid
    · cases he

/-- A call that brings in no packet shows only messages from this node. -/
theorem effects_names [DecidableEq ρ] {input : Input ρ}
    (hnot : ∀ packet, input.call ≠ .processInboundPacket packet)
    (he : e ∈ t.effects input) (hid : e.Names id) : id.source = t.localNode := by
  cases e with
  | radioSend call =>
      have hsent : call.frame ∈ sentFrames (t.effects input) :=
        List.mem_filterMap.mpr ⟨_, he, rfl⟩
      obtain ⟨m, hm, hf⟩ := effects_sentFrames hnot hsent
      obtain ⟨h, hd, hname⟩ := hf.decodes
      obtain ⟨h', hd', hname'⟩ := hid
      rw [hd] at hd'
      rw [← hname', ← Option.some.inj hd', hname]
      exact (framing_eq_some hm).1
  | receiverMessage message => cases effects_ofCompletion hnot _ he
  | messageForwarded message result => cases effects_ofCompletion hnot _ he
  | _ => exact hid.elim

end RadioTransport

-- ============================================================= one node

namespace Ideal

variable [DecidableEq ρ] {y : Ideal b ρ} {id : MessageIdentity} {Q : TakenFragment → Prop}
  {input : Input ρ}

theorem after_localNode (y : Ideal b ρ) (input : Input ρ) :
    (y.after input).node.localNode = y.node.localNode := by
  obtain ⟨radios, call⟩ := input
  cases call with
  | processInboundPacket packet => rfl
  | _ => exact RadioTransport.after_localNode ..

/-- What a call shows under the name of a message from elsewhere is one
complete parcel handed on. -/
theorem after_pure (hy : y.inbox.Pure id Q)
    (hheeded : ∀ packet ∈ input.packet?, Heeded id Q packet)
    (hsource : id.source ≠ y.node.localNode) :
    (y.after input).inbox.Pure id Q
      ∧ ∀ e ∈ y.effects input, e.Names id →
        ∃ p : Parcel, (∀ f ∈ p.taken, Q f) ∧ p.isComplete = true ∧ p.identity = id
          ∧ e ∈ y.node.deliver input.radios p := by
  obtain ⟨radios, call⟩ := input
  have hother : (∀ packet, call ≠ .processInboundPacket packet) →
      ∀ e ∈ y.node.effects ⟨radios, call⟩, ¬ e.Names id := by
    intro hnot e he hid
    exact hsource (RadioTransport.effects_names hnot he hid)
  cases call with
  | processInboundPacket packet =>
      obtain ⟨hpure, hhanded⟩ :
          (y.inbox.receive y.node.localNode packet).1.Pure id Q ∧ _ :=
        hy.receive (hheeded packet rfl)
      refine ⟨hpure, fun e he hid => ?_⟩
      obtain ⟨p, hp, hep⟩ := List.mem_flatMap.mp he
      have hpid := RadioTransport.deliver_names hep hid
      obtain ⟨hfragments, hcomplete⟩ := hhanded p (Option.mem_toList.mp hp) hpid
      exact ⟨p, hfragments, hcomplete, hpid, hep⟩
  | stop =>
      have hempty : (y.inbox.clear).Pure id Q := fun p hp => nomatch hp
      refine ⟨hempty, fun e he hid => ?_⟩
      exact absurd hid (hother (fun _ h => nomatch h) e he)
  | _ =>
      refine ⟨hy, fun e he hid => ?_⟩
      exact absurd hid (hother (fun _ h => nomatch h) e he)

end Ideal

namespace Waypoint

variable [DecidableEq ρ]

/-- A message from elsewhere, new to the node as it sets out, and what the
node then hears under its name. -/
structure Heeds (w : Waypoint b ρ) (id : MessageIdentity) (Q : TakenFragment → Prop) :
    Prop where
  source_ne : id.source ≠ w.localNode
  faithful : Observed.Along RadioTransport.after RadioTransport.Faithful
    (.create w.localNode w.defaultHopLimit : RadioTransport b ρ) (w.before ++ w.calls)
  unknown : ¬ w.start.Knows id
  heeded : ∀ packet ∈ packetsOf w.calls, Heeded id Q packet

/-- The inbox the node implements after some of its calls. -/
def ideal (w : Waypoint b ρ) (past : List (Input ρ)) : Ideal b ρ :=
  Observed.run Ideal.after (.create w.localNode w.defaultHopLimit) (w.before ++ past)

variable {w : Waypoint b ρ} {past later : List (Input ρ)} {input : Input ρ}

theorem start_localNode : w.start.localNode = w.localNode :=
  RadioTransport.run_localNode ..

omit [DecidableEq ρ] in
theorem mem_packetsOf {inputs : List (Input ρ)} {packet : List UInt8}
    (hinput : input ∈ inputs) (hpacket : packet ∈ input.packet?) :
    packet ∈ packetsOf inputs :=
  List.mem_filterMap.mpr ⟨input, hinput, hpacket⟩

section Heeds

variable {id : MessageIdentity} {Q : TakenFragment → Prop} (h : w.Heeds id Q)

include h

/-- At every call the node implements that inbox, with nothing in it under
the message's name but what it heard. -/
theorem Heeds.implements (hcalls : w.calls = past ++ later) :
    (Observed.run RadioTransport.after w.start past).Implements (w.ideal past)
      ∧ (w.ideal past).inbox.Pure id Q := by
  obtain ⟨hbefore, hrun⟩ := Observed.along_append.mp h.faithful
  rw [hcalls] at hrun
  obtain ⟨hy, -⟩ :=
    (RadioTransport.implements_create w.localNode w.defaultHopLimit).run hbefore
  obtain ⟨hpast, -⟩ := hy.run (Observed.along_append.mp hrun).1
  rw [ideal, Observed.run_append]
  refine ⟨hpast, ?_⟩
  have hlocal := hy.localNode_eq
  rw [RadioTransport.run_localNode] at hlocal
  have hfirst : (Observed.run Ideal.after (Ideal.create w.localNode w.defaultHopLimit)
      w.before : Ideal b ρ).inbox.Pure id Q := by
    intro p hp hid
    obtain ⟨cell, hh, hk⟩ := hy.shelved
    obtain ⟨i, hi⟩ := hk.mem_iff.mp hp
    have his := hh.of_some i p hi
    exact absurd (Or.inr ⟨i, his.used, his.identity.trans hid⟩) h.unknown
  have hinv : ∀ (y : Ideal b ρ) (input : Input ρ),
      (∀ packet ∈ input.packet?, Heeded id Q packet) →
      (y.inbox.Pure id Q ∧ y.node.localNode = w.localNode) →
      ((y.after input).inbox.Pure id Q
        ∧ (y.after input).node.localNode = w.localNode) := by
    intro y input hheeded ⟨hpure, hnode⟩
    exact ⟨(Ideal.after_pure hpure hheeded (hnode ▸ h.source_ne)).1,
      (y.after_localNode input).trans hnode⟩
  refine (Observed.invariant_along hinv ⟨hfirst, hlocal⟩
    (Observed.along_of_forall ?_ _)).1
  intro input hinput packet hpacket
  apply h.heeded packet
  rw [hcalls]
  exact mem_packetsOf (List.mem_append_left _ hinput) hpacket

/-- One call of the run: the inbox that the transport implements shows the
same and is for the same node. -/
theorem Heeds.call (hcalls : w.calls = past ++ input :: later) :
    (w.ideal past).node.localNode = w.localNode
      ∧ (∀ packet ∈ input.packet?, Heeded id Q packet)
      ∧ (Observed.run RadioTransport.after w.start past).effects input
        = (w.ideal past).effects input := by
  obtain ⟨hy, -⟩ := h.implements hcalls
  obtain ⟨-, hrun⟩ := Observed.along_append.mp h.faithful
  rw [hcalls] at hrun
  have hfaithful := (Observed.along_append.mp hrun).2.1
  have hlocal := hy.localNode_eq
  rw [RadioTransport.run_localNode, start_localNode] at hlocal
  refine ⟨hlocal, fun packet hpacket => ?_, (hy.after hfaithful).2⟩
  apply h.heeded packet
  rw [hcalls]
  exact mem_packetsOf (List.mem_append_right _ List.mem_cons_self) hpacket

/-- Whatever the node shows under the message's name is a complete parcel
of what it heard, handed on. -/
theorem Heeds.shown {e : Event ρ} (he : e ∈ w.shown) (hid : e.Names id) :
    ∃ past input later, ∃ p : Parcel, w.calls = past ++ input :: later
      ∧ (∀ f ∈ p.taken, Q f) ∧ p.isComplete = true ∧ p.identity = id
      ∧ e ∈ (Observed.run RadioTransport.after w.start past).deliver input.radios p := by
  obtain ⟨past, input, later, hcalls, hstep⟩ := Observed.mem_trace he
  obtain ⟨hy, hpure⟩ := h.implements hcalls
  obtain ⟨hlocal, hheeded, heffects⟩ := h.call hcalls
  rw [heffects] at hstep
  obtain ⟨p, hfragments, hcomplete, hpid, hep⟩ :=
    (Ideal.after_pure hpure hheeded (hlocal ▸ h.source_ne)).2 e hstep hid
  rw [hy.node_eq] at hep
  exact ⟨past, input, later, p, hcalls, hfragments, hcomplete, hpid, hep⟩

end Heeds

/-- A node that hears nothing under the message's name shows nothing under
it. -/
theorem Heeds.silent {id : MessageIdentity} (h : w.Heeds id fun _ => False) {e : Event ρ}
    (he : e ∈ w.shown) : ¬ e.Names id := by
  intro hid
  obtain ⟨-, -, -, p, -, hnone, -⟩ := h.shown he hid
  exact hnone p.first List.mem_cons_self

/-- What the node hears of a message: all of its fragments, in any order
and number and amid any others, nothing else under its name, and at a pace
that keeps it from being pushed out. -/
structure Hears (w : Waypoint b ρ) (x : Cut) : Prop where
  admitted : Inbox.Admitted b w.localNode x
  faithful : Observed.Along RadioTransport.after RadioTransport.Faithful
    (.create w.localNode w.defaultHopLimit : RadioTransport b ρ) (w.before ++ w.calls)
  unknown : ¬ w.start.Knows x.identity
  running : ∀ input ∈ w.calls, input.call ≠ .stop
  allows : ∀ packet ∈ packetsOf w.calls, ∀ h, decodeHeader packet = some h →
    h.identity = x.identity → ∃ i < x.count, packet = x.fragment x.message.hopLimit i
  whole : ∀ i < x.count, x.fragment x.message.hopLimit i ∈ packetsOf w.calls
  paced : ∀ past packet, past ++ [packet] <+: packetsOf w.calls →
    (∃ i < x.count, x.fragment x.message.hopLimit i ∉ past) →
    Paced b.maxReassemblies x.identity (heard (past ++ [packet]))

section Hears

variable {x : Cut} (h : w.Hears x)

include h

theorem Hears.heeds : w.Heeds x.identity x.Owns where
  source_ne := h.admitted.source_ne_local
  faithful := h.faithful
  unknown := h.unknown
  heeded := by
    intro packet hpacket header hd hid
    obtain ⟨i, hi, rfl⟩ := h.allows packet hpacket header hd hid
    rw [Cut.decode_fragment h.admitted.sends hi] at hd
    rw [← Option.some.inj hd]
    exact ⟨i, hi, rfl⟩

/-- The index of a fragment is in exactly when the very fragment is, for
there are no other copies. -/
theorem Hears.seen_iff {packets : List (List UInt8)} (hsub : packets ⊆ packetsOf w.calls)
    {i : Nat} (hi : i < x.count) :
    x.Seen packets i ↔ x.fragment x.message.hopLimit i ∈ packets := by
  have hx := h.admitted.sends
  constructor
  · intro ⟨_, hop, hmem⟩
    obtain ⟨k, hk, heq⟩ := h.allows _ (hsub hmem) _ (Cut.decode_fragment hx hi hop)
      (Cut.header_identity hx hi hop)
    rw [(Cut.fragment_inj hx hx hi hk heq).2]
    rw [heq] at hmem
    exact hmem
  · intro hmem
    exact ⟨hi, _, hmem⟩

/-- Until the last of its fragments comes in, the message is paced. -/
theorem Hears.paced_past {packets : List (List UInt8)}
    (hpre : packets <+: packetsOf w.calls)
    (hmissing : ∃ i < x.count, x.fragment x.message.hopLimit i ∉ packets) :
    Paced b.maxReassemblies x.identity (heard packets) := by
  rcases List.eq_nil_or_concat packets with rfl | ⟨past, packet, rfl⟩
  · intro k hk
    cases hk
  · rw [List.concat_eq_append] at hpre hmissing ⊢
    obtain ⟨i, hi, hnot⟩ := hmissing
    exact h.paced past packet hpre ⟨i, hi, fun hmem => hnot (List.mem_append_left _ hmem)⟩

/-- Until all of the message's fragments have come in, the inbox awaits it. -/
theorem Hears.awaits (hcalls : w.calls = past ++ later)
    (hmissing : ∃ i < x.count, x.fragment x.message.hopLimit i ∉ packetsOf past) :
    (w.ideal past).inbox.Awaits x (packetsOf past) := by
  have hpre : packetsOf past <+: packetsOf w.calls := by
    rw [hcalls]
    exact (List.prefix_append _ later).filterMap _
  obtain ⟨hbefore, -⟩ := Observed.along_append.mp h.faithful
  obtain ⟨hy, -⟩ :=
    (RadioTransport.implements_create w.localNode w.defaultHopLimit).run hbefore
  have hlocal := hy.localNode_eq
  rw [RadioTransport.run_localNode] at hlocal
  have hin : ∀ input ∈ past, input ∈ w.calls := fun input hinput => by
    rw [hcalls]
    exact List.mem_append_left _ hinput
  rw [ideal, Observed.run_append]
  refine (Ideal.awaits_run (hy.awaits h.unknown) ?_
    (fun input hinput => h.running input (hin input hinput)) ?_ ?_ ?_).1
  · rw [hlocal]
    exact h.admitted
  · intro input hinput packet hpacket header hd hid
    obtain ⟨i, hi, heq⟩ := h.allows packet
      (mem_packetsOf (hin input hinput) hpacket) header hd hid
    exact ⟨_, i, hi, heq⟩
  · exact h.paced_past hpre hmissing
  · obtain ⟨i, hi, hnot⟩ := hmissing
    exact ⟨i, hi, fun hseen => hnot ((h.seen_iff hpre.subset hi).mp hseen)⟩

/-- With the last fragment missing, the inbox completes a parcel of the
message's own fragments, and hands it on. -/
theorem Hears.completes :
    ∃ past input later, ∃ p : Parcel, w.calls = past ++ input :: later
      ∧ (∀ f ∈ p.taken, x.Owns f) ∧ p.isComplete = true ∧ p.identity = x.identity
      ∧ (Observed.run RadioTransport.after w.start past).effects input
        = (Observed.run RadioTransport.after w.start past).deliver input.radios p := by
  have hx := h.admitted.sends
  have hpos : 0 < x.count := chunkCount_pos hx.chunk_pos
  obtain ⟨past, input, later, hcalls, hbefore, hnow⟩ := Observed.exists_turning
    (P := fun inputs => ∀ i < x.count, x.fragment x.message.hopLimit i ∈ packetsOf inputs)
    (fun hnil => nomatch hnil 0 hpos) h.whole
  simp only [not_forall] at hbefore
  obtain ⟨i, hi, hmissing⟩ := hbefore
  have hconcat : packetsOf (past ++ [input])
    = packetsOf past ++ input.packet?.toList := by
    unfold packetsOf
    rw [List.filterMap_append]
    cases hpacket : input.packet? <;> simp [hpacket]
  have hpre : packetsOf (past ++ [input]) <+: packetsOf w.calls := by
    rw [hcalls, show past ++ input :: later = (past ++ [input]) ++ later by simp]
    exact (List.prefix_append _ later).filterMap _
  rw [hconcat] at hnow hpre
  -- the fragment missing so far is the packet
  have hlast : input.packet? = some (x.fragment x.message.hopLimit i) := by
    rcases List.mem_append.mp (hnow i hi) with hold | hnew
    · exact absurd hold hmissing
    · exact Option.mem_toList.mp hnew
  rw [hlast, Option.toList_some] at hnow hpre
  have hpast : packetsOf past <+: packetsOf w.calls := (List.prefix_append ..).trans hpre
  obtain ⟨hy, hpure⟩ := h.heeds.implements hcalls
  obtain ⟨hlocal, hheeded, heffects⟩ := h.heeds.call hcalls
  have hawaits := h.awaits hcalls ⟨i, hi, hmissing⟩
  obtain ⟨p, hp, -, hpid⟩ := hawaits.own_last (hlocal ▸ h.admitted) hi
    (h.paced _ _ hpre ⟨i, hi, hmissing⟩)
    fun k hk => ((h.seen_iff hpre.subset hk).mpr (hnow k hk))
  obtain ⟨hown, hcomplete⟩ := (hpure.receive (hheeded _ hlast)).2 p hp hpid
  refine ⟨past, input, later, p, hcalls, hown, hcomplete, hpid, ?_⟩
  obtain ⟨radios, call⟩ := input
  cases call with
  | processInboundPacket packet =>
      obtain rfl : packet = x.fragment x.message.hopLimit i := Option.some.inj hlast
      rw [heffects]
      show ((w.ideal past).inbox.receive _ _).2.toList.flatMap
        ((w.ideal past).node.deliver radios)
        = _
      rw [hp, hy.node_eq]
      exact List.append_nil _
  | _ => cases hlast

end Hears

end Waypoint

-- ======================================================== over its link

/-- The call finds a route to the destination over this radio, which is
started, cuts at this size, and takes whatever it is handed. -/
structure RadioTransport.LinkUp (destination : RadioNodeId) (out : ρ) (c : Nat)
    (t : RadioTransport b ρ) (radios : Radios ρ) : Prop where
  route : ∃ route, t.findRoute destination = some route ∧ route.radio = some out
  started : radios.isStarted out = true
  lossless : ∀ index, (radios.send out index).ok = true
  chunk_eq : fragmentPayloadBytes radios out = c

namespace RadioTransport

variable {t : RadioTransport b ρ} {radios : Radios ρ} {m : Outbound} {out : ρ} {c : Nat}

/-- A message with the link's route goes over the link, all of it. -/
theorem LinkUp.sends [DecidableEq ρ] (h : LinkUp m.destination out c t radios)
    (hd : m.destination ≠ broadcastNode) (hs : Sendable m.payload c)
    (hsize : m.payload.length ≤ b.maxMessageBytes) :
    ((t.sendFramed radios m).2.map Event.radioSend).filterMap (linkFrame out)
        = frames m c (chunkCount m.payload.length c)
      ∧ (t.sendFramed radios m).2.map SendCall.frame
        = frames m c (chunkCount m.payload.length c) := by
  obtain ⟨route, hroute, hradio⟩ := h.route
  have hg : SendViaGuard b radios out m.payload :=
    ⟨h.started, hsize, h.chunk_eq.symm ▸ hs⟩
  rw [sendFramed_route hd hroute hradio]
  refine ⟨?_, ?_⟩
  · rw [sendVia_linkFrames hg h.lossless, h.chunk_eq]
    rfl
  · rw [(sendVia_frames (sendVia_ok hg h.lossless)).2, h.chunk_eq]

end RadioTransport

theorem mem_forwardedMessages {events : List (Event ρ)}
    {message : RadioTransportMessageView} :
    message ∈ forwardedMessages events
      ↔ ∃ result, .messageForwarded message result ∈ events := by
  unfold forwardedMessages
  rw [List.mem_filterMap]
  constructor
  · intro ⟨e, he, hmessage⟩
    cases e with
    | messageForwarded message' result =>
        obtain rfl : message' = message := Option.some.inj hmessage
        exact ⟨result, he⟩
    | _ => cases hmessage
  · intro ⟨result, he⟩
    exact ⟨_, he, rfl⟩

theorem mem_receiverMessages {events : List (Event ρ)}
    {message : RadioTransportMessageView} :
    message ∈ receiverMessages events ↔ .receiverMessage message ∈ events := by
  unfold receiverMessages
  rw [List.mem_filterMap]
  constructor
  · intro ⟨e, he, hmessage⟩
    cases e with
    | receiverMessage message' =>
        obtain rfl : message' = message := Option.some.inj hmessage
        exact he
    | _ => cases hmessage
  · intro he
    exact ⟨_, he, rfl⟩

theorem mem_frames {m : Outbound} {c k : Nat} {packet : List UInt8} :
    packet ∈ frames m c k ↔ ∃ i < k, packet = frame m c i := by
  unfold frames
  simp only [List.mem_map, List.mem_range, eq_comm]

namespace Waypoint

variable [DecidableEq ρ] {w : Waypoint b ρ} {x : Cut} {c : Nat}

/-- What one call of the node shows is among what its run shows. -/
theorem effects_subset_shown {past later : List (Input ρ)} {input : Input ρ}
    (hcalls : w.calls = past ++ input :: later) :
    (Observed.run RadioTransport.after w.start past).effects input ⊆ w.shown := by
  intro e he
  rw [shown, hcalls, Observed.trace_append, Observed.trace_cons]
  exact List.mem_append_right _ (List.mem_append_left _ he)

/-- A node the message passes shows nothing of it without a hop left. -/
theorem Hears.exhausted (h : w.Hears x)
    (hpasses : ¬(x.message.destination = w.localNode
      ∨ x.message.destination = broadcastNode))
    (hhop : ¬ x.message.hopLimit > 0) {e : Event ρ} (he : e ∈ w.shown) :
    ¬ e.Names x.identity := by
  intro hname
  obtain ⟨past, input, later, p, -, hown, hcomplete, hid, hep⟩ := h.heeds.shown he hname
  have hlimit := (Parcel.whole_of_owns hown h.admitted.sends hcomplete).2.2
  have hnot : ¬(p.identity.destination
        = (Observed.run RadioTransport.after w.start past).localNode
      ∨ p.identity.destination = broadcastNode) := by
    rw [hid, RadioTransport.run_localNode, start_localNode]
    exact hpasses
  unfold RadioTransport.deliver at hep
  rw [if_neg hnot, if_neg (hlimit ▸ hhop)] at hep
  cases hep

section Relay

variable (h : w.Hears x)
  (hpasses : ¬(x.message.destination = w.localNode
    ∨ x.message.destination = broadcastNode))
  (hhop : x.message.hopLimit > 0)

include h hpasses hhop

/-- A whole parcel of the message, at a node it only passes, is forwarded
there or dropped. -/
theorem Hears.deliver_relay {past : List (Input ρ)} {p : Parcel}
    (hown : ∀ f ∈ p.taken, x.Owns f)
    (hcomplete : p.isComplete = true) (hid : p.identity = x.identity)
    (radios : Radios ρ) :
    (Observed.run RadioTransport.after w.start past).deliver radios p
      = ((Observed.run RadioTransport.after w.start past).sendFramed radios
            (x.message.withHops (x.message.hopLimit - 1))).2.map .radioSend
        ++ [.messageForwarded x.message.view
          ((Observed.run RadioTransport.after w.start past).sendFramed radios
            (x.message.withHops (x.message.hopLimit - 1))).1] := by
  obtain ⟨hview, hforwarded, hlimit⟩ :=
    Parcel.whole_of_owns hown h.admitted.sends hcomplete
  have hnot : ¬(p.identity.destination
        = (Observed.run RadioTransport.after w.start past).localNode
      ∨ p.identity.destination = broadcastNode) := by
    rw [hid, RadioTransport.run_localNode, start_localNode]
    exact hpasses
  unfold RadioTransport.deliver
  rw [if_neg hnot, if_pos (hlimit ▸ hhop), hview, hforwarded]

/-- A relay passes the message on: its link carries all fragments of it
with a hop less and no others, and under its name it shows nothing else. -/
theorem Hears.relays
    (hup : Observed.Along RadioTransport.after
      (fun t input =>
        t.LinkUp x.message.destination w.out c input.radios) w.start w.calls)
    (hs : Sendable x.message.payload c)
    (hsize : x.message.payload.length ≤ b.maxMessageBytes) :
    (∀ frame, frame ∈ ofMessage x.identity w.onLink
        ↔ frame ∈ frames (x.message.withHops (x.message.hopLimit - 1)) c
          (chunkCount x.message.payload.length c))
      ∧ x.message.view ∈ forwardedMessages w.shown
      ∧ (∀ message ∈ forwardedMessages w.shown, message.identity = x.identity →
        message = x.message.view)
      ∧ ∀ message ∈ receiverMessages w.shown, message.identity ≠ x.identity := by
  have hbroadcast : x.message.destination ≠ broadcastNode :=
    fun heq => hpasses (Or.inr heq)
  have hsends : ∀ {past : List (Input ρ)} {input later},
      w.calls = past ++ input :: later →
      _ ∧ _ := fun hcalls =>
    RadioTransport.LinkUp.sends (m := x.message.withHops (x.message.hopLimit - 1))
      (by rw [hcalls] at hup; exact (Observed.along_append.mp hup).2.1) hbroadcast hs hsize
  -- whatever is shown under the name
  have hshown : ∀ e ∈ w.shown, e.Names x.identity →
      (∃ call, e = .radioSend call
        ∧ call.frame ∈ frames (x.message.withHops (x.message.hopLimit - 1)) c
          (chunkCount x.message.payload.length c))
      ∨ ∃ result, e = .messageForwarded x.message.view result := by
    intro e he hname
    obtain ⟨past, input, later, p, hcalls, hown, hcomplete, hid, hep⟩ :=
      h.heeds.shown he hname
    rw [h.deliver_relay hpasses hhop hown hcomplete hid] at hep
    rcases List.mem_append.mp hep with hsent | hforwarded
    · obtain ⟨call, hcall, rfl⟩ := List.mem_map.mp hsent
      exact Or.inl ⟨call, rfl, (hsends hcalls).2 ▸ List.mem_map_of_mem hcall⟩
    · exact Or.inr ⟨_, List.mem_singleton.mp hforwarded⟩
  obtain ⟨past, input, later, p, hcalls, hown, hcomplete, hid, heffects⟩ := h.completes
  rw [h.deliver_relay hpasses hhop hown hcomplete hid] at heffects
  have hsubset := effects_subset_shown hcalls
  rw [heffects] at hsubset
  refine ⟨fun frame => ⟨fun hmem => ?_, fun hmem => ?_⟩, ?_,
    fun message hmessage hname => ?_,
    fun message hmessage hname => ?_⟩
  · obtain ⟨call, hcall, rfl, hname⟩ := mem_ofMessage_link hmem
    rcases hshown _ hcall hname with ⟨call', heq, hframe⟩ | ⟨result, heq⟩
    · rw [Event.radioSend.inj heq]
      exact hframe
    · cases heq
  · refine mem_ofMessage.mpr ⟨?_, ?_⟩
    · have hlinked := (hsends hcalls).1 ▸ hmem
      obtain ⟨e, he, hframe⟩ := List.mem_filterMap.mp hlinked
      exact List.mem_filterMap.mpr ⟨e, hsubset (List.mem_append_left _ he), hframe⟩
    · obtain ⟨i, hi, rfl⟩ := mem_frames.mp hmem
      have hfragment :=
        frame_fragmentOf (m := x.message.withHops (x.message.hopLimit - 1)) hs hi
      exact ⟨_, hfragment.decodes, hfragment.identity⟩
  · -- the completing call reports the forward
    have hlast := hsubset (List.mem_append_right _ List.mem_cons_self)
    exact mem_forwardedMessages.mpr ⟨_, hlast⟩
  · obtain ⟨result, he⟩ := mem_forwardedMessages.mp hmessage
    rcases hshown _ he hname with ⟨call, heq, -⟩ | ⟨result', heq⟩
    · cases heq
    · exact (Event.messageForwarded.inj heq).1
  · rcases hshown _ (mem_receiverMessages.mp hmessage) hname with
      ⟨call, heq, -⟩ | ⟨result, heq⟩
    · cases heq
    · cases heq

end Relay

/-- The node it is for hands it to its receiver, and nothing else under its
name. -/
theorem Hears.delivers (h : w.Hears x) (hhere : x.message.destination = w.localNode)
    (hreceiver : Observed.Along RadioTransport.after
      (fun t _ => t.receiver = true) w.start
      w.calls) :
    x.message.view ∈ receiverMessages w.shown
      ∧ ∀ message ∈ receiverMessages w.shown, message.identity = x.identity →
        message = x.message.view := by
  have hdeliver : ∀ {past : List (Input ρ)} {input later},
      w.calls = past ++ input :: later →
      ∀ {p : Parcel}, (∀ f ∈ p.taken, x.Owns f) → p.isComplete = true →
        p.identity = x.identity →
      (Observed.run RadioTransport.after w.start past).deliver input.radios p
        = delivery x.message.view := by
    intro past input later hcalls p hown hcomplete hid
    have hpresent : (Observed.run RadioTransport.after w.start past).receiver = true := by
      rw [hcalls] at hreceiver
      exact (Observed.along_append.mp hreceiver).2.1
    have hlocal : p.identity.destination
        = (Observed.run RadioTransport.after w.start past).localNode := by
      rw [hid, RadioTransport.run_localNode, start_localNode]
      exact hhere
    unfold RadioTransport.deliver
    rw [if_pos (Or.inl hlocal), if_pos hpresent,
      (Parcel.whole_of_owns hown h.admitted.sends hcomplete).1]
    rfl
  constructor
  · obtain ⟨past, input, later, p, hcalls, hown, hcomplete, hid, heffects⟩ := h.completes
    rw [hdeliver hcalls hown hcomplete hid] at heffects
    apply mem_receiverMessages.mpr
    apply effects_subset_shown hcalls
    rw [heffects]
    exact List.mem_cons_self
  · intro message hmessage hname
    obtain ⟨past, input, later, p, hcalls, hown, hcomplete, hid, hep⟩ :=
      h.heeds.shown (mem_receiverMessages.mp hmessage) hname
    rw [hdeliver hcalls hown hcomplete hid] at hep
    rcases List.mem_cons.mp hep with heq | hreceived
    · exact Event.receiverMessage.inj heq
    · cases List.mem_singleton.mp hreceived

end Waypoint

-- ============================================================= the way

namespace Path

variable [DecidableEq ρ] {p : Path b ρ} {i : Nat}

/-- The message as it is cut on link `i`, with the hops it has left there. -/
def cut (p : Path b ρ) (i : Nat) : Cut := ⟨p.message.withHops (p.hopsLeft i), p.chunk i⟩

/-- The way of the statement: distinct valid ids, node 0's `Send`, links
that are up and cut the payload into fragments every node has room for,
and a receiver at the end. Nobody calls `Stop` meanwhile. -/
structure Ready (p : Path b ρ) : Prop where
  sent : ∃ radios, (p.node 0).calls
    = [⟨radios, .send p.destination p.channel (.data p.bytes)⟩]
  distinct : ∀ i ≤ p.relays + 1, ∀ j ≤ p.relays + 1,
    (p.node i).localNode = (p.node j).localNode → i = j
  id_ne_zero : ∀ i ≤ p.relays + 1, (p.node i).localNode ≠ 0
  id_ne_broadcast : ∀ i ≤ p.relays + 1, (p.node i).localNode ≠ broadcastNode
  linkUp : ∀ i ≤ p.relays, Observed.Along RadioTransport.after
    (fun t input => t.LinkUp p.destination (p.node i).out (p.chunk i) input.radios)
    (p.node i).start (p.node i).calls
  sendable : ∀ i ≤ p.relays, Sendable p.bytes (p.chunk i)
  admitted : ∀ i ≤ p.relays,
    chunkCount p.bytes.length (p.chunk i) * p.chunk i ≤ b.maxMessageBytes
  size_le : p.bytes.length ≤ b.maxMessageBytes
  receiver : Observed.Along RadioTransport.after (fun t _ => t.receiver = true)
    (p.node (p.relays + 1)).start (p.node (p.relays + 1)).calls
  faithful : ∀ i ≤ p.relays, Observed.Along RadioTransport.after RadioTransport.Faithful
    (.create (p.node (i + 1)).localNode
      (p.node (i + 1)).defaultHopLimit : RadioTransport b ρ)
    ((p.node (i + 1)).before ++ (p.node (i + 1)).calls)
  unknown : ∀ i ≤ p.relays, ¬ (p.node (i + 1)).start.Knows p.message.identity
  running : ∀ i ≤ p.relays, ∀ input ∈ (p.node (i + 1)).calls, input.call ≠ .stop

/-- The link from node `i` loses nothing of the message, and nothing of it
comes another way. Between two of its packets, up to the last one missing,
fewer other messages are heard of than there are slots. -/
structure Linked (p : Path b ρ) (i : Nat) : Prop where
  link : ∀ packet, packet ∈ ofMessage p.message.identity
    (packetsOf (p.node (i + 1)).calls)
    ↔ packet ∈ ofMessage p.message.identity (p.node i).onLink
  paced : ∀ past packet, past ++ [packet] <+: packetsOf (p.node (i + 1)).calls →
    (∃ frame ∈ ofMessage p.message.identity (p.node i).onLink, frame ∉ past) →
    Paced b.maxReassemblies p.message.identity (heard (past ++ [packet]))

theorem hopsLeft_toNat (hi : i ≤ p.message.hopLimit.toNat) :
    (p.hopsLeft i).toNat = p.message.hopLimit.toNat - i := by
  induction i with
  | zero => rfl
  | succ i ih =>
      have hprev := ih (by omega)
      have hone : (1 : UInt8) ≤ p.hopsLeft i := by
        apply UInt8.le_iff_toNat_le.mpr
        show 1 ≤ (p.hopsLeft i).toNat
        omega
      show (p.hopsLeft i - 1).toNat = _
      rw [UInt8.toNat_sub_of_le _ _ hone, hprev]
      show p.message.hopLimit.toNat - i - 1 = _
      omega

/-- As far as the hop limit goes, link `i` carries all fragments of the
message; nothing else is under its name. -/
def Carries (p : Path b ρ) (i : Nat) : Prop :=
  ∀ frame, frame ∈ ofMessage p.message.identity (p.node i).onLink
    ↔ i ≤ p.message.hopLimit.toNat
      ∧ ∃ k < (p.cut i).count, frame = (p.cut i).fragment (p.cut i).message.hopLimit k

theorem message_source : p.message.source = (p.node 0).localNode :=
  Waypoint.start_localNode

/-- The view stated by what `Send` was given is the view of the message it
sends. -/
theorem view_eq (p : Path b ρ) : p.view = p.message.view := by
  show (⟨(p.node 0).localNode, _, _, _, _⟩ : RadioTransportMessageView)
    = ⟨p.message.source, _, _, _, _⟩
  rw [message_source]
  rfl

section Ready

variable (h : p.Ready)

include h

/-- The first link carries what node 0's `Send` puts on it. -/
theorem Ready.carries_first : p.Carries 0 := by
  obtain ⟨radios, hcalls⟩ := h.sent
  have hup := h.linkUp 0 (Nat.zero_le _)
  rw [hcalls] at hup
  have hvalid : ¬(p.destination = 0 ∨ p.destination = (p.node 0).start.localNode) := by
    rintro (heq | heq)
    · exact h.id_ne_zero _ (Nat.le_refl _) heq
    · rw [Waypoint.start_localNode] at heq
      have := h.distinct _ (Nat.le_refl _) 0 (by omega) heq
      omega
  have hlink : (p.node 0).onLink
      = frames p.message (p.chunk 0) (chunkCount p.bytes.length (p.chunk 0)) := by
    have hsend := (RadioTransport.send_valid (p.node 0).start radios p.channel hvalid
      (show (PayloadArgument.data p.bytes).get? = some p.bytes from rfl)).2
    have hsends := (hup.1.sends (m := p.message) (h.id_ne_broadcast _ (Nat.le_refl _))
      (h.sendable 0 (Nat.zero_le _)) h.size_le).1
    rw [Waypoint.onLink, Waypoint.shown, hcalls, Observed.trace_cons, Observed.trace_nil,
      List.append_nil]
    show ((p.node 0).start.send radios p.destination p.channel
      (.data p.bytes)).2.2.filterMap _
      = _
    rw [hsend]
    dsimp only
    rw [List.filterMap_append]
    exact (List.append_nil _).trans hsends
  intro frame
  rw [hlink, mem_ofMessage, mem_frames]
  constructor
  · exact fun hframe => ⟨Nat.zero_le _, hframe.1⟩
  · rintro ⟨-, k, hk, rfl⟩
    have hfragment := frame_fragmentOf (m := p.message) (h.sendable 0 (Nat.zero_le _)) hk
    exact ⟨⟨k, hk, rfl⟩, _, hfragment.decodes, hfragment.identity⟩

/-- Within the hop limit the next node hears all of what its link carries. -/
theorem Ready.hears (hi : i ≤ p.relays) (hhops : i ≤ p.message.hopLimit.toNat)
    (hlinked : p.Linked i) (hcarries : p.Carries i) :
    (p.node (i + 1)).Hears (p.cut i) where
  admitted :=
    { sends := h.sendable i hi
      size_le := h.admitted i hi
      source_ne := by
        show p.message.source ≠ 0
        rw [message_source]
        exact h.id_ne_zero 0 (by omega)
      source_ne_local := fun heq => by
        have := h.distinct 0 (by omega) (i + 1) (by omega) (message_source.symm.trans heq)
        omega
      destination_ne := h.id_ne_zero _ (Nat.le_refl _) }
  faithful := h.faithful i hi
  unknown := h.unknown i hi
  running := h.running i hi
  allows := by
    intro packet hpacket header hd hid
    exact ((hcarries packet).mp ((hlinked.link packet).mp
      (mem_ofMessage.mpr ⟨hpacket, header, hd, hid⟩))).2
  whole := by
    intro k hk
    have hcarried := (hcarries _).mpr ⟨hhops, k, hk, rfl⟩
    exact (mem_ofMessage.mp ((hlinked.link _).mpr hcarried)).1
  paced := by
    intro past packet hpre ⟨k, hk, hmissing⟩
    exact hlinked.paced past packet hpre
      ⟨_, (hcarries _).mpr ⟨hhops, k, hk, rfl⟩, hmissing⟩

/-- Beyond the hop limit the next node hears nothing under the message's
name. -/
theorem Ready.unheard (hi : i ≤ p.relays) (hhops : p.message.hopLimit.toNat < i)
    (hlinked : p.Linked i) (hcarries : p.Carries i) :
    (p.node (i + 1)).Heeds p.message.identity fun _ => False where
  source_ne := fun heq => by
    have := h.distinct 0 (by omega) (i + 1) (by omega) (message_source.symm.trans heq)
    omega
  faithful := h.faithful i hi
  unknown := h.unknown i hi
  heeded := by
    intro packet hpacket header hd hid
    have hle := ((hcarries packet).mp ((hlinked.link packet).mp
      (mem_ofMessage.mpr ⟨hpacket, header, hd, hid⟩))).1
    omega

/-- A relay is not the message's destination, nor is that a broadcast. -/
theorem Ready.passes (hi : i < p.relays) :
    ¬(p.destination = (p.node (i + 1)).localNode ∨ p.destination = broadcastNode) := by
  rintro (heq | heq)
  · have := h.distinct _ (Nat.le_refl _) (i + 1) (by omega) heq
    omega
  · exact h.id_ne_broadcast _ (Nat.le_refl _) heq

/-- With no hop left, a relay shows nothing of the message. -/
theorem Ready.stopped (hi : i < p.relays) (hhops : p.message.hopLimit.toNat ≤ i)
    (hlinked : p.Linked i) (hcarries : p.Carries i) :
    ∀ e ∈ (p.node (i + 1)).shown, ¬ e.Names p.message.identity := by
  intro e he
  rcases Nat.lt_or_eq_of_le hhops with hbeyond | hlast
  · exact (h.unheard (by omega) hbeyond hlinked hcarries).silent he
  · have hnone : ¬ p.hopsLeft i > 0 := by
      intro hpos
      have := UInt8.lt_iff_toNat_lt.mp hpos
      rw [hopsLeft_toNat (by omega), hlast, Nat.sub_self] at this
      exact Nat.lt_irrefl _ this
    exact (h.hears (by omega) (by omega) hlinked hcarries).exhausted
      (h.passes hi) hnone he

/-- A relay carries the message on to its own link, passes it on as long as
it has hops, and hands nothing of it to a receiver. -/
theorem Ready.relays (hi : i < p.relays) (hlinked : p.Linked i) (hcarries : p.Carries i) :
    p.Carries (i + 1)
      ∧ (p.message.view ∈ forwardedMessages (p.node (i + 1)).shown
        ↔ i < p.message.hopLimit.toNat)
      ∧ (∀ message ∈ forwardedMessages (p.node (i + 1)).shown,
        message.identity = p.message.identity → message = p.message.view)
      ∧ ∀ message ∈ receiverMessages (p.node (i + 1)).shown,
        message.identity ≠ p.message.identity := by
  rcases Nat.lt_or_ge i p.message.hopLimit.toNat with hleft | hnone
  · have hhop : p.hopsLeft i > 0 := by
      apply UInt8.lt_iff_toNat_lt.mpr
      rw [hopsLeft_toNat (by omega)]
      show 0 < _
      omega
    obtain ⟨hframes, hforwarded, hshown⟩ :=
      (h.hears (by omega) (by omega) hlinked hcarries).relays (h.passes hi) hhop
        (h.linkUp (i + 1) hi) (h.sendable (i + 1) hi) h.size_le
    refine ⟨fun frame => ?_, iff_of_true hforwarded hleft, hshown⟩
    rw [and_iff_right (show i + 1 ≤ p.message.hopLimit.toNat from hleft)]
    exact (hframes frame).trans mem_frames
  · have hstopped := h.stopped hi hnone hlinked hcarries
    refine ⟨fun frame => ⟨fun hmem => ?_, fun ⟨hle, _⟩ => by omega⟩, ?_, ?_, ?_⟩
    · obtain ⟨call, hcall, -, hname⟩ := mem_ofMessage_link hmem
      exact absurd hname (hstopped _ hcall)
    · refine iff_of_false (fun hmem => ?_) (by omega)
      obtain ⟨result, he⟩ := mem_forwardedMessages.mp hmem
      exact hstopped _ he rfl
    · intro message hmessage hname
      obtain ⟨result, he⟩ := mem_forwardedMessages.mp hmessage
      exact absurd hname (hstopped _ he)
    · exact fun message hmessage => hstopped _ (mem_receiverMessages.mp hmessage)

/-- Link by link, the message comes as far as its hops go. -/
theorem Ready.carries (hlinked : ∀ j ≤ p.relays, p.Linked j) (hi : i ≤ p.relays) :
    p.Carries i := by
  induction i with
  | zero => exact h.carries_first
  | succ i ih => exact (h.relays hi (hlinked i (by omega)) (ih (by omega))).1

end Ready

/-- End to end over busy nodes. Every node's calls are arbitrary but for
the message: all of its fragments on a link are heard at the other end, in
any order and number, nothing else is under its name, and fewer other
messages than there are slots come in between two of them. Then the last
node's receiver gets the message exactly if its hop limit allows for the
relays, and nothing else under its name; a relay passes it on exactly if
there is a hop left, and no relay calls its receiver for it. -/
theorem delivered_over_path (h : p.Ready) (hlinked : ∀ i ≤ p.relays, p.Linked i) :
    (p.view ∈ receiverMessages (p.node (p.relays + 1)).shown
        ↔ p.relays ≤ (p.node 0).start.defaultHopLimit.toNat)
      ∧ (∀ message ∈ receiverMessages (p.node (p.relays + 1)).shown,
        message.identity = p.view.identity → message = p.view)
      ∧ ∀ i < p.relays, (p.view ∈ forwardedMessages (p.node (i + 1)).shown
          ↔ i < (p.node 0).start.defaultHopLimit.toNat)
        ∧ (∀ message ∈ forwardedMessages (p.node (i + 1)).shown,
          message.identity = p.view.identity → message = p.view)
        ∧ ∀ message ∈ receiverMessages (p.node (i + 1)).shown,
          message.identity ≠ p.view.identity := by
  rw [p.view_eq]
  show (p.message.view ∈ receiverMessages (p.node (p.relays + 1)).shown
      ↔ p.relays ≤ p.message.hopLimit.toNat) ∧ _
  have hcarries := h.carries hlinked (Nat.le_refl _)
  have hrelays : ∀ i < p.relays, _ := fun i hi =>
    (h.relays hi (hlinked i (by omega)) (h.carries hlinked (by omega))).2
  rcases Nat.lt_or_ge p.message.hopLimit.toNat p.relays with hbeyond | hhops
  · have hsilent : ∀ message ∈ receiverMessages (p.node (p.relays + 1)).shown,
        message.identity ≠ p.message.identity := fun message hmessage =>
      (h.unheard (Nat.le_refl _) hbeyond (hlinked _ (Nat.le_refl _)) hcarries).silent
        (mem_receiverMessages.mp hmessage)
    refine ⟨iff_of_false (fun hmem => hsilent _ hmem rfl) (by omega), ?_, hrelays⟩
    exact fun message hmessage hname => absurd hname (hsilent message hmessage)
  · obtain ⟨hdelivered, hother⟩ :=
      (h.hears (Nat.le_refl _) hhops (hlinked _ (Nat.le_refl _)) hcarries).delivers rfl
        h.receiver
    exact ⟨iff_of_true hdelivered hhops, hother, hrelays⟩

section Relayed

/-- The message that node 1 sends to node 3, two bytes of it. -/
private def relayedMessage : Outbound :=
  { source := 1, destination := 3, channel := 7, messageId := 1, hopLimit := 4
    payload := [0xAA, 0xBB] }

/-- The calls that give a node a route to node 3 over its one interface. -/
private def routed : List (Input Unit) :=
  [⟨openRadios, .addInterface () false⟩,
    ⟨openRadios, .setRoute 3 () (RadioAddress.broadcast 5)⟩]

private def arriving (packets : List (List UInt8)) : List (Input Unit) :=
  packets.map fun packet => ⟨openRadios, .processInboundPacket packet⟩

/-- Nodes 1, 2 and 3. Fragments of other messages reach node 2 between those
of this one, and node 3 before it. -/
def relayed : Path .defaults Unit where
  node := fun
    | 0 =>
        { localNode := 1, defaultHopLimit := 4, before := routed, out := ()
          calls := [⟨narrowRadios, .send 3 7 (.data [0xAA, 0xBB])⟩] }
    | 1 =>
        { localNode := 2, defaultHopLimit := 4, before := routed, out := ()
          calls := arriving [frame relayedMessage 1 0, RadioTransport.firstOfTwo 1,
            RadioTransport.firstOfTwo 2,
            frame relayedMessage 1 1] }
    | _ =>
        { localNode := 3, defaultHopLimit := 4, out := ()
          before := [⟨openRadios, .setReceiver true⟩]
          calls := arriving [RadioTransport.firstOfTwo 1,
            frame (relayedMessage.withHops 3) 17 0] }
  relays := 1
  chunk := fun i => if i = 0 then 1 else 17
  channel := 7
  bytes := [0xAA, 0xBB]

private theorem relayed_ready : relayed.Ready where
  sent := ⟨_, rfl⟩
  distinct := by decide
  id_ne_zero := by decide
  id_ne_broadcast := by decide
  linkUp := by
    intro i hi
    match i, hi with
    | 0, _ => exact ⟨⟨⟨_, rfl, rfl⟩, rfl, fun _ => rfl, rfl⟩, trivial⟩
    | 1, _ =>
        exact ⟨⟨⟨_, rfl, rfl⟩, rfl, fun _ => rfl, rfl⟩,
          ⟨⟨_, rfl, rfl⟩, rfl, fun _ => rfl, rfl⟩,
          ⟨⟨_, rfl, rfl⟩, rfl, fun _ => rfl, rfl⟩,
            ⟨⟨_, rfl, rfl⟩, rfl, fun _ => rfl, rfl⟩,
          trivial⟩
  sendable := by
    intro i hi
    match i, hi with
    | 0, _ => exact ⟨by decide, by decide, by decide⟩
    | 1, _ => exact ⟨by decide, by decide, by decide⟩
  admitted := by decide
  size_le := by decide
  receiver := ⟨rfl, rfl, trivial⟩
  faithful := by
    intro i hi
    match i, hi with
    | 0, _ =>
        exact ⟨RadioTransport.default_faithful (by decide),
          RadioTransport.default_faithful (by decide),
          RadioTransport.default_faithful (by decide),
          RadioTransport.default_faithful (by decide),
          RadioTransport.default_faithful (by decide),
          RadioTransport.default_faithful (by decide), trivial⟩
    | 1, _ =>
        exact ⟨RadioTransport.default_faithful (by decide),
          RadioTransport.default_faithful (by decide),
          RadioTransport.default_faithful (by decide), trivial⟩
  unknown := by
    intro i hi
    match i, hi with
    | 0, _ =>
        rintro (⟨j, hu, -⟩ | ⟨j, hu, -⟩)
        · cases hu
        · cases hu
    | 1, _ =>
        rintro (⟨j, hu, -⟩ | ⟨j, hu, -⟩)
        · cases hu
        · cases hu
  running := by
    intro i hi input hinput hcall
    match i, hi with
    | 0, _ =>
        obtain ⟨packet, -, rfl⟩ := List.mem_map.mp hinput
        cases hcall
    | 1, _ =>
        obtain ⟨packet, -, rfl⟩ := List.mem_map.mp hinput
        cases hcall

/-- A link is taken off as the path asks if the packets of the message heard
are all of its fragments. -/
private theorem relayed_linked {i : Nat} (hhops : i ≤ relayed.message.hopLimit.toNat)
    (hcarries : relayed.Carries i)
    (hheard : ofMessage relayed.message.identity (packetsOf (relayed.node (i + 1)).calls)
      = frames (relayed.cut i).message (relayed.chunk i) (relayed.cut i).count)
    (hpaced : Paced 4 relayed.message.identity
      (heard (packetsOf (relayed.node (i + 1)).calls))) : relayed.Linked i where
  link := by
    intro packet
    rw [hheard, hcarries packet, and_iff_right hhops]
    exact mem_frames
  paced := fun _ _ hpre _ => hpaced.initial (heard_initial hpre)

/-- Four hops: node 2 passes it on, cut anew, and node 3's receiver has
it. -/
theorem relayed_delivered :
    relayed.view = ⟨1, 3, 7, 1, [0xAA, 0xBB]⟩
      ∧ (relayed.view ∈ receiverMessages (relayed.node 2).shown
        ↔ 1 ≤ (relayed.node 0).start.defaultHopLimit.toNat)
      ∧ (∀ message ∈ receiverMessages (relayed.node 2).shown,
        message.identity = relayed.view.identity → message = relayed.view)
      ∧ ∀ i < 1, (relayed.view ∈ forwardedMessages (relayed.node (i + 1)).shown
          ↔ i < (relayed.node 0).start.defaultHopLimit.toNat)
        ∧ (∀ message ∈ forwardedMessages (relayed.node (i + 1)).shown,
          message.identity = relayed.view.identity → message = relayed.view)
        ∧ ∀ message ∈ receiverMessages (relayed.node (i + 1)).shown,
          message.identity ≠ relayed.view.identity := by
  have hready := relayed_ready
  have hfirst : relayed.Linked 0 :=
    relayed_linked (by decide) hready.carries_first (by decide) (by decide)
  have hcarries := (hready.relays (by decide) hfirst hready.carries_first).1
  refine ⟨rfl, delivered_over_path hready ?_⟩
  intro i hi
  match i, hi with
  | 0, _ => exact hfirst
  | 1, _ => exact relayed_linked (by decide) hcarries (by decide) (by decide)

end Relayed

end Path

end EspressioRadio
