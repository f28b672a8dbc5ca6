/-
What goes out and what comes in do not meet.

Inbound packets, whatever their bytes and number, change nothing about
the other calls of a transport: those do and show what they would with no
packet in between (`calls_ignore_packets`). Nor do the application's own
`Send`s, and the lifecycle flag, make a difference to the packets
(`packets_ignore_sends`). The two sides share the registrations and
routes, which neither writes; `Stop`, which empties the slots, counts
among the calls of either side.
-/
import EspressioRadio.Proofs.Arrival
import EspressioRadio.Proofs.Halves

namespace EspressioRadio

variable {b : Bounds} {ρ : Type}

-- ======================================================== sorts of calls

/-- The call is one of the application's own: it brings in no packet. -/
def Input.isOwn (input : Input ρ) : Bool :=
  match input.call with
  | .processInboundPacket _ => false
  | _ => true

/-- The call is no `Send` and no `Start`. -/
def Input.concernsPackets (input : Input ρ) : Bool :=
  match input.call with
  | .send _ _ _ => false
  | .start => false
  | _ => true

theorem Input.isOwn_iff {input : Input ρ} :
    input.isOwn = true ↔ ∀ packet, input.call ≠ .processInboundPacket packet := by
  unfold isOwn
  cases input.call <;> simp

theorem Input.isOwn_eq_false_iff {input : Input ρ} :
    input.isOwn = false ↔ ∃ packet, input.call = .processInboundPacket packet := by
  unfold isOwn
  cases input.call <;> simp

namespace RadioTransport

variable [DecidableEq ρ] {t t' : RadioTransport b ρ}

/-- What a call does outside unless it brings in a packet. -/
def ownEffects (t : RadioTransport b ρ) (input : Input ρ) : List (Event ρ) :=
  if input.isOwn then t.effects input else []

/-- What a call does outside if it brings in a packet, and nothing
otherwise. -/
def packetEffects (t : RadioTransport b ρ) (input : Input ρ) : List (Event ρ) :=
  if input.isOwn then [] else t.effects input

-- ========================================================= the calls' side

/-- Whatever comes in, and in whatever state it finds the transport, the
other calls of a run do outside what they do without it, and leave the
sending half they leave without it. -/
theorem calls_ignore_packets (t : RadioTransport b ρ) (inputs : List (Input ρ)) :
    Observed.trace after ownEffects t inputs
        = Observed.trace after effects t (inputs.filter Input.isOwn)
      ∧ (Observed.run after t inputs).sendingHalf
        = (Observed.run after t (inputs.filter Input.isOwn)).sendingHalf := by
  have hkept : ∀ (s x : RadioTransport b ρ) (input : Input ρ), input.isOwn = true →
      s.sendingHalf = x.sendingHalf →
      (s.after input).sendingHalf = (x.after input).sendingHalf
        ∧ s.effects input = x.effects input := by
    intro s x input hown hsame
    have hs := s.perform_sendingHalf (Input.isOwn_iff.mp hown)
    have hx := x.perform_sendingHalf (Input.isOwn_iff.mp hown)
    rw [hsame, hx, Prod.mk.injEq] at hs
    exact ⟨hs.1.symm, hs.2.symm⟩
  have hskipped : ∀ (s x : RadioTransport b ρ) (input : Input ρ), input.isOwn = false →
      s.sendingHalf = x.sendingHalf → (s.after input).sendingHalf = x.sendingHalf := by
    intro s x input hpacket hsame
    obtain ⟨packet, hcall⟩ := Input.isOwn_eq_false_iff.mp hpacket
    have hafter : s.after input = (s.processInboundPacket input.radios packet).1 := by
      simp [after, perform, hcall]
    rw [hafter, processInboundPacket_sendingHalf, hsame]
  obtain ⟨hhalf, htrace⟩ :=
    Observed.simulation_filter hkept hskipped (Eq.refl t.sendingHalf) inputs
  exact ⟨htrace, hhalf⟩

-- ======================================================= the packets' side

/-- The transport without what the packets do not read. -/
def receivingHalf (t : RadioTransport b ρ) : RadioTransport b ρ :=
  { t with
    defaultHopLimit := 0
    nextMessageId := 1
    started := false }

omit [DecidableEq ρ] in
theorem beside_receivingHalf : Beside (receivingHalf (b := b) (ρ := ρ)) :=
  ⟨fun _ => rfl, fun _ => rfl, fun _ _ _ => rfl⟩

omit [DecidableEq ρ] in
theorem keepsTopology_receivingHalf : KeepsTopology (receivingHalf (b := b) (ρ := ρ)) :=
  ⟨fun _ => rfl, fun _ => rfl, fun _ _ _ => rfl⟩

omit [DecidableEq ρ] in
theorem complete_receivingHalf (t : RadioTransport b ρ) (radios : Radios ρ)
    (i : Fin b.maxReassemblies) :
    t.receivingHalf.complete radios i
      = ((t.complete radios i).1.receivingHalf, (t.complete radios i).2) := by
  have hslot : t.receivingHalf.reassemblies i = t.reassemblies i := rfl
  have hrecent : ∀ h, t.receivingHalf.isRecent h = t.isRecent h := fun _ => rfl
  unfold complete
  rw [hslot]
  dsimp only
  rw [hrecent]
  cases t.isRecent (t.reassemblies i).identity.header with
  | true => rfl
  | false =>
      have hdispatch : (t.receivingHalf.remember
          (t.reassemblies i).identity.header).dispatch radios (t.reassemblies i)
            = (t.remember (t.reassemblies i).identity.header).dispatch radios
              (t.reassemblies i) := dispatch_congr rfl rfl rfl rfl
      rw [hdispatch]
      rfl

omit [DecidableEq ρ] in
theorem processInboundPacket_receivingHalf (t : RadioTransport b ρ) (radios : Radios ρ)
    (packet : List UInt8) :
    t.receivingHalf.processInboundPacket radios packet
      = ((t.processInboundPacket radios packet).1.receivingHalf,
        (t.processInboundPacket radios packet).2) := by
  unfold processInboundPacket
  rw [beside_receivingHalf.receiveFragment t fun _ _ => rfl]
  rcases t.receiveFragment packet with ⟨s, - | i⟩
  · rfl
  · have hslot : s.receivingHalf.reassemblies i = s.reassemblies i := rfl
    dsimp only
    rw [hslot]
    cases (s.reassemblies i).isComplete with
    | false => rfl
    | true => exact s.complete_receivingHalf radios i

/-- The other calls that concern packets, too, leave a receiving half that
depends on the one before alone. -/
theorem after_receivingHalf (t : RadioTransport b ρ) {input : Input ρ}
    (hconcerns : input.concernsPackets = true) :
    (t.receivingHalf.after input).receivingHalf = (t.after input).receivingHalf := by
  obtain ⟨radios, call⟩ := input
  cases call with
  | processInboundPacket packet =>
      show (t.receivingHalf.processInboundPacket radios packet).1.receivingHalf = _
      rw [processInboundPacket_receivingHalf]
      rfl
  | send destination channel payload => simp [Input.concernsPackets] at hconcerns
  | start => simp [Input.concernsPackets] at hconcerns
  | stop => rfl
  | addInterface radio defaultRoute =>
      show (t.receivingHalf.addInterface radio defaultRoute).1.receivingHalf = _
      rw [keepsTopology_receivingHalf.addInterface]
      rfl
  | setRoute destination radio nextHop =>
      show (t.receivingHalf.setRoute destination radio nextHop).1.receivingHalf = _
      rw [keepsTopology_receivingHalf.setRoute]
      rfl
  | removeRoute destination =>
      show (t.receivingHalf.removeRoute destination).1.receivingHalf = _
      rw [keepsTopology_receivingHalf.removeRoute]
      rfl
  | setReceiver present => rfl

/-- Packets do the same outside whether or not the sending half is there. -/
theorem packetEffects_receivingHalf (t : RadioTransport b ρ) (input : Input ρ) :
    t.receivingHalf.packetEffects input = t.packetEffects input := by
  obtain ⟨radios, call⟩ := input
  cases call with
  | processInboundPacket packet =>
      show (t.receivingHalf.processInboundPacket radios packet).2
        = (t.processInboundPacket radios packet).2
      rw [processInboundPacket_receivingHalf]
  | _ => rfl

/-- The calls that do not concern packets write nothing else. -/
theorem after_unconcerned (t : RadioTransport b ρ) {input : Input ρ}
    (hnot : input.concernsPackets = false) :
    (t.after input).receivingHalf = t.receivingHalf := by
  obtain ⟨radios, call⟩ := input
  cases call with
  | send destination channel payload =>
      show (t.send radios destination channel payload).1.receivingHalf = t.receivingHalf
      unfold send
      dsimp only
      split
      · rfl
      · split <;> rfl
  | start => rfl
  | _ => simp [Input.concernsPackets] at hnot

/-- The application's `Send`s, and starting, make no difference to what the
packets of a run do outside, nor to the tables they leave. -/
theorem packets_ignore_sends (t : RadioTransport b ρ) (inputs : List (Input ρ)) :
    Observed.trace after packetEffects t inputs
        = Observed.trace after packetEffects t (inputs.filter Input.concernsPackets)
      ∧ (Observed.run after t inputs).receivingHalf
        = (Observed.run after t (inputs.filter Input.concernsPackets)).receivingHalf := by
  have hkept : ∀ (s x : RadioTransport b ρ) (input : Input ρ),
      input.concernsPackets = true → s.receivingHalf = x.receivingHalf →
      (s.after input).receivingHalf = (x.after input).receivingHalf
        ∧ s.packetEffects input = x.packetEffects input := by
    intro s x input hconcerns hsame
    rw [← s.after_receivingHalf hconcerns, ← x.after_receivingHalf hconcerns,
      ← s.packetEffects_receivingHalf, ← x.packetEffects_receivingHalf, hsame]
    exact ⟨rfl, rfl⟩
  have hskipped : ∀ (s x : RadioTransport b ρ) (input : Input ρ),
      input.concernsPackets = false → s.receivingHalf = x.receivingHalf →
      (s.after input).receivingHalf = x.receivingHalf := by
    intro s x input hnot hsame
    rw [s.after_unconcerned hnot, hsame]
  obtain ⟨hhalf, htrace⟩ :=
    Observed.simulation_filter hkept hskipped (Eq.refl t.receivingHalf) inputs
  refine ⟨?_, hhalf⟩
  rw [← htrace]
  -- what is left out shows no packet
  congr 1
  funext s input
  obtain ⟨radios, call⟩ := input
  cases call <;> rfl

end RadioTransport

end EspressioRadio
