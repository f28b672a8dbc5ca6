/-
Touches: which slot a full table gives up.

A fragment taken in stamps its slot with the touch counter, which only
counts up. Until the counter wraps (`Unwrapped`), no slot in use is
ahead of it (`Touched`), so slots stamped after some moment are those a
fragment went into since. A new message never costs such a slot while
fewer messages than slots have come in since then (`victim_stale`).
-/
import EspressioRadio.Lib.Lru
import EspressioRadio.Proofs.Invariant

namespace EspressioRadio

variable {b : Bounds} {ρ : Type}

namespace RadioTransport

variable {t t' : RadioTransport b ρ} {packet : List UInt8}

/-- No slot in use is stamped ahead of the touch counter. -/
def Touched (t : RadioTransport b ρ) : Prop :=
  ∀ j, (t.reassemblies j).used = true → (t.reassemblies j).touch ≤ t.touchCounter

/-- The slot a fragment is taken into is stamped with the counter, which has
moved on. -/
theorem Inbound.taken_touch {j : Fin b.maxReassemblies}
    (hin : Inbound t packet t' (some j)) :
    (t'.reassemblies j).touch = t'.touchCounter
      ∧ t'.touchCounter ≠ t.touchCounter := by
  cases hin with
  | stored hd hr hi hf =>
      rw [setSlot_self, setSlot_touchCounter, ReassemblyRecord.store_touch]
      refine ⟨rfl, ?_⟩
      show t.touchCounter + 1 ≠ t.touchCounter
      grind
  | opened hd hr hn ha =>
      rw [setSlot_self, setSlot_touchCounter, firstStore, ReassemblyRecord.store_touch]
      refine ⟨rfl, ?_⟩
      show t.touchCounter + 1 + 1 ≠ t.touchCounter
      grind

/-- Completion, and all that comes with it, leaves the touch counter alone. -/
theorem processInboundPacket_touchCounter (hs : t.Sound) (radios : Radios ρ)
    (packet : List UInt8) :
    (t.processInboundPacket radios packet).1.touchCounter
      = (t.receiveFragment packet).1.touchCounter := by
  rcases processInboundPacket_cases hs radios packet with
    ⟨heq, -⟩ | ⟨i, -, -, heq⟩
  · rw [heq]
  · rw [heq]
    rfl

/-- A packet advances the counter by two at most. -/
theorem processInboundPacket_advance (hs : t.Sound) (radios : Radios ρ)
    (packet : List UInt8) :
    ∃ k : UInt32, k ≤ 2
      ∧ (t.processInboundPacket radios packet).1.touchCounter
        = t.touchCounter + k := by
  rw [processInboundPacket_touchCounter hs]
  have hin := receiveFragment_inbound hs packet
  generalize t.receiveFragment packet = r at hin ⊢
  obtain ⟨t', taken⟩ := r
  cases hin with
  | undecodable => exact ⟨0, by decide, (UInt32.add_zero _).symm⟩
  | refused => exact ⟨0, by decide, (UInt32.add_zero _).symm⟩
  | tooLarge => exact ⟨0, by decide, (UInt32.add_zero _).symm⟩
  | mismatched => exact ⟨0, by decide, (UInt32.add_zero _).symm⟩
  | stored => exact ⟨1, by decide, rfl⟩
  | opened => exact ⟨2, by decide, UInt32.add_assoc _ 1 1⟩

-- ============================================================ the victim

/-- The scan of `FindOrCreateReassembly` is the library's: the first slot
with the least touch. -/
theorem leastTouched_eq (t : RadioTransport b ρ) :
    t.leastTouched = Lru.least fun i => (t.reassemblies i).touch := rfl

/-- When fewer messages than slots have been touched since `T`, the slot a
new message gets was free, or not touched since. -/
theorem victim_stale (hs : t.Sound) {T : UInt32} {names : List MessageIdentity}
    (hfew : names.length < b.maxReassemblies)
    (hmem : ∀ i, (t.reassemblies i).used = true → T < (t.reassemblies i).touch →
      (t.reassemblies i).identity ∈ names) :
    (t.reassemblies t.victim).used = false
      ∨ (t.reassemblies t.victim).touch ≤ T := by
  rcases victim_cases t with hfree | ⟨hall, hleast⟩
  · exact Or.inl hfree
  · rw [hleast, leastTouched_eq]
    apply Or.inr
    apply Lru.least_le_of_few (fun i => (t.reassemblies i).touch)
      (fun i => (t.reassemblies i).identity) hfew
    · exact fun i j _ _ hid => hs.distinct i j (hall i) (hall j) hid
    · exact fun i hi => hmem i (hall i) hi

-- ================================================================ runs

variable [DecidableEq ρ]

/-- The call does not wrap the touch counter. -/
def Unwrapped (t : RadioTransport b ρ) (input : Input ρ) : Prop :=
  t.touchCounter ≤ (t.after input).touchCounter

/-- A call that does not wrap the touch counter leaves no slot ahead of it. -/
theorem Touched.after (hs : t.Stable) (ht : t.Touched) {input : Input ρ}
    (hun : t.Unwrapped input) : (t.after input).Touched := by
  intro j hu
  have hkept : (t.after input).reassemblies j = t.reassemblies j →
      ((t.after input).reassemblies j).touch ≤ (t.after input).touchCounter := by
    intro heq
    rw [heq] at hu ⊢
    exact UInt32.le_trans (ht j hu) hun
  by_cases hin : ∃ packet, input.call = .processInboundPacket packet
  · obtain ⟨packet, hcall⟩ := hin
    have hafter : t.after input = (t.processInboundPacket input.radios packet).1 := by
      unfold RadioTransport.after perform
      rw [hcall]
    rw [hafter] at hu hkept ⊢
    have heq := processInboundPacket_slot hs.toSound input.radios hu
    have hinb := receiveFragment_inbound hs.toSound packet
    by_cases htake : (t.receiveFragment packet).2 = some j
    · rw [htake] at hinb
      rw [heq, hinb.taken_touch.1, processInboundPacket_touchCounter hs.toSound]
      exact UInt32.le_refl _
    · rw [heq] at hu
      exact hkept (heq.trans (hinb.others htake hu))
  · obtain ⟨-, -, hsame | hempty⟩ :=
      after_tables t input fun packet hcall => hin ⟨packet, hcall⟩
    · exact hkept (congrFun hsame j)
    · rw [hempty j] at hu
      cases hu

end RadioTransport

end EspressioRadio
