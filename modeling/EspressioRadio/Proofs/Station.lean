/-
Two protocols on one link.

The transport and the synchronizers are handed every packet of the
radios they share. Each reacts to its own frames only: the magics differ
(`not_both`), and what does not bear one's own is passed over before
anything is written. So over any run the worker does and shows what it
would with the transport's frames alone coming in, and each synchronizer
what it would with the clock frames of its radio alone
(`protocols_apart`).
-/
import EspressioRadio.Proofs.Clock.Cuts
import EspressioRadio.Proofs.Invariant
import EspressioRadio.Station

namespace EspressioRadio

-- =============================================================== frames

/-- The packet bears the transport's magic and version. -/
def isTransportFrame (payload : List UInt8) : Bool :=
  byteAt payload 0 == wireMagic0 && byteAt payload 1 == wireMagic1
    && byteAt payload 2 == wireVersion

/-- The packet starts with the magic bytes of a clock frame. -/
def isClockFrame (payload : List UInt8) : Bool :=
  readU16 payload 0 == RadioClockSynchronizer.wireMagic
    && byteAt payload 2 == RadioClockSynchronizer.wireVersion

/-- No packet starts with the magic bytes of both protocols. -/
theorem not_both {payload : List UInt8} (h : isTransportFrame payload = true) :
    isClockFrame payload = false := by
  simp only [isTransportFrame, Bool.and_eq_true, beq_iff_eq] at h
  obtain ⟨⟨h0, h1⟩, -⟩ := h
  have hmagic : readU16 payload 0 ≠ RadioClockSynchronizer.wireMagic := by
    unfold readU16
    rw [h0, h1]
    decide
  simp [isClockFrame, hmagic]

/-- The transport decodes nothing that does not start with its own magic
bytes. -/
theorem decodeHeader_of_not_transport {payload : List UInt8}
    (h : isTransportFrame payload = false) : decodeHeader payload = none := by
  unfold decodeHeader
  split
  · rfl
  · rw [if_pos]
    simp only [isTransportFrame, Bool.and_eq_false_iff, beq_eq_false_iff_ne] at h
    tauto

/-- The synchronizers decode nothing that does not start with theirs. -/
theorem decodeHeader_of_not_clock {payload : List UInt8}
    (h : isClockFrame payload = false) :
    RadioClockSynchronizer.decodeHeader payload = none := by
  unfold RadioClockSynchronizer.decodeHeader
  split
  · rfl
  · rw [if_pos]
    simp only [isClockFrame, Bool.and_eq_false_iff, beq_eq_false_iff_ne] at h
    exact h

variable {b : Bounds} {ρ : Type} {n : Nat}

/-- The transport passes over a packet that is not its frame: nothing
changes and nothing shows. -/
theorem RadioTransport.processInboundPacket_foreign (t : RadioTransport b ρ)
    (radios : Radios ρ) {payload : List UInt8} (h : isTransportFrame payload = false) :
    t.processInboundPacket radios payload = (t, []) := by
  unfold processInboundPacket receiveFragment
  rw [decodeHeader_of_not_transport h]

/-- A synchronizer passes over a packet that is not a clock frame: nothing
changes and nothing shows. -/
theorem RadioClockSynchronizer.onRadioPacketReceived_foreign (s : RadioClockSynchronizer)
    {packet : RadioPacketView} (reads : ReceiveReads)
    (h : isClockFrame packet.payload = false) :
    s.onRadioPacketReceived packet reads = (s, []) := by
  rw [onRadioPacketReceived_eq]
  rw [decodeHeader_of_not_clock h]
  split <;> rfl

namespace Station

variable [DecidableEq ρ]

-- =========================================================== projections

/-- The worker's share of what the station does outside. -/
def workerEvents (events : List (StationEvent ρ n)) : List (WorkerEvent ρ) :=
  events.filterMap fun
    | .worker event => some event
    | .clock _ _ => none

/-- Those of the events that are synchronizer `i`'s. -/
def clockEvents (i : Fin n) (events : List (StationEvent ρ n)) : List ClockEvent :=
  events.filterMap fun
    | .worker _ => none
    | .clock j event => if j = i then some event else none

/-- A packet drained as the worker's input, if it is a frame of the
transport's. -/
def workerFrame (drained : ρ × RadioArrival ρ n) : List (WorkerCall ρ) :=
  if isTransportFrame drained.2.packet.payload then [drained.2.workerCall] else []

/-- A packet drained as the synchronizer's input, if it is a clock frame
from the radio it observes. -/
def clockFrame (i : Fin n) (s : Station b ρ n) (drained : ρ × RadioArrival ρ n) :
    List ClockCall :=
  if s.observes i drained.1 && isClockFrame drained.2.packet.payload then
    [drained.2.clockCall i]
  else []

/-- What an input is to the worker: its own calls, and the transport's
frames. -/
def workerCalls (s : Station b ρ n) : StationInput ρ n → List (WorkerCall ρ)
  | .worker call => [call]
  | .clock _ _ => []
  | .iterate inbound => (s.drained inbound).flatMap workerFrame

/-- What it is to a synchronizer: its own calls, and the clock frames of
its radio. -/
def clockCalls (i : Fin n) (s : Station b ρ n) : StationInput ρ n → List ClockCall
  | .worker _ => []
  | .clock j call => if j = i then [call] else []
  | .iterate inbound => (s.drained inbound).flatMap (clockFrame i s)

/-- If only the `i`-th of the synchronizers has shown anything, then all of
them together have shown what it has. -/
theorem flatMap_single {α : Type _} (i : Fin n) (f : Fin n → List α)
    (hothers : ∀ j, j ≠ i → f j = []) : (List.finRange n).flatMap f = f i := by
  obtain ⟨front, back, hsplit⟩ := List.append_of_mem (List.mem_finRange i)
  have hnodup := List.nodup_finRange n
  rw [hsplit] at hnodup ⊢
  have hfront : front.flatMap f = [] := List.flatMap_eq_nil_iff.mpr fun j hj =>
    hothers j fun h => (List.nodup_append.mp hnodup).2.2 j hj i List.mem_cons_self h
  have hback : back.flatMap f = [] := List.flatMap_eq_nil_iff.mpr fun j hj =>
    hothers j fun h =>
      (List.nodup_cons.mp (List.nodup_append.mp hnodup).2.1).1 (h ▸ hj)
  rw [List.flatMap_append, List.flatMap_cons, hfront, hback, List.nil_append,
    List.append_nil]

-- ============================================================== the worker

omit [DecidableEq ρ] in
@[simp] theorem workerEvents_worker (events : List (WorkerEvent ρ)) :
    workerEvents (n := n) (events.map .worker) = events := by
  simp [workerEvents, List.filterMap_map]

omit [DecidableEq ρ] in
@[simp] theorem workerEvents_clock (i : Fin n) (events : List ClockEvent) :
    workerEvents (ρ := ρ) (events.map (.clock i)) = [] := by
  simp [workerEvents, List.filterMap_map]

/-- What a packet drained does outside, the worker's share. -/
theorem workerEvents_receiveEffects (s : Station b ρ n) (drained : ρ × RadioArrival ρ n) :
    workerEvents (s.receiveEffects drained)
      = s.worker.effects drained.2.workerCall := by
  have hobservers : workerEvents ((List.finRange n).flatMap fun i =>
      if s.observes i drained.1 then
        ((s.sessions i).effects (drained.2.clockCall i)).map (.clock i)
      else ([] : List (StationEvent ρ n))) = [] := by
    rw [workerEvents, List.filterMap_flatMap, List.flatMap_eq_nil_iff]
    intro i _
    split
    · exact workerEvents_clock i _
    · rfl
  show workerEvents (_ ++ _) = _
  unfold workerEvents at hobservers ⊢
  rw [List.filterMap_append, hobservers, List.append_nil]
  exact workerEvents_worker _

/-- One packet drained is to the worker what its transport's frame is, if it
is one. -/
theorem receive_worker (s : Station b ρ n) (drained : ρ × RadioArrival ρ n) :
    (s.receive drained).worker
        = Observed.run RadioWorker.after s.worker (workerFrame drained)
      ∧ workerEvents (s.receiveEffects drained)
        = Observed.trace RadioWorker.after RadioWorker.effects s.worker
          (workerFrame drained) := by
  rw [workerEvents_receiveEffects]
  show s.worker.after drained.2.workerCall = _ ∧ _
  unfold workerFrame
  cases hframe : isTransportFrame drained.2.packet.payload with
  | true => exact ⟨rfl, (List.append_nil _).symm⟩
  | false =>
      have hquiet :=
        s.worker.transport.processInboundPacket_foreign drained.2.radios hframe
      constructor
      · show { s.worker with
          transport := (s.worker.transport.processInboundPacket drained.2.radios
            drained.2.packet.payload).1 } = s.worker
        rw [hquiet]
      · show ((s.worker.transport.processInboundPacket drained.2.radios
          drained.2.packet.payload).2).map _ = []
        rw [hquiet]
        rfl

/-- One input to the station is to the worker a run over its own inputs. -/
theorem after_worker (s : Station b ρ n) (input : StationInput ρ n) :
    (s.after input).worker
        = Observed.run RadioWorker.after s.worker (s.workerCalls input)
      ∧ workerEvents (s.effects input)
        = Observed.trace RadioWorker.after RadioWorker.effects s.worker
          (s.workerCalls input) := by
  cases input with
  | worker call => exact ⟨rfl, (workerEvents_worker _).trans (List.append_nil _).symm⟩
  | clock i call => exact ⟨rfl, workerEvents_clock i _⟩
  | iterate inbound =>
      have hdrain := Observed.simulation_onto
        (R := fun (s : Station b ρ n) (w : RadioWorker b ρ) => s.worker = w)
        (fun s w drained hs => hs ▸ s.receive_worker drained) (Eq.refl s.worker)
        (s.drained inbound)
      rw [Observed.trace_static] at hdrain
      refine ⟨hdrain.1, ?_⟩
      show workerEvents (Observed.trace receive receiveEffects s (s.drained inbound)) = _
      rw [workerEvents, Observed.filterMap_trace]
      exact hdrain.2

-- ======================================================= a synchronizer

omit [DecidableEq ρ] in
theorem clockEvents_worker (i : Fin n) (events : List (WorkerEvent ρ)) :
    clockEvents i (events.map .worker) = [] := by
  simp [clockEvents, List.filterMap_map]

omit [DecidableEq ρ] in
theorem clockEvents_clock (i j : Fin n) (events : List ClockEvent) :
    clockEvents (ρ := ρ) i (events.map (.clock j)) = if j = i then events else [] := by
  unfold clockEvents
  rw [List.filterMap_map]
  by_cases hji : j = i
  · simp [hji]
  · simp [hji]

/-- What a packet drained does outside, the synchronizer's share. -/
theorem clockEvents_receiveEffects (i : Fin n) (s : Station b ρ n)
    (drained : ρ × RadioArrival ρ n) :
    clockEvents i (s.receiveEffects drained)
      = if s.observes i drained.1 then (s.sessions i).effects (drained.2.clockCall i)
        else [] := by
  have hobservers : clockEvents i ((List.finRange n).flatMap fun j =>
      if s.observes j drained.1 then
        ((s.sessions j).effects (drained.2.clockCall j)).map (.clock j)
      else ([] : List (StationEvent ρ n)))
        = if s.observes i drained.1 then (s.sessions i).effects (drained.2.clockCall i)
          else [] := by
    unfold clockEvents
    rw [List.filterMap_flatMap]
    rw [flatMap_single i]
    · split
      · exact (clockEvents_clock i i _).trans (if_pos rfl)
      · rfl
    · intro j hj
      split
      · exact (clockEvents_clock i j _).trans (if_neg hj)
      · rfl
  show clockEvents i (_ ++ _) = _
  unfold clockEvents at hobservers ⊢
  rw [List.filterMap_append, hobservers]
  show clockEvents i _ ++ _ = _
  rw [clockEvents_worker, List.nil_append]

/-- One packet drained is to a synchronizer what its clock frame is, if it
is one. -/
theorem receive_clock (i : Fin n) (s : Station b ρ n) (drained : ρ × RadioArrival ρ n) :
    (s.receive drained).sessions i
        = Observed.run ClockSession.step (s.sessions i) (clockFrame i s drained)
      ∧ clockEvents i (s.receiveEffects drained)
        = Observed.trace ClockSession.step ClockSession.effects (s.sessions i)
          (clockFrame i s drained) := by
  rw [clockEvents_receiveEffects]
  show (if s.observes i drained.1 then _ else _) = _ ∧ _
  unfold clockFrame
  cases s.observes i drained.1 with
  | false => exact ⟨rfl, rfl⟩
  | true =>
      cases hframe : isClockFrame drained.2.packet.payload with
      | true => exact ⟨rfl, (List.append_nil _).symm⟩
      | false =>
          have hquiet := (s.sessions i).synchronizer.onRadioPacketReceived_foreign
            { drained.2.reads i with ownRadio := true } hframe
          constructor
          · show ((s.sessions i).whole _).1 = s.sessions i
            rw [hquiet]
            rfl
          · show ((s.sessions i).whole _).2 = []
            rw [hquiet]
            rfl

/-- One input to the station is to a synchronizer a run over its own inputs. -/
theorem after_clock (i : Fin n) (s : Station b ρ n) (input : StationInput ρ n) :
    (s.after input).sessions i
        = Observed.run ClockSession.step (s.sessions i) (s.clockCalls i input)
      ∧ clockEvents i (s.effects input)
        = Observed.trace ClockSession.step ClockSession.effects (s.sessions i)
          (s.clockCalls i input) := by
  cases input with
  | worker call => exact ⟨rfl, clockEvents_worker i _⟩
  | clock j call =>
      show Function.update s.sessions j ((s.sessions j).step call) i = _
        ∧ clockEvents i (((s.sessions j).effects call).map (.clock j)) = _
      rw [clockEvents_clock]
      by_cases hj : j = i
      · subst hj
        rw [Function.update_self, if_pos rfl, clockCalls, if_pos rfl]
        exact ⟨rfl, (List.append_nil _).symm⟩
      · rw [Function.update_of_ne (Ne.symm hj), if_neg hj, clockCalls, if_neg hj]
        exact ⟨rfl, rfl⟩
  | iterate inbound =>
      -- no packet changes which radio is whose
      let R : Station b ρ n → ClockSession → Prop := fun s' c =>
        s'.radioOf = s.radioOf ∧ s'.sessions i = c
      have hstep : ∀ s' c (drained : ρ × RadioArrival ρ n), R s' c →
          R (s'.receive drained)
              (Observed.run ClockSession.step c (clockFrame i s drained))
            ∧ clockEvents i (s'.receiveEffects drained)
              = Observed.trace ClockSession.step ClockSession.effects c
                (clockFrame i s drained) := by
        intro s' c drained ⟨hradio, hsession⟩
        have hframe : clockFrame i s drained = clockFrame i s' drained := by
          unfold clockFrame observes
          rw [hradio]
        obtain ⟨hstate, hshown⟩ := s'.receive_clock i drained
        rw [hframe, ← hsession]
        exact ⟨⟨hradio, hstate⟩, hshown⟩
      obtain ⟨⟨-, hstate⟩, hshown⟩ := Observed.simulation_onto hstep
        (show R s (s.sessions i) from ⟨rfl, rfl⟩) (s.drained inbound)
      rw [Observed.trace_static] at hstate hshown
      refine ⟨hstate, ?_⟩
      show clockEvents i (Observed.trace receive receiveEffects s (s.drained inbound)) = _
      rw [clockEvents, Observed.filterMap_trace]
      exact hshown

-- ================================================================== runs

/-- No packet drained counts for the worker and for a synchronizer. -/
theorem workerFrame_or_clockFrame (i : Fin n) (s : Station b ρ n)
    (drained : ρ × RadioArrival ρ n) :
    workerFrame drained = [] ∨ clockFrame i s drained = [] := by
  cases hframe : isTransportFrame drained.2.packet.payload with
  | true => exact Or.inr (by simp [clockFrame, not_both hframe])
  | false => exact Or.inl (by simp [workerFrame, hframe])

/-- Over any run of a station, its worker does and shows what it would with
its own calls and the transport's frames alone, and each synchronizer what
it would with its own calls and the clock frames of its radio alone; and
no packet is a frame of both. -/
theorem protocols_apart (s : Station b ρ n) (inputs : List (StationInput ρ n)) :
    ((Observed.run after s inputs).worker
        = Observed.run RadioWorker.after s.worker
          (Observed.trace after workerCalls s inputs)
      ∧ workerEvents (Observed.trace after effects s inputs)
        = Observed.trace RadioWorker.after RadioWorker.effects s.worker
          (Observed.trace after workerCalls s inputs))
      ∧ (∀ i, (Observed.run after s inputs).sessions i
          = Observed.run ClockSession.step (s.sessions i)
            (Observed.trace after (clockCalls i) s inputs)
        ∧ clockEvents i (Observed.trace after effects s inputs)
          = Observed.trace ClockSession.step ClockSession.effects (s.sessions i)
            (Observed.trace after (clockCalls i) s inputs))
      ∧ ∀ (s' : Station b ρ n) i drained,
          workerFrame drained = [] ∨ clockFrame i s' drained = [] := by
  refine ⟨?_, ?_, fun s' i drained => workerFrame_or_clockFrame i s' drained⟩
  · rw [workerEvents, Observed.filterMap_trace]
    exact Observed.simulation_onto
      (R := fun (s : Station b ρ n) (w : RadioWorker b ρ) => s.worker = w)
      (fun s w input hs => hs ▸ s.after_worker input) (Eq.refl s.worker) inputs
  · intro i
    rw [clockEvents, Observed.filterMap_trace]
    exact Observed.simulation_onto
      (R := fun (s : Station b ρ n) (c : ClockSession) => s.sessions i = c)
      (fun s c input hs => hs ▸ s.after_clock i input) (Eq.refl (s.sessions i)) inputs

end Station

end EspressioRadio
