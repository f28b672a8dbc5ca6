/-
What a sample says about two clocks, whatever the network did.

A frame on the air carries readings of its past: a request its client's
T1, a response that same T1, a T2 from after it and a T3 from before the
response left (`Flew`). This takes no bookkeeping of who asked whom: each
reading is where it is because a call put it there after the frame it
answers had come in. When a response is accepted, the bookkeeping of
`Exchanged` says that the T1 is the client's own, and with the T4 the four
readings are causal, for the offset between the very two nodes
(`Bracketed`).

A stamped packet's T2 or T4 may come out early, by the pause between the
two readings it is recovered from. That is the only slack there is: with
packets that are not stamped nothing comes out early, however long they
wait.
-/
import EspressioRadio.Clock.TimedNetwork
import EspressioRadio.Lib.FourTimestamps
import EspressioRadio.Proofs.Clock.Causality
import EspressioRadio.Proofs.Clock.Cuts
import EspressioRadio.Proofs.Clock.Exchange

namespace EspressioRadio

open RadioClockSynchronizer

-- =============================================================== readings

theorem NodeClock.ShowsTarget.instant {c : NodeClock} {i : Int} {reading : UInt64}
    (h : c.ShowsTarget i reading) : c.instant reading = i := by
  unfold NodeClock.ShowsTarget NodeClock.target at h
  unfold NodeClock.instant NodeClock.ahead
  omega

theorem ReceiveTimes.instants (times : ReceiveTimes) :
    times.received ≤ times.system ∧ times.system ≤ times.monotonic
      ∧ times.monotonic ≤ times.transmit ∧ times.transmit ≤ times.sent := by
  have h := times.ordered
  simp only [List.isChain_cons_cons] at h
  omega

/-- A recovered time is early by the pause at most. -/
theorem ReceivedAt.recovered {c : NodeClock} {pause : Int} {times : ReceiveTimes}
    {packet : RadioPacketView} {reads : ReceiveReads}
    (h : ReceivedAt c pause times packet reads)
    (hpause : 0 ≤ pause) : times.received
    ≤ c.instant (recoveredTime packet reads) + pause := by
  obtain ⟨hsystem, hmonotonic, -, -⟩ := times.instants
  by_cases hstamp : packet.receiveTimestampNanoseconds = 0
  · have htime : recoveredTime packet reads = reads.timestamp := by
      unfold recoveredTime
      exact if_pos (Or.inl hstamp)
    rw [htime, h.system.instant]
    omega
  · obtain ⟨hreceived, hshort⟩ := h.stamped hstamp
    have htime := recoveredTime_toNat ⟨hstamp, hreceived,
      h.system, h.monotonic⟩ hsystem hmonotonic
    unfold NodeClock.target at htime
    unfold NodeClock.instant NodeClock.ahead
    omega

/-- The T1 of a request is its caller's reading. -/
theorem RadioClockSynchronizer.requestSynchronization_sends {s : RadioClockSynchronizer}
    {reads : RequestReads} {destination : RadioAddress} {frame : List UInt8}
    {result : RadioSendResult}
    (h : .radioSend destination frame result ∈ (s.requestSynchronization reads).2.2) :
    readU64 frame requestTimestampOffset = reads.timestamp := by
  unfold requestSynchronization at h
  rcases s.beginRequest_cases reads with ⟨s', refused, hr, -⟩ | ⟨s', request, hr, hbegun⟩
  · rw [hr] at h
    cases h
  · rw [hr] at h
    simp only [List.mem_cons, ClockEvent.radioSend.injEq, reduceCtorEq, List.not_mem_nil,
      or_false, false_or] at h
    rw [h.2.1, hbegun.frame, encodeRequest_time, hbegun.t1]

theorem RadioClockSynchronizer.update_sends {s : RadioClockSynchronizer} {now : UInt64}
    {reads : RequestReads} {destination : RadioAddress} {frame : List UInt8}
    {result : RadioSendResult} (h : .radioSend destination frame result
      ∈ (s.update now reads).2) :
    readU64 frame requestTimestampOffset = reads.timestamp := by
  unfold update at h
  split at h
  · cases h
  · split at h
    · cases h
    · dsimp only at h
      split at h
      · exact requestSynchronization_sends h
      · cases h

/-- The four timestamps a sample is submitted with, as integers. -/
def ClockSynchronizationSample.stamps (x : ClockSynchronizationSample) :
    FourTimestamps where
  t1 := x.localRequestTransmitTime.toNat
  t2 := x.remoteRequestReceiveTime.toNat
  t3 := x.remoteResponseTransmitTime.toNat
  t4 := x.localResponseReceiveTime.toNat

/-- A response that a node accepts is about its last request. -/
theorem ClockNetwork.Exchanged.about_last {ν : Type} {address : ν → RadioAddress}
    {net : ClockNetwork ν} {n : ν} {r : RadioClockSynchronizer × List ClockEvent}
    (hex : net.Exchanged address)
    (hdistinct : ∀ m n, (address m).same (address n) = true → m = n)
    (hfew : ∀ m, (net.requests m).length < 2 ^ 32) {t : Transmission ν} (ht : t ∈ net.air)
    (hdestination : t.destination.same (address n) = true)
    (hs : Submitted (net.node n) t.frame r) :
    t.about = (n, (net.requests n).length - 1) := by
  obtain ⟨k, t1, hcount, -, hmade, e, -, -, hframe⟩ :=
    hex.current hdistinct hfew ht hdestination hs
  have hk := number_lt hfew hmade
  have hd := decodeHeader_encodeResponse (sequenceOf_ne_zero hk) t1 e.t2 e.t3
  rw [← hframe] at hd
  cases hex.air t ht with
  | request t1' hmade' hvalid hrequest =>
      rw [hrequest, decodeHeader_encodeRequest
        (sequenceOf_ne_zero (number_lt hfew hmade'))] at hd
      cases hd
  | response t1' e' hmade' he' habout' hdestination' hresponse =>
      have hk' := number_lt hfew hmade'
      rw [hresponse, decodeHeader_encodeResponse (sequenceOf_ne_zero hk')] at hd
      injection hd with hd
      injection hd with _ hd
      have hclient : t.about.1 = n := by
        apply hdistinct
        exact RadioAddress.same_trans (RadioAddress.same_symm hdestination') hdestination
      have hlast : t.about.2 = (net.requests n).length - 1 := by
        rw [sequenceOf_inj hk' hk hd, hcount, Nat.add_sub_cancel]
      exact Prod.ext hclient hlast

namespace TimedNetwork

variable {ν : Type} {address : ν → RadioAddress} {clock : ν → NodeClock} {pause : Int}
  {s s' : TimedNetwork ν}

-- ========================================================= the invariant

/-- The request this exchange is about was sent to node `m`. -/
def AskedOf (s : TimedNetwork ν) (address : ν → RadioAddress) (about : ν × Nat) (m : ν) :
    Prop :=
  ∃ t ∈ s.net.air, t.about = about
    ∧ (∃ sequence, RadioClockSynchronizer.decodeHeader t.frame = some (.request, sequence))
    ∧ t.destination.same (address m) = true

/-- The readings in a frame are from before it left. -/
structure Flew (s : TimedNetwork ν) (address : ν → RadioAddress) (clock : ν → NodeClock)
    (pause : Int) (t : Transmission ν) (departed : Int) : Prop where
  request : ∀ sequence, RadioClockSynchronizer.decodeHeader t.frame
    = some (.request, sequence) →
    (clock t.about.1).instant (readU64 t.frame requestTimestampOffset) ≤ departed
  response : ∀ sequence, RadioClockSynchronizer.decodeHeader t.frame
    = some (.response, sequence) →
    ∃ m, s.AskedOf address t.about m
      ∧ (clock t.about.1).instant (readU64 t.frame 8)
        ≤ (clock m).instant (readU64 t.frame 16) + pause
      ∧ (clock m).instant (readU64 t.frame 24) ≤ departed

/-- The sample's readings are causal, for the offset between its client
and the node asked. -/
def Bracketed (s : TimedNetwork ν) (address : ν → RadioAddress) (clock : ν → NodeClock)
    (pause : Int) (x : SubmittedSample ν) : Prop :=
  ∃ m, s.AskedOf address (x.client, x.requestsMade - 1) m
    ∧ x.sample.stamps.Causal ((clock m).ahead - (clock x.client).ahead) pause

structure Timely (s : TimedNetwork ν) (address : ν → RadioAddress) (clock : ν → NodeClock)
    (pause : Int) : Prop where
  departures : ∀ d ∈ s.departures, s.Flew address clock pause d.1 d.2
  samples : ∀ x ∈ s.net.samples, s.Bracketed address clock pause x

theorem timely_create : (create : TimedNetwork ν).Timely address clock pause where
  departures := fun _ h => absurd h List.not_mem_nil
  samples := fun _ h => absurd h List.not_mem_nil

-- ================================================================ growth

theorem AskedOf.grows (hair : s.net.air ⊆ s'.net.air) {about : ν × Nat} {m : ν}
    (h : s.AskedOf address about m) : s'.AskedOf address about m := by
  obtain ⟨t, ht, hrest⟩ := h
  exact ⟨t, hair ht, hrest⟩

theorem Flew.grows (hair : s.net.air ⊆ s'.net.air) {t : Transmission ν}
    {departed : Int} (h : s.Flew address clock pause t departed) :
    s'.Flew address clock pause t departed where
  request := h.request
  response := by
    intro sequence hd
    obtain ⟨m, hasked, htimes⟩ := h.response sequence hd
    exact ⟨m, hasked.grows hair, htimes⟩

theorem Bracketed.grows (hair : s.net.air ⊆ s'.net.air) {x : SubmittedSample ν}
    (h : s.Bracketed address clock pause x) : s'.Bracketed address clock pause x := by
  obtain ⟨m, hasked, hcausal⟩ := h
  exact ⟨m, hasked.grows hair, hcausal⟩

variable [DecidableEq ν]

section Act

variable {n : ν} {about : ν × Nat} {sent : Int}
  {r : RadioClockSynchronizer × List ClockEvent}

theorem act_air : s.net.air ⊆ (s.act n about sent r).net.air :=
  List.subset_append_left _ _

/-- What is new after a call: the frames it sent and the samples it
submitted. -/
theorem Timely.act (h : s.Timely address clock pause)
    (hframes : ∀ t, t ∈ r.2.filterMap (ClockEvent.transmission about) →
      (s.act n about sent r).Flew address clock pause t sent)
    (hsamples : ∀ x ∈ r.2.filterMap ClockEvent.submitted,
      (s.act n about sent r).Bracketed address clock pause
        ⟨n, (s.net.requests n).length, x⟩) :
    (s.act n about sent r).Timely address clock pause where
  departures := by
    intro d hd
    rcases List.mem_append.mp hd with hold | hnew
    · exact (h.departures d hold).grows act_air
    · obtain ⟨t, ht, rfl⟩ := List.mem_map.mp hnew
      exact hframes t ht
  samples := by
    intro x hx
    rcases List.mem_append.mp hx with hold | hnew
    · exact (h.samples x hold).grows act_air
    · obtain ⟨sample, hsample, rfl⟩ := List.mem_map.mp hnew
      exact hsamples sample hsample

theorem Timely.quiet (h : s.Timely address clock pause) (hq : Quiet (s.net.node n) r) :
    (s.act n about sent r).Timely address clock pause := by
  apply h.act
  · intro t ht
    rw [hq.events] at ht
    cases ht
  · intro x hx
    rw [hq.events] at hx
    cases hx

-- ============================================================== requests

theorem Timely.requested (h : s.Timely address clock pause)
    (hr : Requested (s.net.node n) (address n) r) {reads : RequestReads}
    (hsends : ∀ destination frame result, .radioSend destination frame result ∈ r.2 →
      readU64 frame requestTimestampOffset = reads.timestamp)
    (htimes : RequestedAt (clock n) sent reads) :
    (s.act n (s.net.nextRequest n) sent r).Timely address clock pause := by
  obtain ⟨t1, destination, result, hevents⟩ := hr.events
  generalize hframe : encodeRequest (s.net.node n).takeSequence.2 t1 (address n) = frame
    at hevents
  have htime : readU64 frame requestTimestampOffset = reads.timestamp := by
    apply hsends destination frame result
    rw [hevents]
    exact List.mem_cons_of_mem _ List.mem_cons_self
  apply h.act
  · intro t ht
    rw [hevents] at ht
    obtain rfl : t = ⟨destination, frame, s.net.nextRequest n⟩ := by
      simpa [List.filterMap_cons, ClockEvent.transmission] using ht
    refine ⟨?_, ?_⟩
    · intro _ _
      obtain ⟨i, hshows, hle⟩ := htimes.timestamp
      show (clock n).instant (readU64 frame requestTimestampOffset) ≤ sent
      rw [htime, hshows.instant]
      exact hle
    · -- a request is no response
      intro sequence hd
      rw [← hframe, decodeHeader_encodeRequest (takeSequence_ne_zero _)] at hd
      cases hd
  · intro x hx
    rw [hevents] at hx
    simp [List.filterMap_cons, ClockEvent.submitted] at hx

-- =============================================================== packets

variable {t : Transmission ν} {departed : Int} {packet : RadioPacketView}
  {reads : ReceiveReads}
  {times : ReceiveTimes}

/-- An answer to a request: every frame's readings are still from before it
left, for the answer leaves after its request came in. -/
theorem Timely.answered (h : s.Timely address clock pause) (hpause : 0 ≤ pause)
    (hair : (t, departed) ∈ s.departures) (ht : t ∈ s.net.air)
    (hdestination : t.destination.same (address n) = true)
    (hpayload : packet.payload = t.frame) (hflight : departed ≤ times.received)
    (htimes : ReceivedAt (clock n) pause times packet reads)
    (ha : Answered (s.net.node n) t.frame
      ((s.net.node n).onRadioPacketReceived packet reads)) :
    (s.act n t.about times.sent
      ((s.net.node n).onRadioPacketReceived packet reads)).Timely address clock pause := by
  have hflew : s.Flew address clock pause t departed := h.departures _ hair
  obtain ⟨number, t2, t3, destination, result, hd, -, hevents⟩ := ha.events
  generalize hencoded : encodeResponse number _ t2 t3 = frame at hevents
  have hmem : .radioSend destination frame result
      ∈ ((s.net.node n).onRadioPacketReceived packet reads).2 := by
    rw [hevents]
    exact List.mem_cons_of_mem _ List.mem_cons_self
  obtain ⟨sequence, hframe⟩ := onRadioPacketReceived_sends hmem
  obtain ⟨hone, htwo, hthree⟩ := encodeResponse_times sequence
    (readU64 packet.payload requestTimestampOffset) (recoveredTime packet reads)
    reads.transmitTimestamp
  apply h.act
  · intro t' ht'
    rw [hevents] at ht'
    obtain rfl : t' = ⟨destination, frame, t.about⟩ := by
      simpa [List.filterMap_cons, ClockEvent.transmission] using ht'
    refine ⟨?_, ?_⟩
    · -- a response is no request
      intro _ hrequest
      rw [← hencoded, decodeHeader_encodeResponse (decodeHeader_ne_zero hd)] at hrequest
      cases hrequest
    · -- its T2 is read after the request came in, and its T3 before it leaves
      intro _ _
      have hasked : s.AskedOf address t.about n :=
        ⟨t, ht, rfl, ⟨number, hd⟩, hdestination⟩
      refine ⟨n, hasked.grows act_air, ?_, ?_⟩
      · show (clock t.about.1).instant (readU64 frame 8)
          ≤ (clock n).instant (readU64 frame 16) + pause
        rw [hframe, hone, htwo, hpayload]
        have hsent := hflew.request number hd
        have hrecovered := htimes.recovered hpause
        exact hsent.trans (hflight.trans hrecovered)
      · show (clock n).instant (readU64 frame 24) ≤ times.sent
        rw [hframe, hthree, htimes.transmit.instant]
        exact times.instants.2.2.2
  · -- no sample is submitted
    intro x hx
    rw [hevents] at hx
    simp [List.filterMap_cons, ClockEvent.submitted] at hx

/-- A sample: the readings of a response that came in after its T3, and a
T4 that is early by the pause at most. -/
theorem Timely.submitted (h : s.Timely address clock pause) (hpause : 0 ≤ pause)
    (hex : s.net.Exchanged address)
    (hdistinct : ∀ m n, (address m).same (address n) = true → m = n)
    (hfew : ∀ m, (s.net.requests m).length < 2 ^ 32)
    (hair : (t, departed) ∈ s.departures) (ht : t ∈ s.net.air)
    (hdestination : t.destination.same (address n) = true)
    (hpayload : packet.payload = t.frame) (hflight : departed ≤ times.received)
    (htimes : ReceivedAt (clock n) pause times packet reads)
    (hs : Submitted (s.net.node n) t.frame
      ((s.net.node n).onRadioPacketReceived packet reads)) :
    (s.act n t.about times.sent
      ((s.net.node n).onRadioPacketReceived packet reads)).Timely address clock pause := by
  have hflew : s.Flew address clock pause t departed := h.departures _ hair
  have habout := hex.about_last hdistinct hfew ht hdestination hs
  obtain ⟨t4, adjustmentMode, hevents⟩ := hs.events
  generalize hread : ClockSynchronizationSample.mk _ _ _ t4 = sample at hevents
  have hmem : .submitSynchronizationSample sample adjustmentMode
      ∈ ((s.net.node n).onRadioPacketReceived packet reads).2 := by
    rw [hevents]
    exact List.mem_cons_self
  obtain ⟨-, hsample, -⟩ := submitted_iff.mp hmem
  obtain ⟨m, hasked, hthere, hleft⟩ := hflew.response _ hs.decodes
  apply h.act
  · -- nothing is sent
    intro t' ht'
    rw [hevents] at ht'
    simp [List.filterMap_cons, ClockEvent.transmission] at ht'
  · intro x hx
    rw [hevents] at hx
    obtain rfl : x = sample := by
      simpa [List.filterMap_cons, ClockEvent.submitted] using hx
    rw [habout] at hasked hthere
    refine ⟨m, hasked.grows act_air, ?_⟩
    -- T4 is read after the response came in, but for the pause taken off
    have hback := htimes.recovered hpause
    have hlate := hleft.trans (hflight.trans hback)
    dsimp only at hthere
    unfold NodeClock.instant at hthere hlate
    rw [hsample]
    constructor
    · show 0 ≤ ((readU64 packet.payload 16).toNat : Int) - (readU64 packet.payload 8).toNat
        - ((clock m).ahead - (clock n).ahead) + pause
      rw [hpayload]
      omega
    · show 0 ≤ ((recoveredTime packet reads).toNat : Int) - (readU64 packet.payload 24).toNat
        + ((clock m).ahead - (clock n).ahead) + pause
      rw [hpayload]
      omega

end Act

-- ================================================================== runs

/-- A step in time, its instants forgotten, is a step of the network, as
long as every departure is of a frame on the air. -/
theorem Step.forget (hstep : Step address clock pause s s')
    (hair : ∀ d ∈ s.departures, d.1 ∈ s.net.air) :
    ClockNetwork.Step address s.net s'.net := by
  cases hstep with
  | initializeWith n config reads hlocal sent =>
    exact .initializeWith n config reads hlocal
  | shutdown n sent => exact .shutdown n
  | resetStatistics n sent => exact .resetStatistics n
  | requestSynchronization n reads hlocal sent htimes =>
      exact .requestSynchronization n reads hlocal
  | update n now reads hlocal sent htimes => exact .update n now reads hlocal
  | receive n t departed packet reads times hdeparted hdestination hpayload hflight htimes =>
      exact .receive n t packet reads (hair _ hdeparted) hdestination hpayload

theorem act_departed {n : ν} {about : ν × Nat} {sent : Int}
    {r : RadioClockSynchronizer × List ClockEvent}
    (h : ∀ d ∈ s.departures, d.1 ∈ s.net.air) :
    ∀ d ∈ (s.act n about sent r).departures, d.1 ∈ (s.act n about sent r).net.air := by
  intro d hd
  rcases List.mem_append.mp hd with hold | hnew
  · exact act_air (h d hold)
  · obtain ⟨t, ht, rfl⟩ := List.mem_map.mp hnew
    exact List.mem_append_right _ ht

theorem Reachable.departed (hreach : Reachable address clock pause s) :
    ∀ d ∈ s.departures, d.1 ∈ s.net.air := by
  induction hreach with
  | create => exact fun _ h => absurd h List.not_mem_nil
  | step _ hstep ih => cases hstep <;> exact act_departed ih

theorem Timely.step (h : s.Timely address clock pause) (hpause : 0 ≤ pause)
    (hex : s.net.Exchanged address)
    (hdistinct : ∀ m n, (address m).same (address n) = true → m = n)
    (hfew : ∀ m, (s.net.requests m).length < 2 ^ 32)
    (hdeparted : ∀ d ∈ s.departures, d.1 ∈ s.net.air)
    (hstep : Step address clock pause s s') : s'.Timely address clock pause := by
  cases hstep with
  | initializeWith n config reads hlocal sent =>
      exact h.quiet (initializeWith_quiet _ config reads)
  | shutdown n sent => exact h.quiet (shutdown_quiet _)
  | resetStatistics n sent => exact h.quiet (resetStatistics_quiet _)
  | requestSynchronization n reads hlocal sent htimes =>
      rcases (s.net.node n).requestSynchronization_cases reads with hq | hr
      · exact h.quiet hq
      · rw [hlocal] at hr
        exact h.requested hr (fun _ _ _ hsent =>
          requestSynchronization_sends hsent) htimes
  | update n now reads hlocal sent htimes =>
      rcases (s.net.node n).update_cases now reads with hq | hr
      · exact h.quiet hq
      · rw [hlocal] at hr
        exact h.requested hr (fun _ _ _ hsent => update_sends hsent) htimes
  | receive n t departed packet reads times hair hdestination hpayload hflight htimes =>
      have ht : t ∈ s.net.air := hdeparted _ hair
      rcases (s.net.node n).onRadioPacketReceived_cases packet reads with hq | ha | hs
      · exact h.quiet hq
      · rw [hpayload] at ha
        exact h.answered hpause hair ht hdestination hpayload hflight htimes ha
      · rw [hpayload] at hs
        exact h.submitted hpause hex hdistinct hfew hair ht hdestination hpayload hflight htimes hs

theorem Reachable.timely (hpause : 0 ≤ pause)
    (hdistinct : ∀ m n, (address m).same (address n) = true → m = n)
    (hreach : Reachable address clock pause s)
    (hfew : ∀ n, (s.net.requests n).length < 2 ^ 32) :
    s.net.Exchanged address ∧ s.Timely address clock pause := by
  induction hreach with
  | create => exact ⟨ClockNetwork.exchanged_create, timely_create⟩
  | @step s s' hreach hstep ih =>
      have hforget := hstep.forget hreach.departed
      have hbefore : ∀ n, (s.net.requests n).length < 2 ^ 32 := fun n =>
        Nat.lt_of_le_of_lt (hforget.requests_le n) (hfew n)
      obtain ⟨hex, htimely⟩ := ih hbefore
      refine ⟨hex.step hdistinct hforget hfew, ?_⟩
      exact htimely.step hpause hex hdistinct hbefore hreach.departed hstep

/-- Whatever a network came to, every sample's readings are causal for the
offset between its client and the node its request was sent to: half of
the offset they suggest is off by half the round trip and the longest pause
at most. -/
theorem offset_bounded (hpause : 0 ≤ pause)
    (hdistinct : ∀ m n, (address m).same (address n) = true → m = n)
    (hreach : Reachable address clock pause s)
    (hfew : ∀ n, (s.net.requests n).length < 2 ^ 32) (x : SubmittedSample ν)
    (hx : x ∈ s.net.samples) :
    ∃ m, s.AskedOf address (x.client, x.requestsMade - 1) m
      ∧ |x.sample.stamps.twiceOffset - 2 * ((clock m).ahead - (clock x.client).ahead)|
        ≤ x.sample.stamps.roundTrip + 2 * pause := by
  obtain ⟨-, htimely⟩ := hreach.timely hpause hdistinct hfew
  obtain ⟨m, hasked, hcausal⟩ := htimely.samples x hx
  exact ⟨m, hasked, (x.sample.stamps.causal_iff _ _).mp hcausal⟩

-- ============================================================ one exchange

section Pair

open ClockNetwork (pairAddress pairInitialize)

/-- The reference's target is 1000 ahead of the client's. -/
def pairClock (n : Bool) : NodeClock where
  monotonicOffset := 0
  targetOffset := if n then 0 else 1000

def measuredStarted : TimedNetwork Bool :=
  let s := create
  let s := s.act true (s.net.nextRequest true) 0
    (((s.net.node true).initializeWith
      { mode := .client, referencePeer := pairAddress false }
        (pairInitialize true)).1, [])
  s.act false (s.net.nextRequest false) 0
    (((s.net.node false).initializeWith { mode := .reference }
      (pairInitialize false)).1, [])

def measuredRequestReads : RequestReads where
  isStarted := true
  localAddress := pairAddress true
  timestamp := 1000
  monotonic := 1000
  sent := .accepted

def measuredRequested : TimedNetwork Bool :=
  measuredStarted.act true (measuredStarted.net.nextRequest true) 1001
    (((measuredStarted.net.node true).requestSynchronization measuredRequestReads).1,
      ((measuredStarted.net.node true).requestSynchronization measuredRequestReads).2.2)

def measuredReads (timestamp monotonic transmitTimestamp : UInt64) : ReceiveReads where
  addressBytes := 1
  timestamp := timestamp
  monotonic := monotonic
  transmitTimestamp := transmitTimestamp
  sent := .accepted
  accepted := true

def measuredRequest : Transmission Bool where
  destination := pairAddress false
  frame := encodeRequest 1 1000 (pairAddress true)
  about := (true, 0)

/-- The reference's pause between its two readings takes 1 off T2. -/
def measuredAnswerTimes : ReceiveTimes where
  received := 1003
  system := 1005
  monotonic := 1006
  transmit := 1007
  sent := 1008
  ordered := by decide

def measuredAnswered : TimedNetwork Bool :=
  measuredRequested.act false measuredRequest.about measuredAnswerTimes.sent
    ((measuredRequested.net.node false).onRadioPacketReceived
      { payload := measuredRequest.frame, receiveTimestampNanoseconds := 1003 }
      (measuredReads 2005 1006 2007))

def measuredResponse : Transmission Bool where
  destination := pairAddress true
  frame := encodeResponse 1 1000 2002 2007
  about := (true, 0)

def measuredSubmitTimes : ReceiveTimes where
  received := 1012
  system := 1013
  monotonic := 1013
  transmit := 1013
  sent := 1013
  ordered := by decide

def measuredSubmitted : TimedNetwork Bool :=
  measuredAnswered.act true measuredResponse.about measuredSubmitTimes.sent
    ((measuredAnswered.net.node true).onRadioPacketReceived
      { payload := measuredResponse.frame, receiveTimestampNanoseconds := 1012 }
      (measuredReads 1013 1013 1013))

theorem measuredRequested_departures :
    measuredRequested.departures = [(measuredRequest, 1001)] := rfl

theorem measuredAnswered_departures :
    measuredAnswered.departures = [(measuredRequest, 1001),
      (measuredResponse, 1008)] := rfl

theorem measuredSubmitted_reachable :
    Reachable pairAddress pairClock 1 measuredSubmitted := by
  have hstarted : Reachable pairAddress pairClock 1 measuredStarted :=
    .step (.step .create (.initializeWith true _ (pairInitialize true) rfl 0))
      (.initializeWith false _ (pairInitialize false) rfl 0)
  have hrequested : Reachable pairAddress pairClock 1 measuredRequested := by
    apply Reachable.step hstarted
    apply Step.requestSynchronization true measuredRequestReads rfl 1001
    exact ⟨1000, rfl, by decide⟩
  have hanswered : Reachable pairAddress pairClock 1 measuredAnswered := by
    apply Reachable.step hrequested
    apply Step.receive false measuredRequest 1001 _ _ measuredAnswerTimes
    · simp [measuredRequested_departures]
    · decide
    · rfl
    · decide
    · exact ⟨fun _ => ⟨rfl, by decide⟩, rfl, rfl, rfl⟩
  apply Reachable.step hanswered
  apply Step.receive true measuredResponse 1008 _ _ measuredSubmitTimes
  · simp [measuredAnswered_departures]
  · decide
  · rfl
  · decide
  · exact ⟨fun _ => ⟨rfl, by decide⟩, rfl, rfl, rfl⟩

/-- The readings suggest an offset of 998 and a half, from a round trip of
7. -/
theorem pair_offset_bounded :
    measuredSubmitted.net.samples = [⟨true, 1, ⟨1000, 2002, 2007, 1012⟩⟩]
      ∧ ∀ x ∈ measuredSubmitted.net.samples,
        ∃ m, measuredSubmitted.AskedOf pairAddress (x.client, x.requestsMade - 1) m
          ∧ |x.sample.stamps.twiceOffset - 2 * ((pairClock m).ahead - (pairClock x.client).ahead)|
            ≤ x.sample.stamps.roundTrip + 2 * 1 := by
  refine ⟨rfl, offset_bounded (by decide) ClockNetwork.pairAddress_distinct
    measuredSubmitted_reachable ?_⟩
  intro n
  cases n <;> decide

end Pair

end TimedNetwork

end EspressioRadio
