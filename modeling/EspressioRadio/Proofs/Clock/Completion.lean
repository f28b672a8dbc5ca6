/-
An exchange comes to its sample.

`clock_exchange_integrity` says what a sample is made of, not that there
is one. Here a client's request has been accepted by its radio, it reaches
a reference that is ready for it, and the response reaches the client:
then the target has had one sample for that request and no second
(`exchange_completes`). In between anything may happen on all nodes, as
long as the client itself makes no further request and stays as it is
configured: other frames may come in at the client, its own response twice
among them, and `Update` may be called while no request is due.

What carries it is `Waiting`: the request is pending, or has its sample.
Only a response to it ends the former, by way of the latter.
-/
import EspressioRadio.Proofs.Clock.Abandon
import EspressioRadio.Proofs.Clock.Exchange
import EspressioRadio.Proofs.Clock.Fits
import Mathlib.Logic.Relation

namespace EspressioRadio

open Relation (ReflTransGen)

-- ================================================================ one node

namespace RadioClockSynchronizer

variable {s : RadioClockSynchronizer} {packet : RadioPacketView} {reads : ReceiveReads}

theorem onRadioPacketReceived_kept (s : RadioClockSynchronizer) (packet : RadioPacketView)
    (reads : ReceiveReads) : Kept s (s.onRadioPacketReceived packet reads).1 := by
  have hbegin := s.beginReceive_kept packet reads
  unfold onRadioPacketReceived
  rcases hr : s.beginReceive packet reads with ⟨s', events, response⟩
  rw [hr] at hbegin
  cases response with
  | none => exact hbegin
  | some response => exact hbegin.trans (endResponse_kept _)

/-- The synchronizer answers a request from this address: in a frame that
bears the address, with a source that agrees with it if there is one. -/
structure Answers (s : RadioClockSynchronizer) (client : RadioAddress)
    (packet : RadioPacketView) (reads : ReceiveReads) : Prop where
  initialized : s.initialized = true
  ownRadio : reads.ownRadio = true
  timestamp : s.config.requireReceiveTimestamp = true
    → packet.receiveTimestampNanoseconds ≠ 0
  referenceMode : isReferenceMode s.config.mode = true
  source : packet.source.isValid = true → packet.source.same client = true
  addressBytes : reads.addressBytes ≠ 0 → client.length = reads.addressBytes

/-- A synchronizer that answers a request from this address sends one
response: to that address, with the request's number and T1, its own T2 and
T3. -/
theorem Answers.events {client : RadioAddress} {sequence : UInt32} {t1 : UInt64}
    (h : s.Answers client packet reads) (hsequence : sequence ≠ 0)
    (hclient : client.isValid = true)
    (hpayload : packet.payload = encodeRequest sequence t1 client) :
    ∃ destination, destination.same client = true
      ∧ (s.onRadioPacketReceived packet reads).2 =
        [.requestProcessed sequence (recoveredTime packet reads) reads.transmitTimestamp,
          .radioSend destination
            (encodeResponse sequence t1
              (recoveredTime packet reads) reads.transmitTimestamp)
            reads.sent] := by
  have hsize : packet.payload.length = requestBytes := by
    rw [hpayload]
    exact encodeRequest_length _ _ _
  have hsame : (decodeRequestAddress packet.payload).same client = true := by
    rw [hpayload]
    exact decodeRequestAddress_encodeRequest hclient
  have htime : readU64 packet.payload requestTimestampOffset = t1 := by
    rw [hpayload]
    exact encodeRequest_time
  have hembedded : (decodeRequestAddress packet.payload).isValid = true := by
    have hlength := (RadioAddress.same_iff.mp hsame).1
    unfold RadioAddress.isValid at hclient ⊢
    rw [hlength]
    exact hclient
  have hagrees : ¬(packet.source.isValid
      && !packet.source.same (decodeRequestAddress packet.payload)) = true := by
    simp only [Bool.and_eq_true, Bool.not_eq_true', not_and, Bool.not_eq_false]
    intro hvalid
    exact RadioAddress.same_trans (h.source hvalid) (RadioAddress.same_symm hsame)
  have hdestination : (if packet.source.isValid then packet.source
      else decodeRequestAddress packet.payload).same client = true := by
    split
    · next hvalid => exact h.source hvalid
    · exact hsame
  have hlength := (RadioAddress.same_iff.mp hdestination).1
  refine ⟨_, hdestination, ?_⟩
  rw [onRadioPacketReceived_eq]
  rw [hpayload, decodeHeader_encodeRequest hsequence, ← hpayload]
  have hstamped : ¬(s.config.requireReceiveTimestamp
      && packet.receiveTimestampNanoseconds == 0) = true := by
    simpa using h.timestamp
  simp only [h.initialized, h.ownRadio, if_neg hstamped, Bool.not_true, Bool.or_self,
    Bool.false_eq_true, if_false]
  unfold processRequest beginResponse
  simp only [h.referenceMode, hsize, hembedded, if_neg hagrees, Bool.not_true,
    Bool.or_self,
    bne_self_eq_false, Bool.false_eq_true, if_false, htime]
  rw [if_neg]
  · rw [recoverSystemTimestamp_time]
  · rw [hlength]
    simpa using h.addressBytes

/-- What an accepted `RequestSynchronization` leaves behind: its number
pending, its T1 captured and its frame handed to the radio. -/
structure Accepted (s : RadioClockSynchronizer) (reads : RequestReads)
    (r : RadioClockSynchronizer × List ClockEvent) : Prop where
  isValid : reads.localAddress.isValid = true
  clientMode : isClientMode s.config.mode = true
  initialized : r.1.initialized = true
  config_eq : r.1.config = s.config
  pendingSequence : r.1.pendingSequence = s.takeSequence.2
  events : r.2 =
    [.requestCaptured s.takeSequence.2 reads.timestamp,
      .radioSend s.config.referencePeer
        (encodeRequest s.takeSequence.2 reads.timestamp reads.localAddress) reads.sent]

theorem requestSynchronization_accepted {reads : RequestReads}
    (h : (s.requestSynchronization reads).2.1.ok = true) :
    Accepted s reads
      ((s.requestSynchronization reads).1, (s.requestSynchronization reads).2.2) := by
  cases hrefuses : s.refuses reads with
  | true =>
      obtain ⟨s', result, hr, hfailed⟩ := beginRequest_of_refuses hrefuses
      unfold requestSynchronization at h
      rw [hr] at h
      rw [show result.ok = true from h] at hfailed
      cases hfailed
  | false =>
      obtain ⟨s', request, hr⟩ := beginRequest_of_not_refuses hrefuses
      have hbegun := Begun.of_eq hr
      obtain ⟨hinitialized, hclient, -, hdestination⟩ := beginRequest_ready hr
      obtain ⟨result, hrefused⟩ | ⟨s₀, request₀, hr₀, hconfig, hinit, -, -⟩ :=
        s.beginRequest_recorded reads
      · rw [hr] at hrefused
        cases hrefused
      · rw [hr] at hr₀
        obtain ⟨rfl, -⟩ := Prod.mk.inj hr₀
        unfold requestSynchronization at h ⊢
        rw [hr] at h ⊢
        have hend : s'.endRequest reads.sent
            = s'.count RadioClockSynchronizationStatistics.requestSent := by
          unfold endRequest
          exact if_pos h
        dsimp only
        rw [hend]
        refine ⟨hbegun.isValid, hclient, hinit.trans hinitialized, hconfig, ?_, ?_⟩
        · exact hbegun.pendingSequence.trans hbegun.sequence
        · rw [hbegun.frame, hbegun.t1, hbegun.sequence, hdestination]

/-- Handling a packet captures no T1: only requests do. -/
theorem onRadioPacketReceived_captured (s : RadioClockSynchronizer)
    (packet : RadioPacketView)
    (reads : ReceiveReads) :
    (s.onRadioPacketReceived packet reads).2.filterMap ClockEvent.captured = [] := by
  rcases s.onRadioPacketReceived_cases packet reads with hq | ha | hs
  · rw [hq.events]
    rfl
  · obtain ⟨sequence, t2, t3, destination, result, -, -, hevents⟩ := ha.events
    rw [hevents]
    rfl
  · obtain ⟨t4, adjustmentMode, hevents⟩ := hs.events
    rw [hevents]
    rfl

end RadioClockSynchronizer

-- =============================================================== network

namespace ClockNetwork

open RadioClockSynchronizer

variable {ν : Type} [DecidableEq ν] {address : ν → RadioAddress}
  {net net' : ClockNetwork ν}
  {n : ν} {k : Nat} {config : RadioClockSynchronizationConfig}

/-- One call on another node, or one on this node that neither makes a
request nor changes how it is set up. -/
inductive Undisturbed (address : ν → RadioAddress) (n : ν) (net : ClockNetwork ν) :
    ClockNetwork ν → Prop where
  | other (m : ν) (about : ν × Nat) (r : RadioClockSynchronizer × List ClockEvent)
      (hm : m ≠ n) (hstep : Step address net (net.act m about r)) :
      Undisturbed address n net (net.act m about r)
  | resetStatistics :
      Undisturbed address n net
        (net.act n (net.nextRequest n) ((net.node n).resetStatistics, []))
  | update (now : UInt64) (reads : RequestReads) (hlocal : reads.localAddress = address n)
      (hidle : (net.node n).isUpdateDue now = false) :
      Undisturbed address n net
        (net.act n (net.nextRequest n) ((net.node n).update now reads))
  | receive (transmission : Transmission ν) (packet : RadioPacketView)
    (reads : ReceiveReads)
      (hair : transmission ∈ net.air)
      (hdestination : transmission.destination.same (address n) = true)
      (hpayload : packet.payload = transmission.frame) :
      Undisturbed address n net
        (net.act n transmission.about ((net.node n).onRadioPacketReceived packet reads))

theorem Undisturbed.step (h : Undisturbed address n net net') :
    Step address net net' := by
  cases h with
  | other m about r hm hstep => exact hstep
  | resetStatistics => exact .resetStatistics n
  | update now reads hlocal hidle => exact .update n now reads hlocal
  | receive t packet reads hair hdestination hpayload =>
      exact .receive n t packet reads hair hdestination hpayload

/-- The client's last request is its `k`-th; it is pending or has its
sample, and the client is as it was. -/
structure Waiting (net : ClockNetwork ν) (n : ν) (k : Nat)
    (config : RadioClockSynchronizationConfig) : Prop where
  last : (net.requests n).length = k + 1
  initialized : (net.node n).initialized = true
  config_eq : (net.node n).config = config
  awaited : (net.node n).pendingSequence = sequenceOf k
    ∨ (n, k + 1) ∈ net.samples.map answers

/-- A sample that has been submitted stays among the samples. -/
theorem act_samples {m : ν} {about : ν × Nat}
    {r : RadioClockSynchronizer × List ClockEvent}
    {x : ν × Nat} (h : x ∈ net.samples.map answers) :
    x ∈ (net.act m about r).samples.map answers := by
  unfold act
  rw [List.map_append]
  exact List.mem_append_left _ h

/-- A call on the client that submits nothing and leaves its numbers
alone. -/
theorem Waiting.passes (h : net.Waiting n k config) {about : ν × Nat}
    {r : RadioClockSynchronizer × List ClockEvent} (hkept : Kept (net.node n) r.1)
    (hpending : r.1.pendingSequence = (net.node n).pendingSequence)
    (hcaptured : r.2.filterMap ClockEvent.captured = []) :
    (net.act n about r).Waiting n k config where
  last := by simp [act, hcaptured, h.last]
  initialized := by simp [act, hkept.initialized, h.initialized]
  config_eq := by simp [act, hkept.config, h.config_eq]
  awaited := by
    rcases h.awaited with hawaited | hsample
    · refine Or.inl ?_
      simp [act, hpending, hawaited]
    · exact Or.inr (act_samples hsample)

/-- A packet at the client: a response to its request has it submitted,
any other leaves it pending. -/
theorem Waiting.receive (h : net.Waiting n k config) (about : ν × Nat)
    (packet : RadioPacketView) (reads : ReceiveReads) :
    (net.act n about
      ((net.node n).onRadioPacketReceived packet reads)).Waiting n k config := by
  have hkept := (net.node n).onRadioPacketReceived_kept packet reads
  have hcaptured := (net.node n).onRadioPacketReceived_captured packet reads
  cases hsequence : (net.node n).responseSequence? packet reads.ownRadio with
  | none =>
      exact h.passes hkept
        (onRadioPacketReceived_other hsequence).pendingSequence hcaptured
  | some sequence =>
      have heq := onRadioPacketReceived_response hsequence
      by_cases hpending : (net.node n).pendingSequence = sequence
      · rw [if_pos hpending] at heq
        refine ⟨?_, ?_, ?_, Or.inr ?_⟩
        · simp [act, hcaptured, h.last]
        · simp [act, hkept.initialized, h.initialized]
        · simp [act, hkept.config, h.config_eq]
        · rw [act_submitted (heq ▸ acceptResponse_events _ packet reads)]
          simp [answers, h.last]
      · rw [if_neg hpending] at heq
        apply h.passes hkept _ hcaptured
        rw [heq]
        rfl

theorem Waiting.undisturbed (h : net.Waiting n k config)
    (hstep : Undisturbed address n net net') : net'.Waiting n k config := by
  cases hstep with
  | other m about r hm hstep =>
      refine ⟨?_, ?_, ?_, ?_⟩
      · simp [act, Ne.symm hm, h.last]
      · simp [act, Ne.symm hm, h.initialized]
      · simp [act, Ne.symm hm, h.config_eq]
      · rcases h.awaited with hawaited | hsample
        · refine Or.inl ?_
          simp [act, Ne.symm hm, hawaited]
        · exact Or.inr (act_samples hsample)
  | resetStatistics => exact h.passes ⟨rfl, rfl, rfl⟩ rfl rfl
  | update now reads hlocal hidle =>
      rw [update_eq, if_neg (by rw [hidle]; decide)]
      exact h.passes (Kept.refl _) rfl rfl
  | receive t packet reads hair hdestination hpayload =>
    exact h.receive t.about packet reads

theorem Waiting.run (h : net.Waiting n k config)
    (hrun : ReflTransGen (Undisturbed address n) net net') : net'.Waiting n k config := by
  induction hrun with
  | refl => exact h
  | tail _ hstep ih => exact ih.undisturbed hstep

/-- What was on the air before a step is on the air after it. -/
theorem Undisturbed.air (hstep : Undisturbed address n net net') :
    net.air ⊆ net'.air := by
  obtain ⟨m, about, r, rfl, -⟩ := hstep.step.outcome
  exact List.subset_append_left _ _

theorem Undisturbed.run_air (hrun : ReflTransGen (Undisturbed address n) net net') :
    net.air ⊆ net'.air := by
  induction hrun with
  | refl => exact List.Subset.refl _
  | tail _ hstep ih => exact List.Subset.trans ih hstep.air

theorem Undisturbed.reachable (hreach : Reachable address net)
    (hrun : ReflTransGen (Undisturbed address n) net net') : Reachable address net' := by
  induction hrun with
  | refl => exact hreach
  | tail _ hstep ih => exact ih.step hstep.step

theorem Undisturbed.requests_le (hrun : ReflTransGen (Undisturbed address n) net net')
    (i : ν) :
    (net.requests i).length ≤ (net'.requests i).length := by
  induction hrun with
  | refl => exact Nat.le_refl _
  | tail _ hstep ih => exact ih.trans (hstep.step.requests_le i)

-- ============================================================== exchange

/-- The network after `RequestSynchronization` on node `n`. -/
def ask (net : ClockNetwork ν) (n : ν) (reads : RequestReads) : ClockNetwork ν :=
  net.act n (net.nextRequest n)
    (((net.node n).requestSynchronization reads).1,
      ((net.node n).requestSynchronization reads).2.2)

/-- The network after `OnRadioPacketReceived` on node `n`. -/
def hear (net : ClockNetwork ν) (n : ν) (about : ν × Nat) (packet : RadioPacketView)
    (reads : ReceiveReads) : ClockNetwork ν :=
  net.act n about ((net.node n).onRadioPacketReceived packet reads)

theorem hear_requests_le (net : ClockNetwork ν) (m : ν) (about : ν × Nat)
    (packet : RadioPacketView) (reads : ReceiveReads) (i : ν) :
    (net.requests i).length ≤ ((net.hear m about packet reads).requests i).length :=
  ((net.act_grows m about _).requests i).length_le

/-- What is sent while a packet is handled is on the air. -/
theorem hear_air {m : ν} (about : ν × Nat) {packet : RadioPacketView}
    {reads : ReceiveReads}
    {destination : RadioAddress} {frame : List UInt8} {result : RadioSendResult}
    (h : .radioSend destination frame result
      ∈ ((net.node m).onRadioPacketReceived packet reads).2) :
    ⟨destination, frame, about⟩ ∈ (net.hear m about packet reads).air :=
  List.mem_append_right _ (List.mem_filterMap.mpr ⟨_, h, rfl⟩)

theorem ask_requests {reads : RequestReads}
    (h : ((net.node n).requestSynchronization reads).2.1.ok = true) :
    ((net.ask n reads).requests n).length = (net.requests n).length + 1 := by
  unfold ask
  rw [act_requested (requestSynchronization_accepted h).events]
  simp

/-- The client waits for the request just accepted, which is on the
air. -/
theorem ask_waiting {reads : RequestReads} (hex : net.Exchanged address)
    (hfew : (net.requests n).length + 1 < 2 ^ 32)
    (h : ((net.node n).requestSynchronization reads).2.1.ok = true) :
    (net.ask n reads).Waiting n (net.requests n).length (net.node n).config
      ∧ ⟨(net.node n).config.referencePeer,
          encodeRequest
            (sequenceOf (net.requests n).length) reads.timestamp reads.localAddress,
          net.nextRequest n⟩ ∈ (net.ask n reads).air := by
  have hr := requestSynchronization_accepted h
  have hsequence := (takeSequence_of_next hfew (hex.next n)).2
  unfold ask
  rw [act_requested hr.events, hsequence]
  refine ⟨⟨?_, ?_, ?_, Or.inl ?_⟩, ?_⟩
  · simp
  · simpa using hr.initialized
  · simpa using hr.config_eq
  · simpa [hsequence] using hr.pendingSequence
  · simp

/-- A frame on the air comes in at the node it is for. -/
theorem Step.hear {m : ν} {t : Transmission ν} {packet : RadioPacketView}
    (reads : ReceiveReads) (hair : t ∈ net.air)
    (hdestination : t.destination.same (address m) = true)
    (hpayload : packet.payload = t.frame) :
    Step address net (net.hear m t.about packet reads) :=
  .receive m t packet reads hair hdestination hpayload

theorem Undisturbed.hear (n : ν) {m : ν} {t : Transmission ν} {packet : RadioPacketView}
    (reads : ReceiveReads) (hair : t ∈ net.air)
    (hdestination : t.destination.same (address m) = true)
    (hpayload : packet.payload = t.frame) :
    Undisturbed address n net (net.hear m t.about packet reads) := by
  by_cases hm : m = n
  · subst hm
    exact .receive t packet reads hair hdestination hpayload
  · exact .other m t.about _ hm (Step.hear reads hair hdestination hpayload)

/-- At a client whose request is pending, the response has a sample
submitted for it. -/
theorem Waiting.answered (h : net.Waiting n k config) (hk : k + 1 < 2 ^ 32)
    (hclient : isClientMode config.mode = true) {about : ν × Nat}
    {packet : RadioPacketView}
    {reads : ReceiveReads} {t1 t2 t3 : UInt64}
    (hpayload : packet.payload = encodeResponse (sequenceOf k) t1 t2 t3)
    (hown : reads.ownRadio = true)
    (hstamped : config.requireReceiveTimestamp = true →
      packet.receiveTimestampNanoseconds ≠ 0)
    (hsource : packet.source.isValid = true →
      packet.source.same config.referencePeer = true) :
    (n, k + 1) ∈ (net.hear n about packet reads).samples.map answers := by
  rcases h.awaited with hpending | hsample
  · have hwell : (net.node n).WellFormedResponse packet reads.ownRadio (sequenceOf k) :=
      { initialized := h.initialized
        ownRadio := hown
        decodes := by
          rw [hpayload]
          exact decodeHeader_encodeResponse (sequenceOf_ne_zero hk) t1 t2 t3
        timestamp := by
          rw [h.config_eq]
          exact hstamped
        clientMode := by
          rw [h.config_eq]
          exact hclient
        size := by
          rw [hpayload]
          exact encodeResponse_length _ _ _ _
        peer := by
          rw [h.config_eq]
          exact fun hvalid _ => hsource hvalid }
    have heq := onRadioPacketReceived_response (responseSequence?_eq_some_iff.mpr hwell)
    rw [if_pos hpending] at heq
    unfold ClockNetwork.hear
    rw [act_submitted (heq ▸ acceptResponse_events _ packet reads)]
    simp [answers, h.last]
  · exact act_samples hsample

/-- A client's request that its radio accepts, a reference that is ready
when it hears it, and the response back at the client: one sample for that
request, whatever else happened on the way there and on the way back. -/
theorem exchange_completes {m : ν}
    (hdistinct : ∀ m n, (address m).same (address n) = true → m = n)
    (hreach : Reachable address net) {reads : RequestReads}
    (hlocal : reads.localAddress = address n)
    (haccepted : ((net.node n).requestSynchronization reads).2.1.ok = true)
    (hpeer : (net.node n).config.referencePeer.same (address m) = true)
    {there : ClockNetwork ν}
    (hthere : ReflTransGen (Undisturbed address n) (net.ask n reads) there)
    {question : RadioPacketView} {answering : ReceiveReads}
    (hquestion : question.payload
      = encodeRequest (sequenceOf (net.requests n).length) reads.timestamp (address n))
    (hready : (there.node m).Answers (address n) question answering)
    {back : ClockNetwork ν}
    (hback : ReflTransGen (Undisturbed address n)
      (there.hear m (net.nextRequest n) question answering) back)
    {answer : RadioPacketView} {submitting : ReceiveReads}
    (hanswer : answer.payload
      = encodeResponse (sequenceOf (net.requests n).length) reads.timestamp
        (recoveredTime question answering) answering.transmitTimestamp)
    (hown : submitting.ownRadio = true)
    (hstamped : (net.node n).config.requireReceiveTimestamp = true
      → answer.receiveTimestampNanoseconds ≠ 0)
    (hsource : answer.source.isValid = true
      → answer.source.same (net.node n).config.referencePeer = true)
    (hfew : ∀ i,
      ((back.hear n (net.nextRequest n) answer submitting).requests i).length < 2 ^ 32) :
    ((back.hear n (net.nextRequest n) answer submitting).samples.map answers).count
      (n, (net.requests n).length + 1) = 1 := by
  have hr := requestSynchronization_accepted haccepted
  have hvalid : (address n).isValid = true := hlocal ▸ hr.isValid
  have hasked : Step address net (net.ask n reads) :=
    .requestSynchronization n reads hlocal
  have hlate : ∀ i, ((net.ask n reads).requests i).length < 2 ^ 32 := fun i => by
    have hhere := Undisturbed.requests_le hthere i
    have hheard := there.hear_requests_le m (net.nextRequest n) question answering i
    have hback := Undisturbed.requests_le hback i
    have hend := back.hear_requests_le n (net.nextRequest n) answer submitting i
    have := hfew i
    omega
  have hk : (net.requests n).length + 1 < 2 ^ 32 := ask_requests haccepted ▸ hlate n
  have hnet : ∀ i, (net.requests i).length < 2 ^ 32 := fun i =>
    Nat.lt_of_le_of_lt (hasked.requests_le i) (hlate i)
  have hex := hreach.exchanged hdistinct hnet
  -- there: the reference hears the request
  obtain ⟨hwaiting, hair⟩ := ask_waiting hex hk haccepted
  rw [hlocal] at hair
  have hair := Undisturbed.run_air hthere hair
  have hhears := Undisturbed.hear n answering hair hpeer hquestion
  obtain ⟨destination, hdestination, hevents⟩ :=
    hready.events (sequenceOf_ne_zero hk) hvalid hquestion
  -- and back: the client hears the response
  have hback' := ReflTransGen.head hhears hback
  have hsent := hear_air (net.nextRequest n)
    (hevents ▸ List.mem_cons_of_mem _ List.mem_cons_self)
  have hresponse := Undisturbed.run_air hback hsent
  have hlast := Step.hear submitting hresponse hdestination hanswer
  have hreachable := Undisturbed.reachable
    (Undisturbed.reachable (hreach.step hasked) hthere) hback'
  have hend := (hreachable.step hlast).exchanged hdistinct hfew
  apply List.count_eq_one_of_mem hend.once
  exact ((hwaiting.run hthere).run hback').answered hk hr.clientMode hanswer hown hstamped hsource

/-- The exchange of two nodes, with the client's counters reset while the
response is on its way. -/
theorem pair_exchange_completes :
    let asked := pairStarted.ask true
      { isStarted := true, localAddress := pairAddress true, timestamp := 1000
        monotonic := 7, sent := .accepted }
    let heard := asked.hear false (true, 0) { payload := pairRequest.frame }
      (pairReceive 2000)
    let back := heard.act true (heard.nextRequest true)
      ((heard.node true).resetStatistics, [])
    ((back.hear true (true, 0) { payload := pairResponse.frame }
      (pairReceive 1100)).samples.map
      answers).count (true, 1) = 1 := by
  intro asked heard back
  have hreach : Reachable pairAddress pairStarted :=
    .step (.step .create (.initializeWith true _ (pairInitialize true) rfl))
      (.initializeWith false _ (pairInitialize false) rfl)
  apply exchange_completes (m := false) pairAddress_distinct hreach rfl rfl (by decide)
    ReflTransGen.refl rfl _ (ReflTransGen.single Undisturbed.resetStatistics) rfl rfl
  · intro h
    cases h
  · intro h
    cases h
  · intro n
    cases n <;> decide
  · exact
      { initialized := rfl
        ownRadio := rfl
        timestamp := fun h => nomatch h
        referenceMode := rfl
        source := fun h => nomatch h
        addressBytes := fun _ => rfl }

end ClockNetwork

end EspressioRadio
