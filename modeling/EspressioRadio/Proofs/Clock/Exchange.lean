/-
Clock-exchange integrity: a submitted sample is made of the T1 its
client captured last, and of the T2 and T3 of one execution of
`ProcessRequest` for that very request; and no request has two samples.

A client knows its pending request by a sequence number alone, and takes
T1 from the response. So the invariant (`Exchanged`) says of every frame
on the air what it is about: it carries the number, the T1 and the
client's address of one request ever made (`Carries`). A response that
bears the pending number and reached this client is then about the
client's last request (`Exchanged.current`), as numbers do not repeat
short of 2^32 requests.
-/
import EspressioRadio.Clock.Network
import EspressioRadio.Proofs.Clock.Frames
import EspressioRadio.Proofs.Clock.Outcomes
import Mathlib.Data.List.Nodup

namespace EspressioRadio

-- ====================================================== sequence numbers

namespace RadioClockSynchronizer

/-- The sequence number of a client's `k`-th request, counted from zero. -/
def sequenceOf (k : Nat) : UInt32 := UInt32.ofNat (k + 1)

theorem sequenceOf_toNat {k : Nat} (hk : k + 1 < 2 ^ 32) : (sequenceOf k).toNat = k + 1 :=
  UInt32.toNat_ofNat_of_lt' hk

theorem sequenceOf_ne_zero {k : Nat} (hk : k + 1 < 2 ^ 32) : sequenceOf k ≠ 0 := by
  intro h
  have hnat := congrArg UInt32.toNat h
  rw [sequenceOf_toNat hk] at hnat
  exact Nat.succ_ne_zero k hnat

theorem sequenceOf_inj {k k' : Nat} (hk : k + 1 < 2 ^ 32) (hk' : k' + 1 < 2 ^ 32)
    (h : sequenceOf k = sequenceOf k') : k = k' := by
  have hnat := congrArg UInt32.toNat h
  rw [sequenceOf_toNat hk, sequenceOf_toNat hk'] at hnat
  exact Nat.succ.inj hnat

/-- Short of 2^32 requests the numbers are given out in order. -/
theorem takeSequence_of_next {s : RadioClockSynchronizer} {k : Nat}
    (hk : k + 1 < 2 ^ 32) (hs : s.nextSequence = sequenceOf k) :
    s.takeSequence.1.nextSequence = sequenceOf (k + 1)
      ∧ s.takeSequence.2 = sequenceOf k := by
  have hne : s.nextSequence ≠ 0 := by
    rw [hs]
    exact sequenceOf_ne_zero hk
  unfold takeSequence
  rw [if_pos hne, hs]
  refine ⟨?_, rfl⟩
  exact (UInt32.ofNat_add (k + 1) 1).symm

end RadioClockSynchronizer

namespace ClockNetwork

open RadioClockSynchronizer

variable {ν : Type} {address : ν → RadioAddress} {net net' : ClockNetwork ν}

-- ========================================================= the invariant

/-- What a frame on the air is: a request some client made, or an answer
to one, on its way back to that client. -/
inductive Carries (net : ClockNetwork ν) (address : ν → RadioAddress)
    (t : Transmission ν) : Prop where
  | request (t1 : UInt64)
      (hmade : (net.requests t.about.1)[t.about.2]? = some t1)
      (hvalid : (address t.about.1).isValid = true)
      (hframe : t.frame
        = encodeRequest (sequenceOf t.about.2) t1 (address t.about.1))
  | response (t1 : UInt64) (e : Execution ν)
      (hmade : (net.requests t.about.1)[t.about.2]? = some t1)
      (he : e ∈ net.executions) (habout : e.about = t.about)
      (hdestination : t.destination.same (address t.about.1) = true)
      (hframe : t.frame = encodeResponse (sequenceOf t.about.2) t1 e.t2 e.t3)

/-- T1 is the one the client captured last, T2 and T3 are those one
execution of `ProcessRequest` came to, for that request. -/
def FromExchange (net : ClockNetwork ν) (s : SubmittedSample ν) : Prop :=
  ∃ k, s.requestsMade = k + 1
    ∧ (net.requests s.client)[k]? = some s.sample.localRequestTransmitTime
    ∧ ∃ e ∈ net.executions, e.about = (s.client, k)
      ∧ s.sample.remoteRequestReceiveTime = e.t2
      ∧ s.sample.remoteResponseTransmitTime = e.t3

/-- The client a sample is of and the place of the request it answers,
counted from one. -/
def answers (s : SubmittedSample ν) : ν × Nat := (s.client, s.requestsMade)

/-- The client's last request is pending, and has no sample yet. -/
def Awaits (net : ClockNetwork ν) (n : ν) : Prop :=
  ∃ k, (net.requests n).length = k + 1 ∧ (net.node n).pendingSequence = sequenceOf k
    ∧ (n, k + 1) ∉ net.samples.map answers

structure Exchanged (net : ClockNetwork ν) (address : ν → RadioAddress) : Prop where
  next : ∀ n, (net.node n).nextSequence = sequenceOf (net.requests n).length
  pending : ∀ n, (net.node n).pendingSequence ≠ 0 → net.Awaits n
  air : ∀ t ∈ net.air, net.Carries address t
  samples : ∀ s ∈ net.samples, net.FromExchange s
  once : (net.samples.map answers).Nodup

theorem exchanged_create : (create : ClockNetwork ν).Exchanged address where
  next := fun _ => rfl
  pending := fun _ h => absurd rfl h
  air := fun _ ht => by cases ht
  samples := fun _ hs => by cases hs
  once := List.nodup_nil

/-- A sample submitted in this network belongs to a request its client has
made already. -/
theorem FromExchange.le {s : SubmittedSample ν} (hs : net.FromExchange s) :
    s.requestsMade ≤ (net.requests s.client).length := by
  obtain ⟨k, hk, hmade, -⟩ := hs
  obtain ⟨hlt, -⟩ := List.getElem?_eq_some_iff.mp hmade
  omega

/-- Short of 2^32 requests each has a number of its own. -/
theorem number_lt (hfew : ∀ n, (net.requests n).length < 2 ^ 32) {n : ν} {k : Nat}
    {t1 : UInt64} (hmade : (net.requests n)[k]? = some t1) : k + 1 < 2 ^ 32 := by
  obtain ⟨hlt, -⟩ := List.getElem?_eq_some_iff.mp hmade
  exact Nat.lt_of_le_of_lt hlt (hfew n)

/-- A response that bears the pending number, at the client's address, is
about the client's last request. -/
theorem Exchanged.current {n : ν} {r : RadioClockSynchronizer × List ClockEvent}
    (hex : net.Exchanged address)
    (hdistinct : ∀ m n, (address m).same (address n) = true → m = n)
    (hfew : ∀ m, (net.requests m).length < 2 ^ 32) {t : Transmission ν} (ht : t ∈ net.air)
    (hdestination : t.destination.same (address n) = true)
    (hs : Submitted (net.node n) t.frame r) :
    ∃ k t1, (net.requests n).length = k + 1 ∧ (n, k + 1) ∉ net.samples.map answers
      ∧ (net.requests n)[k]? = some t1
      ∧ ∃ e ∈ net.executions, e.about = (n, k)
        ∧ t.frame = encodeResponse (sequenceOf k) t1 e.t2 e.t3 := by
  obtain ⟨k, hcount, hpending, hfresh⟩ := hex.pending n hs.awaited
  cases hex.air t ht with
  | request t1 hmade hvalid hframe =>
      have hd := hs.decodes
      have hne := sequenceOf_ne_zero (number_lt hfew hmade)
      rw [hframe, decodeHeader_encodeRequest hne] at hd
      cases hd
  | response t1 e hmade he habout hdest hframe =>
      have hclient : t.about.1 = n :=
        hdistinct _ _ (RadioAddress.same_trans (RadioAddress.same_symm hdest) hdestination)
      have hk := number_lt hfew hmade
      have hd := hs.decodes
      rw [hframe, decodeHeader_encodeResponse (sequenceOf_ne_zero hk), hpending] at hd
      injection hd with hd
      injection hd with _ hd
      have hlast : t.about.2 = k := by
        apply sequenceOf_inj hk _ hd
        have := hfew n
        omega
      have habout' : t.about = (n, k) := Prod.ext hclient hlast
      rw [habout'] at hmade hframe habout
      exact ⟨k, t1, hcount, hfresh, hmade, e, he, habout, hframe⟩

-- ================================================================ growth

/-- The records of requests and executions only grow. -/
structure Grows (net net' : ClockNetwork ν) : Prop where
  requests : ∀ n, net.requests n <+: net'.requests n
  executions : net.executions ⊆ net'.executions

theorem Grows.made (hg : Grows net net') {n : ν} {k : Nat} {t1 : UInt64}
    (h : (net.requests n)[k]? = some t1) : (net'.requests n)[k]? = some t1 := by
  obtain ⟨hlt, -⟩ := List.getElem?_eq_some_iff.mp h
  obtain ⟨later, hlater⟩ := hg.requests n
  rw [← hlater, List.getElem?_append_left hlt]
  exact h

theorem Carries.grows (hg : Grows net net') {t : Transmission ν}
    (h : net.Carries address t) : net'.Carries address t := by
  cases h with
  | request t1 hmade hvalid hframe => exact .request t1 (hg.made hmade) hvalid hframe
  | response t1 e hmade he habout hdestination hframe =>
      exact .response t1 e (hg.made hmade) (hg.executions he) habout hdestination hframe

theorem FromExchange.grows (hg : Grows net net') {s : SubmittedSample ν}
    (h : net.FromExchange s) : net'.FromExchange s := by
  obtain ⟨k, hk, hmade, e, he, hrest⟩ := h
  exact ⟨k, hk, hg.made hmade, e, hg.executions he, hrest⟩

variable [DecidableEq ν]

theorem act_grows (n : ν) (about : ν × Nat)
    (r : RadioClockSynchronizer × List ClockEvent) : Grows net (net.act n about r) where
  requests := by
    intro m
    by_cases hm : m = n
    · subst hm
      simp [act]
    · simp [act, hm]
  executions := by
    intro e he
    exact List.mem_append_left _ he

-- ============================================================= outcomes

section Outcome

variable {n : ν} {about : ν × Nat} {r : RadioClockSynchronizer × List ClockEvent}

theorem act_quiet (h : r.2 = []) :
    net.act n about r = { net with node := Function.update net.node n r.1 } := by
  simp [act, h]

theorem act_requested {sequence : UInt32} {t1 : UInt64} {destination : RadioAddress}
    {frame : List UInt8} {result : RadioSendResult}
    (h : r.2 = [.requestCaptured sequence t1, .radioSend destination frame result]) :
    net.act n about r =
      { net with
        node := Function.update net.node n r.1
        air := net.air ++ [⟨destination, frame, about⟩]
        requests := Function.update net.requests n (net.requests n ++ [t1]) } := by
  simp [act, h, List.filterMap_cons, ClockEvent.transmission, ClockEvent.captured,
    ClockEvent.execution, ClockEvent.submitted]

theorem act_answered {sequence : UInt32} {t2 t3 : UInt64} {destination : RadioAddress}
    {frame : List UInt8} {result : RadioSendResult}
    (h : r.2 = [.requestProcessed sequence t2 t3, .radioSend destination frame result]) :
    net.act n about r =
      { net with
        node := Function.update net.node n r.1
        air := net.air ++ [⟨destination, frame, about⟩]
        executions := net.executions ++ [⟨about, t2, t3⟩] } := by
  simp [act, h, List.filterMap_cons, ClockEvent.transmission, ClockEvent.captured,
    ClockEvent.execution, ClockEvent.submitted]

theorem act_submitted {sample : ClockSynchronizationSample} {adjustmentMode : UInt8}
    (h : r.2 = [.submitSynchronizationSample sample adjustmentMode]) :
    net.act n about r =
      { net with
        node := Function.update net.node n r.1
        samples := net.samples ++ [⟨n, (net.requests n).length, sample⟩] } := by
  simp [act, h, List.filterMap_cons, ClockEvent.transmission, ClockEvent.captured,
    ClockEvent.execution, ClockEvent.submitted]

/-- The frames on the air and the samples submitted stay what they were,
whatever a node does. -/
theorem Exchanged.old (hex : net.Exchanged address) (n : ν) (about : ν × Nat)
    (r : RadioClockSynchronizer × List ClockEvent) :
    (∀ t ∈ net.air, (net.act n about r).Carries address t)
      ∧ ∀ s ∈ net.samples, (net.act n about r).FromExchange s :=
  ⟨fun t ht => (hex.air t ht).grows (net.act_grows n about r),
    fun s hs => (hex.samples s hs).grows (net.act_grows n about r)⟩

/-- The account of the nodes' numbers is kept by a node that at most dropped
its pending request. -/
theorem Exchanged.unmoved (hex : net.Exchanged address)
    (hun : Unmoved (net.node n) r.1) (net' : ClockNetwork ν)
    (hreq : net'.requests = net.requests) (hsam : net'.samples = net.samples)
    (hnode : net'.node = Function.update net.node n r.1) :
    (∀ m, (net'.node m).nextSequence = sequenceOf (net'.requests m).length)
      ∧ ∀ m, (net'.node m).pendingSequence ≠ 0 → net'.Awaits m := by
  refine ⟨?_, ?_⟩
  · intro m
    rw [hnode, hreq]
    by_cases hm : m = n
    · subst hm
      rw [Function.update_self, hun.nextSequence]
      exact hex.next m
    · rw [Function.update_of_ne hm]
      exact hex.next m
  · intro m hp
    unfold Awaits
    rw [hnode] at hp ⊢
    rw [hreq, hsam]
    by_cases hm : m = n
    · subst hm
      rw [Function.update_self] at hp ⊢
      rcases hun.pendingSequence with hsame | hzero
      · rw [hsame] at hp ⊢
        exact hex.pending m hp
      · exact absurd hzero hp
    · rw [Function.update_of_ne hm] at hp ⊢
      exact hex.pending m hp

theorem Exchanged.quiet (hex : net.Exchanged address) (hq : Quiet (net.node n) r) :
    (net.act n about r).Exchanged address := by
  obtain ⟨hair, hsamples⟩ := hex.old n about r
  rw [act_quiet hq.events] at hair hsamples ⊢
  obtain ⟨hnext, hpending⟩ := hex.unmoved hq.unmoved
    { net with node := Function.update net.node n r.1 } rfl rfl rfl
  exact ⟨hnext, hpending, hair, hsamples, hex.once⟩

/-- A request that goes out keeps the account: it is its client's last from
now on. -/
theorem Exchanged.requested (hex : net.Exchanged address)
    (hfew : (net.requests n).length + 1 < 2 ^ 32)
    (hr : Requested (net.node n) (address n) r) :
    (net.act n (net.nextRequest n) r).Exchanged address := by
  obtain ⟨hair, hsamples⟩ := hex.old n (net.nextRequest n) r
  obtain ⟨hnext, hsequence⟩ := takeSequence_of_next hfew (hex.next n)
  obtain ⟨t1, destination, result, hevents⟩ := hr.events
  rw [act_requested hevents] at hair hsamples ⊢
  refine ⟨?_, ?_, ?_, hsamples, hex.once⟩
  · intro m
    by_cases hm : m = n
    · subst hm
      simp [hr.nextSequence, hnext]
    · simp [hm, hex.next m]
  · intro m hp
    by_cases hm : m = n
    · subst hm
      simp only [Function.update_self] at hp
      refine ⟨(net.requests m).length, by simp, ?_, ?_⟩
      · simp only [Function.update_self]
        rw [← hsequence]
        exact hr.pendingSequence.resolve_right hp
      · -- no sample is ahead of the requests made so far
        intro hmem
        obtain ⟨s, hs, hans⟩ := List.mem_map.mp hmem
        injection hans with hclient hmade
        have hle := (hex.samples s hs).le
        rw [hclient, hmade] at hle
        omega
    · simp only [Function.update_of_ne hm] at hp
      unfold Awaits
      simp only [Function.update_of_ne hm]
      exact hex.pending m hp
  · intro t ht
    rcases List.mem_append.mp ht with hold | hnew
    · exact hair t hold
    · obtain rfl := List.mem_singleton.mp hnew
      refine .request t1 ?_ hr.isValid ?_
      · -- on the air it is the request it names, with its number
        simp [nextRequest]
      · simp [nextRequest, hsequence]

/-- A request is answered: with its own number and T1, at its client's
address. -/
theorem Exchanged.answered (hex : net.Exchanged address)
    (hfew : ∀ m, (net.requests m).length < 2 ^ 32) {t : Transmission ν} (ht : t ∈ net.air)
    (ha : Answered (net.node n) t.frame r) : (net.act n t.about r).Exchanged address := by
  obtain ⟨hair, hsamples⟩ := hex.old n t.about r
  obtain ⟨sequence, t2, t3, destination, result, hd, hdestination, hevents⟩ := ha.events
  rw [act_answered hevents] at hair hsamples ⊢
  obtain ⟨hnext, hpending⟩ := hex.unmoved ha.unmoved
    { net with
      node := Function.update net.node n r.1
      air := net.air ++ [⟨destination, _, t.about⟩]
      executions := net.executions ++ [⟨t.about, t2, t3⟩] } rfl rfl rfl
  refine ⟨hnext, hpending, ?_, hsamples, hex.once⟩
  intro t' ht'
  rcases List.mem_append.mp ht' with hold | hnew
  · exact hair t' hold
  · obtain rfl := List.mem_singleton.mp hnew
    cases hex.air t ht with
    | request t1 hmade hvalid hframe =>
        -- the frame answered is a request: the response has its number and T1
        have hne := sequenceOf_ne_zero (number_lt hfew hmade)
        rw [hframe, decodeHeader_encodeRequest hne] at hd
        injection hd with hd
        injection hd with _ hd
        rw [hframe] at hdestination
        refine .response t1 ⟨t.about, t2, t3⟩ hmade (by simp) rfl ?_ ?_
        · exact RadioAddress.same_trans hdestination
            (decodeRequestAddress_encodeRequest hvalid)
        · rw [hframe, encodeRequest_time, hd]
    | response t1 e hmade he habout hdest hframe =>
        -- no response decodes as a request
        have hne := sequenceOf_ne_zero (number_lt hfew hmade)
        rw [hframe, decodeHeader_encodeResponse hne] at hd
        cases hd

/-- A sample is submitted: the first about the client's last request. -/
theorem Exchanged.submitted (hex : net.Exchanged address)
    (hdistinct : ∀ m n, (address m).same (address n) = true → m = n)
    (hfew : ∀ m, (net.requests m).length < 2 ^ 32) {t : Transmission ν} (ht : t ∈ net.air)
    (hdestination : t.destination.same (address n) = true)
    (hs : Submitted (net.node n) t.frame r) : (net.act n about r).Exchanged address := by
  obtain ⟨k, t1, hcount, hfresh, hmade, e, he, habout, hframe⟩ :=
    hex.current hdistinct hfew ht hdestination hs
  obtain ⟨t4, adjustmentMode, hevents⟩ := hs.events
  obtain ⟨hair, hsamples⟩ := hex.old n about r
  rw [act_submitted hevents] at hair hsamples ⊢
  refine ⟨?_, ?_, hair, ?_, ?_⟩
  · intro m
    by_cases hm : m = n
    · subst hm
      simp [hs.nextSequence, hex.next m]
    · simp [hm, hex.next m]
  · intro m hp
    by_cases hm : m = n
    · subst hm
      simp only [Function.update_self] at hp
      exact absurd hs.pendingSequence hp
    · simp only [Function.update_of_ne hm] at hp
      obtain ⟨k', hcount', hpending', hfresh'⟩ := hex.pending m hp
      refine ⟨k', hcount', by simpa [hm] using hpending', ?_⟩
      rw [List.map_append]
      apply List.not_mem_append hfresh'
      simp [answers, hm]
  · intro s hsm
    rcases List.mem_append.mp hsm with hold | hnew
    · exact hsamples s hold
    · obtain rfl := List.mem_singleton.mp hnew
      obtain ⟨h1, h2, h3⟩ := encodeResponse_times (sequenceOf k) t1 e.t2 e.t3
      rw [hframe]
      exact ⟨k, hcount, by rw [h1]; exact hmade, e, he, habout, h2, h3⟩
  · -- the client's last request had no sample yet
    rw [List.map_append]
    apply List.Nodup.append hex.once (List.nodup_singleton _)
    apply List.disjoint_singleton.mpr
    unfold answers
    rw [hcount]
    exact hfresh

end Outcome

-- ================================================================= steps

/-- What one step comes to, on the one node it is taken on: nothing sent or
submitted, a request made, or a frame from the air answered or submitted. -/
theorem Step.outcome (hstep : Step address net net') : ∃ n about r,
    net' = net.act n about r
      ∧ (Quiet (net.node n) r
        ∨ (about = net.nextRequest n ∧ Requested (net.node n) (address n) r)
        ∨ ∃ t ∈ net.air, t.destination.same (address n) = true
          ∧ ((about = t.about ∧ Answered (net.node n) t.frame r)
            ∨ Submitted (net.node n) t.frame r)) := by
  cases hstep with
  | initializeWith n config reads hlocal =>
      exact ⟨n, _, _, rfl, Or.inl (initializeWith_quiet _ config reads)⟩
  | shutdown n => exact ⟨n, _, _, rfl, Or.inl (shutdown_quiet _)⟩
  | resetStatistics n => exact ⟨n, _, _, rfl, Or.inl (resetStatistics_quiet _)⟩
  | requestSynchronization n reads hlocal =>
      refine ⟨n, _, _, rfl, ?_⟩
      rcases (net.node n).requestSynchronization_cases reads with h | h
      · exact Or.inl h
      · rw [hlocal] at h
        exact Or.inr (Or.inl ⟨rfl, h⟩)
  | update n now reads hlocal =>
      refine ⟨n, _, _, rfl, ?_⟩
      rcases (net.node n).update_cases now reads with h | h
      · exact Or.inl h
      · rw [hlocal] at h
        exact Or.inr (Or.inl ⟨rfl, h⟩)
  | receive n t packet reads hair hdestination hpayload =>
      refine ⟨n, _, _, rfl, ?_⟩
      rcases (net.node n).onRadioPacketReceived_cases packet reads with h | h | h
      · exact Or.inl h
      · rw [hpayload] at h
        exact Or.inr (Or.inr ⟨t, hair, hdestination, Or.inl ⟨rfl, h⟩⟩)
      · rw [hpayload] at h
        exact Or.inr (Or.inr ⟨t, hair, hdestination, Or.inr h⟩)

theorem Step.requests_le (hstep : Step address net net') (n : ν) :
    (net.requests n).length ≤ (net'.requests n).length := by
  obtain ⟨m, about, r, rfl, -⟩ := hstep.outcome
  exact ((net.act_grows m about r).requests n).length_le

theorem Requested.length {n : ν} {r : RadioClockSynchronizer × List ClockEvent}
    (hr : Requested (net.node n) (address n) r) (about : ν × Nat) :
    ((net.act n about r).requests n).length = (net.requests n).length + 1 := by
  obtain ⟨t1, destination, result, hevents⟩ := hr.events
  rw [act_requested hevents]
  simp

theorem Exchanged.step (hdistinct : ∀ m n, (address m).same (address n) = true → m = n)
    (hex : net.Exchanged address) (hstep : Step address net net')
    (hfew : ∀ n, (net'.requests n).length < 2 ^ 32) : net'.Exchanged address := by
  have hbefore : ∀ n, (net.requests n).length < 2 ^ 32 := fun n =>
    Nat.lt_of_le_of_lt (hstep.requests_le n) (hfew n)
  obtain ⟨n, about, r, rfl, hquiet | ⟨rfl, hr⟩ | ⟨t, ht, hdest, ⟨rfl, ha⟩ | hs⟩⟩ :=
    hstep.outcome
  · exact hex.quiet hquiet
  · apply hex.requested _ hr
    have hlen := Requested.length hr (net.nextRequest n)
    rw [← hlen]
    exact hfew n
  · exact hex.answered hbefore ht ha
  · exact hex.submitted hdistinct hbefore ht hdest hs

theorem Reachable.exchanged
    (hdistinct : ∀ m n, (address m).same (address n) = true → m = n)
    (hreach : Reachable address net) (hfew : ∀ n, (net.requests n).length < 2 ^ 32) :
    net.Exchanged address := by
  induction hreach with
  | create => exact exchanged_create
  | @step net net' _ hstep ih =>
      apply (ih _).step hdistinct hstep hfew
      exact fun n => Nat.lt_of_le_of_lt (hstep.requests_le n) (hfew n)

/-- Every sample is one exchange's: its T1 is that of the client's last
request, its T2 and T3 are those of one execution of `ProcessRequest` for
it, and no request has two samples. -/
theorem clock_exchange_integrity
    (hdistinct : ∀ m n, (address m).same (address n) = true → m = n)
    (hreach : Reachable address net) (hfew : ∀ n, (net.requests n).length < 2 ^ 32) :
    (∀ s ∈ net.samples, net.FromExchange s) ∧ (net.samples.map answers).Nodup :=
  have hex := hreach.exchanged hdistinct hfew
  ⟨hex.samples, hex.once⟩

-- ============================================================ one exchange

section Pair

/-- A client (`true`) and its reference, with addresses of one byte. -/
def pairAddress (n : Bool) : RadioAddress where
  bytes := #v[if n then 1 else 2, 0, 0, 0, 0, 0, 0, 0]
  length := 1

def pairInitialize (n : Bool) : InitializeReads where
  capabilities := { maximumPayloadBytes := 32, addressBytes := 1 }
  localAddress := pairAddress n
  subscribed := true

def pairReceive (timestamp : UInt64) : ReceiveReads where
  addressBytes := 1
  timestamp := timestamp
  monotonic := 0
  transmitTimestamp := timestamp + 5
  sent := .accepted
  accepted := true

def pairStarted : ClockNetwork Bool :=
  let net := create
  let net := net.act true (net.nextRequest true)
    (((net.node true).initializeWith
      { mode := .client, referencePeer := pairAddress false } (pairInitialize true)).1, [])
  net.act false (net.nextRequest false)
    (((net.node false).initializeWith { mode := .reference } (pairInitialize false)).1, [])

def pairRequested : ClockNetwork Bool :=
  let reads : RequestReads :=
    { isStarted := true, localAddress := pairAddress true, timestamp := 1000
      monotonic := 7, sent := .accepted }
  pairStarted.act true (pairStarted.nextRequest true)
    (((pairStarted.node true).requestSynchronization reads).1,
      ((pairStarted.node true).requestSynchronization reads).2.2)

def pairRequest : Transmission Bool where
  destination := pairAddress false
  frame := encodeRequest 1 1000 (pairAddress true)
  about := (true, 0)

def pairAnswered : ClockNetwork Bool :=
  pairRequested.act false pairRequest.about
    ((pairRequested.node false).onRadioPacketReceived
      { payload := pairRequest.frame } (pairReceive 2000))

def pairResponse : Transmission Bool where
  destination := pairAddress true
  frame := encodeResponse 1 1000 2000 2005
  about := (true, 0)

def pairSubmitted : ClockNetwork Bool :=
  pairAnswered.act true pairResponse.about
    ((pairAnswered.node true).onRadioPacketReceived
      { payload := pairResponse.frame } (pairReceive 1100))

theorem pairAddress_distinct (m n : Bool)
    (h : (pairAddress m).same (pairAddress n) = true) : m = n := by
  revert h
  cases m <;> cases n <;> decide

theorem pairRequested_air : pairRequested.air = [pairRequest] := rfl

theorem pairAnswered_air : pairAnswered.air = [pairRequest, pairResponse] := rfl

theorem pairSubmitted_reachable : Reachable pairAddress pairSubmitted := by
  have hstarted : Reachable pairAddress pairStarted :=
    .step (.step .create (.initializeWith true _ (pairInitialize true) rfl))
      (.initializeWith false _ (pairInitialize false) rfl)
  have hrequested : Reachable pairAddress pairRequested :=
    .step hstarted (.requestSynchronization true _ rfl)
  have hanswered : Reachable pairAddress pairAnswered := by
    apply Reachable.step hrequested
    apply Step.receive false pairRequest _ _ _ (by decide) rfl
    simp [pairRequested_air]
  apply Reachable.step hanswered
  apply Step.receive true pairResponse _ _ _ (by decide) rfl
  simp [pairAnswered_air]

/-- The exchange of the pair has one sample, with the four timestamps of its
two frames. -/
theorem pair_exchanged :
    pairSubmitted.samples = [⟨true, 1, ⟨1000, 2000, 2005, 1100⟩⟩]
      ∧ (∀ s ∈ pairSubmitted.samples, pairSubmitted.FromExchange s)
      ∧ (pairSubmitted.samples.map answers).Nodup := by
  refine ⟨rfl, ?_⟩
  apply clock_exchange_integrity pairAddress_distinct pairSubmitted_reachable
  intro n
  cases n <;> decide

end Pair

end ClockNetwork

end EspressioRadio
