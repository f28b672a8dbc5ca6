/-
What a synchronizer puts on its link.

`Initialize` checks the configuration against the radio: frames of 32
bytes fit, and a client's peer has an address of the radio's length. A
request goes to that peer, and a response only to an address of that
length (`Suits`, `FrameFits`). With a radio whose capabilities do not
change, every frame handed to it fits, has a proper destination, and
decodes where it comes in, however its calls are nested (`frames_fit`).
-/
import EspressioRadio.Proofs.Clock.Nested
import EspressioRadio.Proofs.Clock.Frames

namespace EspressioRadio

namespace RadioClockSynchronizer

variable {s s' : RadioClockSynchronizer} {caps : RadioCapabilities}

-- ================================================================ frames

theorem encodeRequest_length (sequence : UInt32) (t1 : UInt64) (address : RadioAddress) :
    (encodeRequest sequence t1 address).length = requestBytes := by
  have hoctets : address.octets.length ≤ 8 := by simp [RadioAddress.octets]
  simp [encodeRequest, requestBytes, requestAddressOffset, maximumRadioAddressBytes,
    headerBytes]
  omega

theorem encodeResponse_length (sequence : UInt32) (t1 t2 t3 : UInt64) :
    (encodeResponse sequence t1 t2 t3).length = responseBytes := by
  simp [encodeResponse, responseBytes, headerBytes]

/-- The frame and its destination are for a radio of these
capabilities. -/
structure FrameFits (caps : RadioCapabilities) (destination : RadioAddress)
    (frame : List UInt8) : Prop where
  decodes : (decodeHeader frame).isSome = true
  length_le : frame.length ≤ responseBytes
  payload_le : frame.length ≤ caps.maximumPayloadBytes.toNat
  isValid : destination.isValid = true
  addressBytes : caps.addressBytes ≠ 0 → destination.length = caps.addressBytes

/-- What `Initialize` has checked against the capabilities, as long as the
synchronizer is initialized. -/
structure Suits (caps : RadioCapabilities) (s : RadioClockSynchronizer) : Prop where
  payload : s.initialized = true → responseBytes ≤ caps.maximumPayloadBytes.toNat
  peer : s.initialized = true → isClientMode s.config.mode = true →
    caps.addressBytes ≠ 0 → s.config.referencePeer.length = caps.addressBytes

theorem suits_of_uninitialized (h : s.initialized = false) : Suits caps s where
  payload := by
    intro hinit
    rw [h] at hinit
    cases hinit
  peer := by
    intro hinit
    rw [h] at hinit
    cases hinit

theorem Suits.kept (h : Suits caps s) (hk : Kept s s') : Suits caps s' where
  payload := hk.initialized ▸ h.payload
  peer := hk.config ▸ hk.initialized ▸ h.peer

theorem initializeWith_suits (s : RadioClockSynchronizer)
    (config : RadioClockSynchronizationConfig) {reads : InitializeReads}
    (hcaps : reads.capabilities = caps) :
    Suits caps (s.initializeWith config reads).1 := by
  subst hcaps
  unfold initializeWith
  dsimp only
  split
  · exact suits_of_uninitialized rfl
  · next hpayload =>
    split
    · exact suits_of_uninitialized rfl
    · split
      · exact suits_of_uninitialized rfl
      · next haddresses =>
        split
        · exact suits_of_uninitialized rfl
        · refine ⟨fun _ => Nat.not_lt.mp hpayload, fun _ hclient hbytes => ?_⟩
          change isClientMode config.mode = true at hclient
          show config.referencePeer.length = reads.capabilities.addressBytes
          simp only [hclient, clientAddressesFit, Bool.true_and, Bool.not_eq_true',
            Bool.not_eq_false, Bool.and_eq_true, Bool.or_eq_true, beq_iff_eq, hbytes,
            false_or] at haddresses
          exact haddresses.2.1

/-- What a request about to be sent has passed, and where it goes. -/
theorem beginRequest_ready {reads : RequestReads} {request : OutgoingRequest}
    (hr : s.beginRequest reads = (s', .ok request)) :
    s.initialized = true ∧ isClientMode s.config.mode = true
      ∧ s.config.referencePeer.isValid = true
      ∧ request.destination = s.config.referencePeer := by
  unfold beginRequest at hr
  dsimp only at hr
  split at hr
  · cases hr
  · next hstarted =>
    split at hr
    · cases hr
    · next hvalid =>
      rw [count_takeSequence] at hr
      cases hr
      change ¬(!s.initialized || !reads.isStarted) = true at hstarted
      change ¬(!isClientMode s.config.mode || !s.config.referencePeer.isValid
        || !reads.localAddress.isValid) = true at hvalid
      simp only [Bool.or_eq_true, not_or, Bool.not_eq_true', Bool.not_eq_false]
        at hstarted hvalid
      refine ⟨hstarted.1, hvalid.1.1, hvalid.1.2, ?_⟩
      show s.takeSequence.1.config.referencePeer = s.config.referencePeer
      unfold takeSequence
      split <;> rfl

/-- The frame of a request about to be sent fits the radio. -/
theorem Suits.beginRequest (h : Suits caps s) {reads : RequestReads}
    {request : OutgoingRequest} (hr : s.beginRequest reads = (s', .ok request)) :
    FrameFits caps request.destination request.frame := by
  have hbegun := Begun.of_eq hr
  obtain ⟨hinit, hclient, hpeer, hdestination⟩ := beginRequest_ready hr
  have hlength := encodeRequest_length request.sequence request.t1 reads.localAddress
  rw [hbegun.frame, hdestination]
  refine ⟨?_, ?_, ?_, hpeer, h.peer hinit hclient⟩
  · rw [decodeHeader_encodeRequest]
    · rfl
    · rw [hbegun.sequence]
      exact s.takeSequence_ne_zero
  · rw [hlength]
    decide
  · rw [hlength]
    exact Nat.le_trans (by decide) (h.payload hinit)

/-- A response about to be sent is of the request it answers. -/
theorem Replies.of_eq {packet : RadioPacketView} {sequence : UInt32}
    {reads : ReceiveReads} {response : OutgoingResponse}
    (hr : (s.beginResponse packet sequence reads).2 = some response) :
    Replies packet sequence reads response := by
  rcases s.beginResponse_cases packet sequence reads with hignored |
    ⟨response', hreply, hbegun⟩
  · rw [hignored] at hr
    cases hr
  · rw [hbegun] at hr
    cases hr
    exact hreply

/-- The frame of a response about to be sent fits the radio, if the radio's
address length is as it was. -/
theorem Suits.beginReceive (h : Suits caps s) {packet : RadioPacketView}
    {reads : ReceiveReads} (hbytes : reads.addressBytes = caps.addressBytes)
    {response : OutgoingResponse}
    (hr : (s.beginReceive packet reads).2.2 = some response) :
    FrameFits caps response.destination response.frame := by
  unfold RadioClockSynchronizer.beginReceive at hr
  split at hr
  · cases hr
  · next hready =>
    cases hd : decodeHeader packet.payload with
    | none =>
        rw [hd] at hr
        cases hr
    | some header =>
        obtain ⟨type, sequence⟩ := header
        rw [hd] at hr
        dsimp only at hr
        split at hr
        · cases hr
        · cases type with
          | request =>
              have hreply := Replies.of_eq hr
              have hinit : s.initialized = true := by
                simp only [Bool.or_eq_true, not_or, Bool.not_eq_true', Bool.not_eq_false]
                  at hready
                exact hready.1
              have hlength := encodeResponse_length sequence
                (readU64 packet.payload requestTimestampOffset)
                (recoveredTime packet reads) reads.transmitTimestamp
              rw [hreply.frame]
              refine ⟨?_, ?_, ?_, hreply.isValid, ?_⟩
              · rw [decodeHeader_encodeResponse (decodeHeader_ne_zero hd)]
                rfl
              · exact Nat.le_of_eq hlength
              · rw [hlength]
                exact h.payload hinit
              · rw [← hbytes]
                exact hreply.length_eq
          | response => cases hr

/-- Handling a packet hands nothing to the radio before the send of its
response. -/
theorem beginReceive_sends (s : RadioClockSynchronizer) (packet : RadioPacketView)
    (reads : ReceiveReads) {destination : RadioAddress} {frame : List UInt8}
    {result : RadioSendResult} :
    .radioSend destination frame result ∉ (s.beginReceive packet reads).2.1 := by
  unfold RadioClockSynchronizer.beginReceive
  split
  · exact List.not_mem_nil
  · cases hd : decodeHeader packet.payload with
    | none => exact List.not_mem_nil
    | some header =>
        obtain ⟨type, sequence⟩ := header
        dsimp only
        split
        · exact List.not_mem_nil
        · cases type with
          | request => simp
          | response =>
              rcases s.processResponse_cases packet sequence reads hd with hquiet | hsub
              · dsimp only
                rw [hquiet.events]
                exact List.not_mem_nil
              · obtain ⟨t4, adjustmentMode, hevents⟩ := hsub.events
                dsimp only
                rw [hevents]
                simp

end RadioClockSynchronizer

-- =============================================================== moments

/-- The frame of a send under way fits the radio it was handed to. -/
def PendingSend.Fits (caps : RadioCapabilities) : PendingSend → Prop
  | .request r => RadioClockSynchronizer.FrameFits caps r.destination r.frame
  | .response r => RadioClockSynchronizer.FrameFits caps r.destination r.frame

/-- The moment finds the radio with these capabilities, as far as it
looks. -/
def ClockMoment.Finds (caps : RadioCapabilities) : ClockMoment → Prop
  | .initializeWith _ reads => reads.capabilities = caps
  | .onRadioPacketReceived _ reads => reads.addressBytes = caps.addressBytes
  | _ => True

namespace ClockStack

open RadioClockSynchronizer

variable {c : ClockStack} {caps : RadioCapabilities}

/-- The configuration suits the radio, and so do the frames being
sent. -/
structure Fitting (caps : RadioCapabilities) (c : ClockStack) : Prop where
  suits : Suits caps c.synchronizer
  sends : ∀ send ∈ c.sends, send.Fits caps

/-- A request, up to its send, keeps everything that is under way fitting. -/
theorem Fitting.request (h : c.Fitting caps) (reads : RequestReads) :
    (c.request reads).1.Fitting caps := by
  unfold ClockStack.request
  rcases c.synchronizer.beginRequest_recorded reads with ⟨result, heq⟩ |
    ⟨s', request, heq, hconfig, hinit, -, -⟩
  · rw [heq]
    exact ⟨h.suits.kept ((count_kept _).trans (count_kept _)), h.sends⟩
  · rw [heq]
    refine ⟨⟨hinit ▸ h.suits.payload, hconfig ▸ hinit ▸ h.suits.peer⟩,
      fun send hsend => ?_⟩
    rcases List.mem_cons.mp hsend with rfl | hsend
    · exact h.suits.beginRequest heq
    · exact h.sends send hsend

/-- A packet, up to the send of a response. -/
theorem Fitting.receive (h : c.Fitting caps) {packet : RadioPacketView}
    {reads : ReceiveReads} (hbytes : reads.addressBytes = caps.addressBytes) :
    (c.receive packet reads).1.Fitting caps := by
  have hkept := c.synchronizer.beginReceive_kept packet reads
  have hfits : ∀ response, (c.synchronizer.beginReceive packet reads).2.2
    = some response →
      FrameFits caps response.destination response.frame :=
    fun response => h.suits.beginReceive hbytes
  unfold ClockStack.receive
  rcases hr : c.synchronizer.beginReceive packet reads with ⟨s', events, _ | response⟩
  · rw [hr] at hkept
    exact ⟨h.suits.kept hkept, h.sends⟩
  · rw [hr] at hkept hfits
    refine ⟨h.suits.kept hkept, fun send hsend => ?_⟩
    rcases List.mem_cons.mp hsend with rfl | hsend
    · exact hfits response rfl
    · exact h.sends send hsend

/-- The return of a send keeps the sends still under way fitting. -/
theorem Fitting.sent (h : c.Fitting caps) (result : RadioSendResult) :
    (c.sent result).1.Fitting caps := by
  have hkept := c.sent_kept result
  refine ⟨h.suits.kept hkept, fun send hsend => ?_⟩
  apply h.sends
  unfold ClockStack.sent at hsend
  split at hsend
  · exact hsend
  · next hsends => rw [hsends]; exact List.mem_cons_of_mem _ hsend
  · next hsends => rw [hsends]; exact List.mem_cons_of_mem _ hsend

/-- One moment, at a radio with these capabilities, keeps everything
fitting. -/
theorem Fitting.step (h : c.Fitting caps) {moment : ClockMoment}
    (hfinds : moment.Finds caps) : (c.step moment).Fitting caps := by
  cases moment with
  | initializeWith config reads => exact ⟨initializeWith_suits _ config hfinds, h.sends⟩
  | shutdown => exact ⟨suits_of_uninitialized rfl, h.sends⟩
  | resetStatistics => exact ⟨h.suits.kept ⟨rfl, rfl, rfl⟩, h.sends⟩
  | requestSynchronization reads => exact h.request reads
  | update now reads =>
      show (if c.synchronizer.isUpdateDue now then c.request reads else (c, [])).1.Fitting caps
      split
      · exact h.request reads
      · exact h
  | onRadioPacketReceived packet reads => exact h.receive hfinds
  | sent result => exact h.sent result

/-- What a moment hands to the radio was pending. -/
theorem Fitting.sends_fit (h : c.Fitting caps) {moment : ClockMoment}
    {destination : RadioAddress} {frame : List UInt8} {result : RadioSendResult}
    (hmem : .radioSend destination frame result ∈ c.effects moment) :
    FrameFits caps destination frame := by
  have hrequest : ∀ reads, .radioSend destination frame result ∉ (c.request reads).2 := by
    intro reads
    unfold ClockStack.request
    rcases c.synchronizer.beginRequest reads with ⟨s', result' | request⟩ <;> simp
  cases moment with
  | initializeWith config reads => cases hmem
  | shutdown => cases hmem
  | resetStatistics => cases hmem
  | requestSynchronization reads => exact absurd hmem (hrequest reads)
  | update now reads =>
      change _ ∈ (if c.synchronizer.isUpdateDue now then c.request reads else (c, [])).2
        at hmem
      split at hmem
      · exact absurd hmem (hrequest reads)
      · cases hmem
  | onRadioPacketReceived packet reads =>
      change _ ∈ (c.receive packet reads).2 at hmem
      rw [c.receive_effects] at hmem
      exact absurd hmem (c.synchronizer.beginReceive_sends packet reads)
  | sent result' =>
      change _ ∈ (c.sent result').2 at hmem
      have hsends := h.sends
      unfold ClockStack.sent at hmem
      split at hmem
      · cases hmem
      · next request outer hpending =>
        rw [hpending] at hsends
        have hfits := hsends _ List.mem_cons_self
        cases List.mem_singleton.mp hmem
        exact hfits
      · next response outer hpending =>
        rw [hpending] at hsends
        have hfits := hsends _ List.mem_cons_self
        cases List.mem_singleton.mp hmem
        exact hfits

/-- Every frame handed to a radio of constant capabilities fits it, has a
proper destination, and decodes, whatever comes in meanwhile. -/
theorem frames_fit (caps : RadioCapabilities) (moments : List ClockMoment)
    (hfinds : ∀ moment ∈ moments, moment.Finds caps) :
    ∀ destination frame result,
      .radioSend destination frame result ∈ Observed.trace step effects {} moments →
      FrameFits caps destination frame := by
  intro destination frame result hmem
  obtain ⟨past, moment, rest, rfl, hnow⟩ := Observed.mem_trace hmem
  have hfitting : (Observed.run step {} past).Fitting caps := by
    apply Observed.invariant_along (P := Fitting caps)
      (fun c moment hfinds hc => hc.step hfinds)
      ⟨suits_of_uninitialized rfl, fun send hsend => absurd hsend List.not_mem_nil⟩
    exact Observed.along_of_forall (C := ClockMoment.Finds caps)
      (fun moment hmoment => hfinds moment (List.mem_append_left _ hmoment)) _
  exact hfitting.sends_fit hnow

-- ============================================================ an instance

/-- A radio with 32 bytes to a packet and 5 to an address. -/
def smallRadio : RadioCapabilities := { maximumPayloadBytes := 32, addressBytes := 5 }

def smallAddress (byte : UInt8) : RadioAddress :=
  RadioAddress.fromBytes [byte, 1, 2, 3, 4] 5

/-- A peer's request comes in while one is being sent. -/
def smallMoments : List ClockMoment :=
  [.initializeWith
      { mode := .clientAndReference, referencePeer := smallAddress 9 }
      { capabilities := smallRadio, localAddress := smallAddress 7, subscribed := true },
    .requestSynchronization
      { isStarted := true, localAddress := smallAddress 7, timestamp := 100
        monotonic := 6
        sent := .accepted },
    .onRadioPacketReceived { payload := encodeRequest 3 50 (smallAddress 9) }
      { addressBytes := 5, timestamp := 101, monotonic := 7, transmitTimestamp := 102
        sent := .accepted, accepted := true },
    .sent .accepted, .sent .accepted]

/-- The response inside that request, and the request itself, fit the small
radio. -/
theorem small_frames_fit :
    (Observed.trace step effects {} smallMoments).length = 4
      ∧ ∀ destination frame result,
        .radioSend destination frame result
          ∈ Observed.trace step effects {} smallMoments →
        FrameFits smallRadio destination frame := by
  refine ⟨rfl, frames_fit smallRadio smallMoments ?_⟩
  intro moment hmoment
  simp only [smallMoments, List.mem_cons, List.not_mem_nil, or_false] at hmoment
  rcases hmoment with rfl | rfl | rfl | rfl | rfl
  · rfl
  · trivial
  · rfl
  · trivial
  · trivial

end ClockStack

end EspressioRadio
