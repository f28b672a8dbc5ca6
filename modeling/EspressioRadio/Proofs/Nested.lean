/-
Callbacks that call the transport again.

Nested, the tables lose one invariant: while its view is handed out, a
slot in use holds a message already remembered. What is left is `Tidy`:
slots agree with their geometry, and no message is in two. Every nesting
of calls, returns and throws keeps it, and it is enough to stay in bounds
(`nested_memory_safe`). With nothing nested, the moments are the calls
(`run_flatMap_unnested`).

The view borrows the slot's buffer, so it is good as long as the slot is
left alone (`Lent`). Nothing locks the slot. What protects it is its
stamp, the latest when the view is handed out, and the ring: other
messages get other slots until as many as the table has slots were heard
of, and fragments of the message itself are refused until as many as the
ring has entries were completed (`borrowed_view_intact`). A `Stop` in a
callback takes the buffer away at once.
-/
import EspressioRadio.Proofs.Bounds
import EspressioRadio.Proofs.Traffic
import EspressioRadio.Transport.Nested

namespace EspressioRadio

open Chunks

variable {b : Bounds} {ρ : Type}

namespace RadioTransport

variable {t t' : RadioTransport b ρ} {packet : List UInt8} {h : WireHeader}
  {i : Fin b.maxReassemblies}

-- ======================================================= without the ring

/-- The transport with its ring of recent messages empty. -/
def forgetting (t : RadioTransport b ρ) : RadioTransport b ρ :=
  { t with recent := fun _ => {} }

theorem beside_forgetting : Beside (forgetting (b := b) (ρ := ρ)) :=
  ⟨fun _ => rfl, fun _ => rfl, fun _ _ _ => rfl⟩

/-- A packet that is not refused has its fragment taken in the same if
nothing is remembered. -/
theorem receiveFragment_forgetting (hd : decodeHeader packet = some h)
    (hr : t.refuses h = false) :
    t.forgetting.receiveFragment packet
      = ((t.receiveFragment packet).1.forgetting, (t.receiveFragment packet).2) := by
  have hr' : t.forgetting.refuses h = false := by
    obtain ⟨hsource, hlocal, hdestination, -⟩ := refuses_eq_false hr
    have hrecent : t.forgetting.isRecent h = false := by
      rw [isRecent_eq_false_iff]
      rintro ⟨j, hu, -⟩
      cases hu
    simp only [refuses, hrecent, Bool.or_false]
    simp [hsource, hdestination]
    exact hlocal
  apply beside_forgetting.receiveFragment
  intro h' hd'
  obtain rfl : h = h' := Option.some.inj (hd.symm.trans hd')
  rw [hr, hr']

-- ================================================================== tidy

/-- What holds of the slots whatever is remembered. -/
structure Tidy (t : RadioTransport b ρ) : Prop where
  slot : ∀ i, (t.reassemblies i).used = true → (t.reassemblies i).WellFormed b
  unused : ∀ i, (t.reassemblies i).used = false → t.reassemblies i = {}
  distinct : ∀ i j, (t.reassemblies i).used = true →
    (t.reassemblies j).used = true →
    (t.reassemblies i).identity = (t.reassemblies j).identity → i = j

theorem tidy_iff : t.Tidy ↔ t.forgetting.Sound := by
  constructor
  · intro ht
    refine ⟨ht.slot, ht.unused, ht.distinct, ?_⟩
    rintro i - ⟨j, hu, -⟩
    cases hu
  · intro hs
    exact ⟨hs.slot, hs.unused, hs.distinct⟩

/-- A packet is refused, or does to the slots what it would do with
nothing remembered. -/
theorem receiveFragment_tidy_cases (ht : t.Tidy) (packet : List UInt8) :
    t.receiveFragment packet = (t, none)
      ∨ ∃ h, decodeHeader packet = some h ∧ t.refuses h = false
        ∧ Inbound t.forgetting packet (t.receiveFragment packet).1.forgetting
          (t.receiveFragment packet).2 := by
  cases hd : decodeHeader packet with
  | none =>
      left
      unfold receiveFragment
      rw [hd]
  | some h =>
      cases hr : t.refuses h with
      | true =>
          left
          unfold receiveFragment
          rw [hd]
          dsimp only
          rw [hr, if_pos rfl]
      | false =>
          right
          have hin := receiveFragment_inbound (tidy_iff.mp ht) packet
          rw [receiveFragment_forgetting hd hr] at hin
          exact ⟨h, rfl, hr, hin⟩

theorem Tidy.receiveFragment (ht : t.Tidy) (packet : List UInt8) :
    (t.receiveFragment packet).1.Tidy := by
  rcases receiveFragment_tidy_cases ht packet with heq | ⟨h, -, -, hin⟩
  · rw [heq]
    exact ht
  · exact tidy_iff.mpr (hin.sound (tidy_iff.mp ht))

/-- A transport with the same slots as a tidy one is tidy. -/
theorem Tidy.congr (ht : t.Tidy) (hslots : t'.reassemblies = t.reassemblies) : t'.Tidy :=
  tidy_iff.mpr (Sound.congr (tidy_iff.mp ht) hslots rfl)

theorem Tidy.resetSlot (ht : t.Tidy) (i : Fin b.maxReassemblies) : (t.resetSlot i).Tidy :=
  tidy_iff.mpr (Sound.clear (tidy_iff.mp ht) i)

theorem tidy_of_empty (hempty : ∀ i, t.reassemblies i = {}) : t.Tidy :=
  tidy_iff.mpr (stable_of_empty (t := t.forgetting) hempty).toSound

/-- The slot a fragment is taken into carries its message's name. -/
theorem Inbound.taken_identity (hin : Inbound t packet t' (some i)) :
    ∃ h, decodeHeader packet = some h ∧ (t'.reassemblies i).identity = h.identity := by
  rcases hin.slot_cases hin.taken_used with ⟨hne, -⟩ | ⟨h, hd, -, hi, -, -, heq⟩
    | ⟨h, hd, -, -, -, -, heq⟩
  · exact absurd rfl hne
  · refine ⟨h, hd, ?_⟩
    rw [heq, ReassemblyRecord.store_identity]
    exact (ReassemblyRecord.holds_iff.mp hi).2
  · refine ⟨h, hd, ?_⟩
    rw [heq, firstStore_identity]

/-- A message taken in was not remembered, so the second look at the ring
finds nothing either. -/
theorem taken_not_recent (ht : t.Tidy) (htakes : t.takes packet = some i) :
    (t.receiveFragment packet).1.isRecent
      ((t.receiveFragment packet).1.reassemblies i).identity.header = false := by
  rcases receiveFragment_tidy_cases ht packet with heq | ⟨h, hd, hr, hin⟩
  · unfold takes at htakes
    rw [heq] at htakes
    cases htakes
  · have hsome : (t.receiveFragment packet).2 = some i := htakes
    rw [hsome] at hin
    obtain ⟨h', hd', hid⟩ := hin.taken_identity
    obtain rfl : h = h' := Option.some.inj (hd.symm.trans hd')
    obtain ⟨slots, touch, hmoves⟩ := t.receiveFragment_moves packet
    have hrecent : (t.receiveFragment packet).1.recent = t.recent := by rw [hmoves]
    have hname : ((t.receiveFragment packet).1.reassemblies i).identity
      = h.identity := hid
    rw [hname, isRecent_eq_false_iff, MessageIdentity.header_identity]
    intro hremembers
    unfold Remembers at hremembers
    rw [hrecent] at hremembers
    exact (refuses_eq_false hr).2.2.2 hremembers

/-- Tidy slots are enough to stay inside every vector. -/
theorem Tidy.inBounds (ht : t.Tidy) (packet : List UInt8) : t.InBounds packet := by
  have hfound : ∀ {h t₁ j}, decodeHeader packet = some h →
      t.findOrCreateReassembly h = (t₁, some j) → (t₁.reassemblies j).WellFormed b := by
    intro h t₁ j hd hf
    have hf' : t.forgetting.findOrCreateReassembly h = (t₁.forgetting, some j) := by
      rw [beside_forgetting.findOrCreateReassembly, hf]
    have hwell := (tidy_iff.mp ht).found_wellFormed (decodeHeader_wellFormed hd) hf'
    exact hwell
  refine ⟨?_, ?_, ?_, ?_, ?_⟩
  · intro h hd
    exact Nat.le_of_eq (decodeHeader_eq_some hd).2.2
  · intro h t₁ j hd _ hf hcount hchunk
    exact ReassemblyRecord.offset_add_le (hfound hd hf) ⟨hcount, hchunk⟩
      (decodeHeader_wellFormed hd)
  · intro h t₁ j hd _ hf hcount hchunk
    exact ReassemblyRecord.index_lt_received (hfound hd hf) ⟨hcount, hchunk⟩
      (decodeHeader_wellFormed hd)
  · intro t₁ j heq
    have htakes : t.takes packet = some j := by rw [takes, heq]
    have hnot := taken_not_recent ht htakes
    rwa [heq] at hnot
  · intro t₁ j heq
    have ht₁ := ht.receiveFragment packet
    rcases receiveFragment_tidy_cases ht packet with hnone | ⟨h, -, -, hin⟩
    · rw [hnone] at heq
      cases heq
    · rw [heq] at ht₁ hin
      exact ReassemblyRecord.total_le (ht₁.slot j hin.taken_used)

/-- A wrap with nothing remembered is one with what is remembered, for a
packet that is not refused. -/
theorem not_overruns_forgetting (hd : decodeHeader packet = some h)
    (hr : t.refuses h = false) (hno : ¬ t.Overruns packet) :
    ¬ t.forgetting.Overruns packet := by
  rintro ⟨h', hd', -, hothers, hcounter⟩
  obtain rfl : h = h' := Option.some.inj (hd.symm.trans hd')
  exact hno ⟨h, hd, hr, hothers, hcounter⟩

/-- Up to the completion test, stamps stay behind the counter, and the
slot taken has the latest. -/
theorem Tidy.stamps (ht : t.Tidy) (htouched : t.Touched) (hno : ¬ t.Overruns packet) :
    (t.receiveFragment packet).1.Touched
      ∧ ∀ i, t.takes packet = some i →
        (t.receiveFragment packet).1.Latest i
          ∧ ((t.receiveFragment packet).1.reassemblies i).used = true := by
  rcases receiveFragment_tidy_cases ht packet with heq | ⟨h, hd, hr, hin⟩
  · unfold takes
    rw [heq]
    exact ⟨htouched, fun i hi => nomatch hi⟩
  · have hs := tidy_iff.mp ht
    have hno' := not_overruns_forgetting hd hr hno
    have hstamps : (t.receiveFragment packet).1.forgetting.Touched :=
      hin.touched hs htouched hno'
    refine ⟨hstamps, fun i hi => ?_⟩
    have hsome : (t.receiveFragment packet).2 = some i := hi
    rw [hsome] at hin
    have hlatest : (t.receiveFragment packet).1.forgetting.Latest i :=
      hin.latest hs htouched hno'
    exact ⟨hlatest, hin.taken_used⟩

/-- The touches of a transport with one slot reset. -/
theorem Touched.resetSlot (htouched : t.Touched) (i : Fin b.maxReassemblies) :
    (t.resetSlot i).Touched := by
  intro j hu
  by_cases hji : j = i
  · subst hji
    rw [RadioTransport.resetSlot, setSlot_self] at hu
    cases hu
  · rw [RadioTransport.resetSlot, setSlot_ne t i _ hji] at hu ⊢
    exact htouched j hu

-- ============================================================ one slot

/-- The slot `i` is still `s`, and any slot in use that was not stamped
before it is of one of these messages. -/
structure Lent (t : RadioTransport b ρ) (i : Fin b.maxReassemblies) (s : ReassemblyRecord)
    (names : Finset MessageIdentity) : Prop where
  slot_eq : t.reassemblies i = s
  used : s.used = true
  others : ∀ j, j ≠ i → (t.reassemblies j).used = true →
    (t.reassemblies j).touch < s.touch ∨ (t.reassemblies j).identity ∈ names

variable {s : ReassemblyRecord} {names names' : Finset MessageIdentity}

theorem Lent.mono (hl : t.Lent i s names) (hsub : names ⊆ names') :
    t.Lent i s names' where
  slot_eq := hl.slot_eq
  used := hl.used
  others := fun j hj hu => (hl.others j hj hu).imp_right fun hmem => hsub hmem

/-- A view lent out of one transport is lent out of every transport with the
same slots. -/
theorem Lent.congr (hl : t.Lent i s names) (hslots : t'.reassemblies = t.reassemblies) :
    t'.Lent i s names where
  slot_eq := hslots ▸ hl.slot_eq
  used := hl.used
  others := hslots ▸ hl.others

/-- Resetting another slot leaves the slot lent as it is. -/
theorem Lent.resetSlot (hl : t.Lent i s names) {k : Fin b.maxReassemblies} (hk : k ≠ i) :
    (t.resetSlot k).Lent i s names where
  slot_eq := by
    rw [RadioTransport.resetSlot, setSlot_ne t k _ hk.symm]
    exact hl.slot_eq
  used := hl.used
  others := by
    intro j hj hu
    by_cases hjk : j = k
    · subst hjk
      rw [RadioTransport.resetSlot, setSlot_self] at hu
      cases hu
    · rw [RadioTransport.resetSlot, setSlot_ne t k _ hjk] at hu ⊢
      exact hl.others j hj hu

/-- A slot with the latest stamp is lent with no message ahead of it. -/
theorem Latest.lent (hlatest : t.Latest i) (hu : (t.reassemblies i).used = true) :
    t.Lent i (t.reassemblies i) ∅ where
  slot_eq := rfl
  used := hu
  others := fun j hj huj => Or.inl (hlatest j hj huj)

/-- With fewer messages than slots, one of them new, that new one goes
elsewhere: were the slot the oldest, each other would hold one of the
messages. -/
theorem Lent.victim_ne (hs : t.Sound) (hl : t.Lent i s names)
    (hn : ∀ j, (t.reassemblies j).holds h = false)
    (hfew : (insert h.identity names).card < b.maxReassemblies) : t.victim ≠ i := by
  intro hvictim
  rcases t.victim_cases with hfree | ⟨hall, hleast⟩
  · rw [hvictim, hl.slot_eq, hl.used] at hfree
    cases hfree
  · have holdest : ∀ j, s.touch ≤ (t.reassemblies j).touch := by
      intro j
      have hle := Lru.least_le (fun j => (t.reassemblies j).touch) j
      rw [← t.leastTouched_eq, ← hleast, hvictim, hl.slot_eq] at hle
      exact hle
    let held := (Finset.univ.erase i).image fun j => (t.reassemblies j).identity
    have hheld : held ⊆ names := by
      intro id hid
      obtain ⟨j, hj, rfl⟩ := Finset.mem_image.mp hid
      rcases hl.others j (Finset.ne_of_mem_erase hj) (hall j) with hlt | hmem
      · exact absurd (holdest j) (Std.not_le.mpr hlt)
      · exact hmem
    have hnew : h.identity ∉ held := by
      intro hid
      obtain ⟨j, -, hj⟩ := Finset.mem_image.mp hid
      have hholds := ReassemblyRecord.holds_iff.mpr ⟨hall j, hj⟩
      rw [hn j] at hholds
      cases hholds
    have hcard : held.card = b.maxReassemblies - 1 := by
      rw [Finset.card_image_of_injective, Finset.card_erase_of_mem (Finset.mem_univ i),
        Finset.card_univ, Fintype.card_fin]
      exact fun j k hid => hs.distinct j k (hall j) (hall k) hid
    have hle := Finset.card_le_card (Finset.insert_subset_insert h.identity hheld)
    rw [Finset.card_insert_of_notMem hnew, hcard] at hle
    have hpos := b.reassemblies_pos
    omega

/-- A packet of another message leaves the slot alone. -/
theorem Lent.inbound {taken : Option (Fin b.maxReassemblies)} (hs : t.Sound)
    (hl : t.Lent i s names) (hin : Inbound t packet t' taken)
    (hd : decodeHeader packet = some h) (hne : h.identity ≠ s.identity)
    (hfew : (insert h.identity names).card < b.maxReassemblies) :
    t'.Lent i s (insert h.identity names) ∧ taken ≠ some i := by
  have hholds : ∀ j, (t.reassemblies j).holds h = true → j ≠ i := by
    rintro j hj rfl
    have hid := (ReassemblyRecord.holds_iff.mp hj).2
    rw [hl.slot_eq] at hid
    exact hne hid.symm
  have hsame : ∀ {h'}, decodeHeader packet = some h' → h' = h := by
    intro h' hd'
    exact Option.some.inj (hd'.symm.trans hd)
  -- which slot the packet writes
  have hkept : t'.reassemblies i = t.reassemblies i ∧ taken ≠ some i := by
    cases hin with
    | undecodable => exact ⟨rfl, nofun⟩
    | refused => exact ⟨rfl, nofun⟩
    | tooLarge hd' hr hn =>
        obtain rfl := hsame hd'
        exact ⟨setSlot_ne t _ _ (hl.victim_ne hs hn hfew).symm, nofun⟩
    | mismatched hd' hr hi =>
        obtain rfl := hsame hd'
        exact ⟨setSlot_ne t _ _ (hholds _ hi).symm, nofun⟩
    | stored hd' hr hi =>
        obtain rfl := hsame hd'
        exact ⟨setSlot_ne t.bumpTouch _ _ (hholds _ hi).symm,
          fun heq => hholds _ hi (Option.some.inj heq)⟩
    | opened hd' hr hn =>
        obtain rfl := hsame hd'
        have hvictim := hl.victim_ne hs hn hfew
        exact ⟨setSlot_ne t.bumpTouch.bumpTouch _ _ hvictim.symm,
          fun heq => hvictim (Option.some.inj heq)⟩
  refine ⟨⟨hkept.1.trans hl.slot_eq, hl.used, ?_⟩, hkept.2⟩
  intro j hj hu
  by_cases htaken : taken = some j
  · right
    subst htaken
    obtain ⟨h', hd', hid⟩ := hin.taken_identity
    rw [hid, hsame hd']
    exact Finset.mem_insert_self ..
  · have hold := hin.others htaken hu
    rw [hold] at hu ⊢
    exact (hl.others j hj hu).imp_right Finset.mem_insert_of_mem

/-- A fragment of another message leaves the slot lent, with that message
among those ahead of it, as long as these are fewer than the slots. -/
theorem Lent.receiveFragment (ht : t.Tidy) (hl : t.Lent i s names)
    (hd : decodeHeader packet = some h) (hne : h.identity ≠ s.identity)
    (hfew : (insert h.identity names).card < b.maxReassemblies) :
    (t.receiveFragment packet).1.Lent i s (insert h.identity names)
      ∧ t.takes packet ≠ some i := by
  rcases receiveFragment_tidy_cases ht packet with heq | ⟨h', -, -, hin⟩
  · unfold takes
    rw [heq]
    exact ⟨hl.mono (Finset.subset_insert ..), nofun⟩
  · have hl' : t.forgetting.Lent i s names := hl.congr rfl
    obtain ⟨hlent, htakes⟩ := hl'.inbound (tidy_iff.mp ht) hin hd hne hfew
    exact ⟨hlent.congr rfl, htakes⟩

end RadioTransport

-- ============================================================== moments

namespace TransportStack

open RadioTransport

variable {c : TransportStack b ρ} {view : PendingView b} {packet : List UInt8}

/-- What a packet can do: take something in, or complete a message and
hand out its view. -/
theorem receive_cases (ht : c.transport.Tidy) (packet : List UInt8) :
    c.receive packet = { c with transport := (c.transport.receiveFragment packet).1 }
        ∧ c.transport.completion packet = none
      ∨ ∃ i, c.transport.takes packet = some i
        ∧ c.receive packet
          = { transport := (c.transport.receiveFragment packet).1.remember
                ((c.transport.receiveFragment packet).1.reassemblies i).identity.header
              pending := { slot := i, message :=
                ((c.transport.receiveFragment packet).1.reassemblies i).message }
                :: c.pending }
        ∧ c.transport.completion packet
          = some ((c.transport.receiveFragment packet).1.reassemblies i).identity := by
  have hnot : ∀ i, (c.transport.receiveFragment packet).2 = some i → _ :=
    fun i => taken_not_recent ht
  unfold receive completion takes
  rcases hrf : c.transport.receiveFragment packet with ⟨t, - | i⟩
  · exact Or.inl ⟨rfl, rfl⟩
  · have hrecent := hnot i (by rw [hrf])
    rw [hrf] at hrecent
    simp only at hrecent ⊢
    cases hdone : (t.reassemblies i).isComplete with
    | false => exact Or.inl ⟨rfl, rfl⟩
    | true =>
        right
        refine ⟨i, rfl, ?_, ?_⟩
        · simp [beginComplete, hrecent]
        · simp [hrecent]


/-- A packet and the return of what it called, with nothing in between,
are the whole `ProcessInboundPacket`. -/
theorem receive_returned (c : TransportStack b ρ) (radios : Radios ρ)
    (packet : List UInt8) :
    c.receive packet
          = { c with transport := (c.transport.processInboundPacket radios packet).1 }
      ∨ (c.receive packet).returned
          = { c with transport := (c.transport.processInboundPacket radios packet).1 } := by
  unfold receive processInboundPacket
  rcases c.transport.receiveFragment packet with ⟨t, - | i⟩
  · exact Or.inl rfl
  · dsimp only
    cases (t.reassemblies i).isComplete with
    | false => exact Or.inl rfl
    | true =>
        unfold beginComplete complete
        cases hrecent : t.isRecent (t.reassemblies i).identity.header with
        | true => exact Or.inl (by simp [hrecent])
        | false => exact Or.inr (by simp [hrecent, returned, resetSlot, remember])

/-- A fragment of a message that is remembered does nothing. -/
theorem receive_remembered {h : WireHeader} (hd : decodeHeader packet = some h)
    (hremembers : c.transport.Remembers h.identity) : c.receive packet = c := by
  have hrefuses : c.transport.refuses h = true := by
    rw [refuses, isRecent_iff.mpr hremembers, Bool.or_true]
  unfold receive receiveFragment
  rw [hd]
  dsimp only
  rw [hrefuses, if_pos rfl]

/-- A packet that does not decode does nothing. -/
theorem receive_undecodable (hd : decodeHeader packet = none) : c.receive packet = c := by
  unfold receive receiveFragment
  rw [hd]

variable [DecidableEq ρ]

theorem step_call_cases (c : TransportStack b ρ) (input : Input ρ) :
    c.step (.call input) = c
      ∨ (∀ packet, input.call ≠ .processInboundPacket packet)
        ∧ c.step (.call input) = { c with transport := c.transport.after input } := by
  cases hcall : input.call with
  | processInboundPacket packet =>
      left
      simp [step, hcall]
  | _ =>
      right
      refine ⟨fun packet h => (nomatch h), ?_⟩
      simp [step, hcall]

/-- One moment, whichever it is, keeps the slots tidy. -/
theorem tidy_step (ht : c.transport.Tidy) (moment : TransportMoment ρ) :
    (c.step moment).transport.Tidy := by
  cases moment with
  | packet packet =>
      have hfragment := ht.receiveFragment packet
      rcases receive_cases ht packet with ⟨heq, -⟩ | ⟨i, -, heq, -⟩
      · show (c.receive packet).transport.Tidy
        rw [heq]
        exact hfragment
      · show (c.receive packet).transport.Tidy
        rw [heq]
        exact hfragment.congr rfl
  | call input =>
      rcases c.step_call_cases input with heq | ⟨hnot, heq⟩
      · rw [heq]
        exact ht
      · rw [heq]
        obtain ⟨-, -, hslots | hempty⟩ := c.transport.after_tables input hnot
        · exact ht.congr hslots
        · exact tidy_of_empty hempty
  | returned =>
      show c.returned.transport.Tidy
      unfold returned
      cases c.pending with
      | nil => exact ht
      | cons view outer => exact ht.resetSlot view.slot
  | threw => exact ht

/-- The message the moment completes, if it does. -/
def completions (c : TransportStack b ρ) : TransportMoment ρ → List MessageIdentity
  | .packet packet => (c.transport.completion packet).toList
  | _ => []

/-- The moment leaves the order of the stamps intact. -/
def KeepsOrder (c : TransportStack b ρ) (moment : TransportMoment ρ) : Prop :=
  ∀ packet ∈ moment.packet?, ¬ c.transport.Overruns packet

/-- What a moment completes is pushed onto the ring, and nothing else
is. -/
theorem ring_step (ht : c.transport.Tidy) (moment : TransportMoment ρ) :
    (c.completions moment = [] ∧ (c.step moment).transport.ring = c.transport.ring)
      ∨ ∃ id, c.completions moment = [id]
        ∧ (c.step moment).transport.ring
          = c.transport.ring.push (2 ^ b.sizeBits) id := by
  cases moment with
  | packet packet =>
      obtain ⟨slots, touch, hmoves⟩ := c.transport.receiveFragment_moves packet
      have hring : (c.transport.receiveFragment packet).1.ring = c.transport.ring := by
        rw [hmoves]
        exact ring_congr rfl rfl
      rcases receive_cases ht packet with ⟨heq, hnone⟩ | ⟨i, -, heq, hsome⟩
      · left
        refine ⟨by rw [completions, hnone]; rfl, ?_⟩
        show (c.receive packet).transport.ring = c.transport.ring
        rw [heq]
        exact hring
      · right
        refine ⟨_, by rw [completions, hsome]; rfl, ?_⟩
        show (c.receive packet).transport.ring = _
        rw [heq]
        dsimp only
        rw [ring_remember, hring, MessageIdentity.header_identity]
  | call input =>
      left
      refine ⟨rfl, ?_⟩
      rcases c.step_call_cases input with heq | ⟨hnot, heq⟩
      · rw [heq]
      · rw [heq]
        exact (quiet_ring hnot).2
  | returned =>
      left
      refine ⟨rfl, ?_⟩
      show c.returned.transport.ring = c.transport.ring
      unfold returned
      cases c.pending <;> exact ring_congr rfl rfl
  | threw => exact Or.inl ⟨rfl, rfl⟩

/-- The ring after a run, as long as its cursor does no harm. -/
theorem ring_run (localNode : RadioNodeId) (defaultHopLimit : UInt8)
    (moments : List (TransportMoment ρ))
    (hexact : b.maxRecentMessages ∣ 2 ^ b.sizeBits
      ∨ (Observed.trace step completions
        (create localNode defaultHopLimit : TransportStack b ρ) moments).length
          ≤ 2 ^ b.sizeBits) :
    (Observed.run step (create localNode defaultHopLimit : TransportStack b ρ)
        moments).transport.ring.Tracks (2 ^ b.sizeBits)
      (Observed.trace step completions
        (create localNode defaultHopLimit : TransportStack b ρ) moments) := by
  let R : TransportStack b ρ → List MessageIdentity → Prop := fun c completed =>
    c.transport.Tidy
      ∧ ((b.maxRecentMessages ∣ 2 ^ b.sizeBits ∨ completed.length ≤ 2 ^ b.sizeBits) →
        c.transport.ring.Tracks (2 ^ b.sizeBits) completed)
  have hstep : ∀ c completed moment, R c completed →
      R (c.step moment) (completed ++ c.completions moment) := by
    intro c completed moment ⟨ht, htracks⟩
    refine ⟨tidy_step ht moment, fun hfits => ?_⟩
    rcases ring_step ht moment with ⟨hnone, hring⟩ | ⟨id, hone, hring⟩
    · rw [hnone, List.append_nil] at hfits ⊢
      rw [hring]
      exact htracks hfits
    · rw [hone] at hfits ⊢
      rw [List.length_append, List.length_singleton] at hfits
      rw [hring]
      apply (htracks (hfits.imp_right (by omega))).push
      exact hfits.imp_right fun hle => hle
  have hcreate : R (create localNode defaultHopLimit) [] :=
    ⟨tidy_of_empty fun _ => rfl, fun _ => Ring.Cells.tracks_nil rfl fun _ => rfl⟩
  have hrun := Observed.history_run hstep hcreate moments
  exact hrun.2 hexact

/-- A moment that keeps the order leaves no slot stamped ahead of the
counter. -/
theorem touched_step (ht : c.transport.Tidy) (htouched : c.transport.Touched)
    {moment : TransportMoment ρ} (hkeeps : c.KeepsOrder moment) :
    (c.step moment).transport.Touched := by
  cases moment with
  | packet packet =>
      obtain ⟨hstamps, -⟩ := ht.stamps htouched (hkeeps packet rfl)
      show (c.receive packet).transport.Touched
      rcases receive_cases ht packet with ⟨heq, -⟩ | ⟨i, -, heq, -⟩
      · rw [heq]
        exact hstamps
      · rw [heq]
        exact hstamps
  | call input =>
      rcases c.step_call_cases input with heq | ⟨hnot, heq⟩
      · rw [heq]
        exact htouched
      · rw [heq]
        intro j hu
        by_cases hstop : input.call = .stop
        · simp [after, perform, hstop, stop, ReassemblyRecord.reset] at hu
        · obtain ⟨hslots, -, -, htouch⟩ := c.transport.after_inbound hnot hstop
          simp only [hslots, htouch] at hu ⊢
          exact htouched j hu
  | returned =>
      show c.returned.transport.Touched
      unfold returned
      cases c.pending with
      | nil => exact htouched
      | cons view outer => exact htouched.resetSlot view.slot
  | threw => exact htouched

-- ========================================================== a view lent

/-- The view is out, above `outer`, and the slot it borrows is as it was. -/
structure Lends (c : TransportStack b ρ) (outer : List (PendingView b))
    (view : PendingView b) (s : ReassemblyRecord) (names : Finset MessageIdentity) :
    Prop where
  tidy : c.transport.Tidy
  lent : c.transport.Lent view.slot s names
  pending : ∃ inner, c.pending = inner ++ view :: outer ∧ ∀ w ∈ inner, w.slot ≠ view.slot

variable {outer : List (PendingView b)} {s : ReassemblyRecord}
  {names names' : Finset MessageIdentity} {h : WireHeader}

theorem Lends.receive_other (hl : c.Lends outer view s names)
    (hd : decodeHeader packet = some h) (hne : h.identity ≠ s.identity)
    (hfew : (insert h.identity names).card < b.maxReassemblies) :
    (c.step (.packet packet)).Lends outer view s (insert h.identity names) := by
  obtain ⟨hlent, htakes⟩ := hl.lent.receiveFragment hl.tidy hd hne hfew
  refine ⟨tidy_step hl.tidy _, ?_, ?_⟩
  · show (c.receive packet).transport.Lent _ _ _
    rcases receive_cases hl.tidy packet with ⟨heq, -⟩ | ⟨i, -, heq, -⟩
    · rw [heq]
      exact hlent
    · rw [heq]
      exact hlent.congr rfl
  · obtain ⟨inner, hpending, hinner⟩ := hl.pending
    show ∃ inner, (c.receive packet).pending = _ ∧ _
    rcases receive_cases hl.tidy packet with ⟨heq, -⟩ | ⟨i, htaken, heq, -⟩
    · rw [heq]
      exact ⟨inner, hpending, hinner⟩
    · rw [heq, hpending]
      refine ⟨_ :: inner, rfl, fun w hw => ?_⟩
      rcases List.mem_cons.mp hw with rfl | hw
      · intro hslot
        exact htakes (htaken.trans (congrArg some hslot))
      · exact hinner w hw

/-- The moment does not stop the transport, and goes back no further than
the innermost view above the first `depth`. -/
def Holding (depth : Nat) (c : TransportStack b ρ) : TransportMoment ρ → Prop
  | .packet _ => True
  | .call input => input.call ≠ .stop
  | .returned => depth < c.pending.length
  | .threw => depth < c.pending.length

/-- A moment that brings in no packet, and does not end the callback the
view is lent to, leaves its slot as it was. -/
theorem Lends.quiet (hl : c.Lends outer view s names) {moment : TransportMoment ρ}
    (hnone : moment.packet? = none) (hholding : Holding (outer.length + 1) c moment) :
    (c.step moment).Lends outer view s names := by
  have ht := tidy_step hl.tidy moment
  obtain ⟨inner, hpending, hinner⟩ := hl.pending
  -- what is popped was handed out later
  have hpopped : outer.length + 1 < c.pending.length →
      ∃ w rest, c.pending = w :: (rest ++ view :: outer) ∧ w.slot ≠ view.slot
        ∧ ∀ w ∈ rest, w.slot ≠ view.slot := by
    intro hdeep
    cases inner with
    | nil =>
        rw [hpending] at hdeep
        simp at hdeep
    | cons w rest =>
        exact ⟨w, rest, hpending, hinner w List.mem_cons_self,
          fun w' hw' => hinner w' (List.mem_cons_of_mem w hw')⟩
  cases moment with
  | packet packet => cases hnone
  | call input =>
      rcases c.step_call_cases input with heq | ⟨hnot, heq⟩
      · rw [heq]
        exact hl
      · rw [heq] at ht ⊢
        obtain ⟨hslots, -⟩ := c.transport.after_inbound hnot hholding
        exact ⟨ht, hl.lent.congr hslots, ⟨inner, hpending, hinner⟩⟩
  | returned =>
      obtain ⟨w, rest, hlist, hw, hrest⟩ := hpopped hholding
      refine ⟨ht, ?_, ⟨rest, ?_, hrest⟩⟩
      · show c.returned.transport.Lent _ _ _
        rw [returned, hlist]
        exact hl.lent.resetSlot hw
      · show c.returned.pending = _
        rw [returned, hlist]
  | threw =>
      obtain ⟨w, rest, hlist, hw, hrest⟩ := hpopped hholding
      refine ⟨ht, hl.lent, ⟨rest, ?_, hrest⟩⟩
      show c.pending.tail = _
      rw [hlist]
      rfl

/-- The messages heard of during these moments, other than this one. -/
def others (own : MessageIdentity) (moments : List (TransportMoment ρ)) :
    Finset MessageIdentity :=
  (heard (moments.filterMap TransportMoment.packet?)).toFinset.erase own

section Others

variable {own : MessageIdentity} {moments : List (TransportMoment ρ)}
  {moment : TransportMoment ρ}

omit [DecidableEq ρ] in
theorem others_concat_quiet
    (hquiet : ∀ packet ∈ moment.packet?, ∀ h, decodeHeader packet = some h →
      h.identity = own) :
    others own (moments ++ [moment]) = others own moments := by
  unfold others
  rw [List.filterMap_append]
  cases hp : moment.packet? with
  | none => simp [hp]
  | some packet =>
      cases hd : decodeHeader packet with
      | none => simp [hp, heard, hd]
      | some h =>
          have hown := hquiet packet hp h hd
          have hfilter : [moment].filterMap TransportMoment.packet? = [packet] := by
            simp [hp]
          rw [hfilter, heard_concat hd, hown]
          ext id
          simp only [Finset.mem_erase, List.mem_toFinset, List.mem_append,
            List.mem_singleton]
          tauto

omit [DecidableEq ρ] in
theorem others_concat_packet {packet : List UInt8} (hd : decodeHeader packet = some h)
    (hne : h.identity ≠ own) :
    others own (moments ++ [.packet packet])
      = insert h.identity (others own moments) := by
  unfold others
  have hfilter : (moments ++ [TransportMoment.packet packet]).filterMap
      TransportMoment.packet?
        = moments.filterMap TransportMoment.packet? ++ [packet] := by
    rw [List.filterMap_append]
    rfl
  rw [hfilter, heard_concat hd]
  ext id
  simp only [Finset.mem_erase, List.mem_toFinset, List.mem_append, List.mem_singleton,
    Finset.mem_insert]
  grind

omit [DecidableEq ρ] in
theorem others_mono (own : MessageIdentity) {moments' : List (TransportMoment ρ)}
    (hpre : moments <+: moments') :
    others own moments ⊆ others own moments' := by
  obtain ⟨rest, rfl⟩ := hpre
  intro id hid
  unfold others at hid ⊢
  rw [List.filterMap_append, heard, List.filterMap_append]
  simp only [Finset.mem_erase, List.mem_toFinset, List.mem_append] at hid ⊢
  exact ⟨hid.1, Or.inl hid.2⟩

end Others

/-- Over a run that keeps the message remembered, and hears of fewer others
than the table has slots. -/
theorem Lends.run (hl : c.Lends outer view s ∅) {during : List (TransportMoment ρ)}
    (hholding : Observed.Along step (Holding (outer.length + 1)) c during)
    (hcrowd : (others s.identity during).card < b.maxReassemblies)
    (hremembers : ∀ past, past <+: during →
      (Observed.run step c past).transport.Remembers s.identity) :
    (Observed.run step c during).Lends outer view s (others s.identity during) := by
  induction during using List.reverseRecOn with
  | nil => exact hl
  | append_singleton past moment ih =>
      obtain ⟨hpast, hnow⟩ := Observed.along_append.mp hholding
      have hpre : past <+: past ++ [moment] := List.prefix_append ..
      have hle := Finset.card_le_card (others_mono s.identity hpre)
      have hl' := ih hpast (Nat.lt_of_le_of_lt hle hcrowd) fun before hbefore =>
        hremembers before (hbefore.trans hpre)
      rw [Observed.run_append, Observed.run_cons, Observed.run_nil]
      cases hp : moment.packet? with
      | none =>
          rw [others_concat_quiet (by rw [hp]; nofun)]
          exact hl'.quiet hp hnow.1
      | some packet =>
          cases moment with
          | packet packet' =>
              obtain rfl : packet' = packet := Option.some.inj hp
              cases hd : decodeHeader packet' with
              | none =>
                  rw [others_concat_quiet fun q hq h hd' => by
                    rw [← Option.some.inj hq, hd] at hd'; cases hd']
                  show ((Observed.run step c past).receive packet').Lends _ _ _ _
                  rw [receive_undecodable hd]
                  exact hl'
              | some h =>
                  -- its own message is remembered, so a fragment of it does nothing;
                  -- another's adds a name
                  by_cases hown : h.identity = s.identity
                  · rw [others_concat_quiet fun q hq h' hd' => by
                      rw [← Option.some.inj hq, hd] at hd'
                      exact Option.some.inj hd' ▸ hown]
                    show ((Observed.run step c past).receive packet').Lends _ _ _ _
                    rw [receive_remembered hd (hown ▸ hremembers past hpre)]
                    exact hl'
                  · rw [others_concat_packet hd hown] at hcrowd ⊢
                    exact hl'.receive_other hd hown hcrowd
          | call input => cases hp
          | returned => cases hp
          | threw => cases hp

-- =============================================================== the call

/-- The moments of a call that nothing calls back into. -/
def unnested (input : Input ρ) : List (TransportMoment ρ) :=
  match input.call with
  | .processInboundPacket packet => [.packet packet, .returned]
  | _ => [.call input]

/-- The moments of a call that nothing calls back into leave what the call
leaves. -/
theorem run_unnested (t : RadioTransport b ρ) (input : Input ρ) :
    Observed.run step { transport := t } (unnested input)
      = { transport := t.after input } := by
  cases hcall : input.call with
  | processInboundPacket packet =>
      have hafter : t.after input = (t.processInboundPacket input.radios packet).1 := by
        simp [after, perform, hcall]
      have hmoments : unnested input = [.packet packet, .returned] := by
        simp [unnested, hcall]
      rw [hafter, hmoments]
      show (receive { transport := t } packet).returned = _
      rcases receive_returned { transport := t } input.radios packet with heq | heq
      · rw [heq]
        rfl
      · rw [heq]
  | _ => simp [unnested, step, hcall]

/-- A run of calls is a run of moments, none of them inside another. -/
theorem run_flatMap_unnested (t : RadioTransport b ρ) (inputs : List (Input ρ)) :
    Observed.run step { transport := t } (inputs.flatMap unnested)
      = { transport := Observed.run RadioTransport.after t inputs } := by
  induction inputs generalizing t with
  | nil => rfl
  | cons input rest ih =>
      rw [List.flatMap_cons, Observed.run_append, run_unnested, ih]
      rfl

-- ======================================================== the view intact

variable {localNode : RadioNodeId} {defaultHopLimit : UInt8}
  {before during : List (TransportMoment ρ)}

/-- A message completed stays remembered until as many others were as the
ring has entries. -/
theorem remembers_run
    (hc : c = Observed.run step (create localNode defaultHopLimit) before)
    {id : MessageIdentity} (hnow : c.transport.completion packet = some id)
    (hcompleted : (Observed.trace step completions (c.receive packet) during).length
      < b.maxRecentMessages)
    (hexact : b.maxRecentMessages ∣ 2 ^ b.sizeBits
      ∨ (Observed.trace step completions
        (create localNode defaultHopLimit : TransportStack b ρ)
        (before ++ .packet packet :: during)).length ≤ 2 ^ b.sizeBits) :
    (Observed.run step (c.receive packet) during).transport.Remembers id := by
  have htracks := ring_run localNode defaultHopLimit _ hexact
  rw [Observed.run_append, Observed.trace_append, ← hc, Observed.run_cons,
    Observed.trace_cons] at htracks
  have hobs : c.completions (.packet packet) = [id] := by
    rw [completions, hnow]
    rfl
  rw [hobs] at htracks
  change (Observed.run step (c.receive packet) during).transport.ring.Tracks _
    (_ ++ ([id] ++ Observed.trace step completions (c.receive packet) during)) at htracks
  rw [← ring_has_iff, htracks.has_iff]
  refine ⟨(Observed.trace step completions
    (create localNode defaultHopLimit : TransportStack b ρ) before).length, ?_, ?_⟩
  · rw [List.length_append, List.length_append, List.length_singleton]
    omega
  · simp

/-- A packet completes a message, and its view is handed out. For as long
as the callback it was handed to is not done, whatever comes in or is
called meanwhile, the view shows what it showed: if nobody stops the
transport, fewer other messages are heard of than there are slots, and
fewer are completed than the ring has entries. -/
theorem borrowed_view_intact
    (hc : c = Observed.run step (create localNode defaultHopLimit) before)
    (hkeeps : Observed.Along step KeepsOrder
      (create localNode defaultHopLimit : TransportStack b ρ)
      (before ++ [.packet packet]))
    (hview : (c.receive packet).pending = view :: c.pending)
    (hholding : Observed.Along step (Holding (c.pending.length + 1))
      (c.receive packet) during)
    (hcrowd : (others view.message.identity during).card < b.maxReassemblies)
    (hcompleted : (Observed.trace step completions (c.receive packet) during).length
      < b.maxRecentMessages)
    (hexact : b.maxRecentMessages ∣ 2 ^ b.sizeBits
      ∨ (Observed.trace step completions
        (create localNode defaultHopLimit : TransportStack b ρ)
        (before ++ .packet packet :: during)).length ≤ 2 ^ b.sizeBits) :
    view ∈ (Observed.run step (c.receive packet) during).pending
      ∧ ((Observed.run step (c.receive packet) during).transport.reassemblies
          view.slot).used = true
      ∧ ((Observed.run step (c.receive packet) during).transport.reassemblies
          view.slot).message = view.message := by
  obtain ⟨hpast, hpacket⟩ := Observed.along_append.mp hkeeps
  -- the tables when the packet comes in
  have hinv : c.transport.Tidy ∧ c.transport.Touched := by
    rw [hc]
    apply Observed.invariant_along
      (P := fun c : TransportStack b ρ =>
        c.transport.Tidy ∧ c.transport.Touched) _ _ hpast
    · intro c moment hkeep hc
      exact ⟨tidy_step hc.1 moment, touched_step hc.1 hc.2 hkeep⟩
    · exact ⟨tidy_of_empty fun _ => rfl, fun _ hu => nomatch hu⟩
  rw [← hc] at hpacket
  obtain ⟨ht, htouched⟩ := hinv
  obtain ⟨-, hlatest⟩ := ht.stamps htouched (hpacket.1 packet rfl)
  rcases receive_cases ht packet with ⟨heq, -⟩ | ⟨i, htakes, heq, hcompletion⟩
  · rw [heq] at hview
    exact (List.cons_ne_self view c.pending hview.symm).elim
  · obtain ⟨hfirst, hused⟩ := hlatest i htakes
    have hslot := hfirst.lent hused
    obtain ⟨s, hs⟩ : ∃ s, s = (c.transport.receiveFragment packet).1.reassemblies i :=
      ⟨_, rfl⟩
    rw [← hs] at hslot hcompletion
    obtain rfl : view = { slot := i, message := s.message } := by
      rw [heq, ← hs] at hview
      exact (List.cons.inj hview).1.symm
    have hlends : (c.receive packet).Lends c.pending
      { slot := i, message := s.message } s ∅ := by
      refine ⟨tidy_step ht (.packet packet), ?_, ⟨[], hview, fun w hw => nomatch hw⟩⟩
      rw [heq]
      exact hslot.congr rfl
    have hremembers : ∀ past, past <+: during →
        (Observed.run step (c.receive packet) past).transport.Remembers s.identity := by
      intro past hpre
      obtain ⟨rest, rfl⟩ := hpre
      rw [Observed.trace_append, List.length_append] at hcompleted
      refine remembers_run hc hcompletion (by omega) (hexact.imp_right fun hle => ?_)
      rw [← List.cons_append, ← List.append_assoc, Observed.trace_append,
        List.length_append] at hle
      omega
    have hend := hlends.run hholding hcrowd hremembers
    obtain ⟨inner, hpending, -⟩ := hend.pending
    refine ⟨?_, ?_, ?_⟩
    · rw [hpending]
      simp
    · rw [hend.lent.slot_eq]
      exact hend.lent.used
    · rw [hend.lent.slot_eq]

/-- Node 5's message 8, of one byte, in one packet. -/
def single : List UInt8 :=
  frame { source := 5, destination := 2, channel := 7, messageId := 8, hopLimit := 4
          payload := [0xAB] } 1 0

/-- The view of the message's one fragment that node 2 hands out. -/
def singleView : PendingView .defaults where
  slot := 0
  message :=
    { sourceNode := 5, destinationNode := 2, channel := 7, messageId := 8
      payload := [0xAB] }

/-- Meanwhile: a fragment of two other messages each, a third delivered in
a callback of its own, a `Send`, and the message once more. -/
def meanwhile : List (TransportMoment Unit) :=
  [.packet (firstOfTwo 1), .packet (firstOfTwo 2), .packet (frame (tickMessage 0) 1 0),
    .returned, .call ⟨openRadios, .send 5 7 (.data [1])⟩, .packet single]

theorem singleView_intact :
    singleView ∈ (Observed.run step
        ((create 2 4 : TransportStack .defaults Unit).receive single) meanwhile).pending
      ∧ ((Observed.run step ((create 2 4 : TransportStack .defaults Unit).receive single)
          meanwhile).transport.reassemblies 0).used = true
      ∧ ((Observed.run step ((create 2 4 : TransportStack .defaults Unit).receive single)
          meanwhile).transport.reassemblies 0).message = singleView.message := by
  have hlow : ∀ packet,
      ¬ (create 2 4 : TransportStack .defaults Unit).transport.Overruns packet := by
    intro packet
    have hkeeps : RadioTransport.KeepsOrder
        (create 2 4 : TransportStack .defaults Unit).transport
        ⟨openRadios, .processInboundPacket packet⟩ := keepsOrder_of_low (by decide)
    exact hkeeps packet rfl
  have hnone : (create 2 4 : TransportStack .defaults Unit)
    = Observed.run step _ [] := rfl
  apply borrowed_view_intact hnone
  · exact ⟨fun packet _ => hlow packet, trivial⟩
  · rfl
  · refine ⟨trivial, trivial, trivial, ?_, ?_, trivial, trivial⟩
    · show 1 < _
      decide
    · nofun
  · decide
  · decide
  · exact Or.inl ⟨2 ^ 27, by decide⟩

/-- With one message more than that, the view shows another message. -/
example : ((Observed.run step
    ((create 2 4 : TransportStack .defaults Unit).receive single)
    (meanwhile
      ++ [.packet (firstOfTwo 3), .packet (firstOfTwo 4)])).transport.reassemblies
      0).messageId = 4 := by decide

end TransportStack

end EspressioRadio
