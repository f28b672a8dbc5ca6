/-
What the inbound tables are for.

An `Inbox` has neither slots, stamps nor a cursor. It is the messages
underway, each the fragments taken in so far (`Parcel`), the one heard
of last in front, and the identities of the messages handled last. A
fragment of a message handled lately is dropped; any other joins its
message, which comes to the front; a complete message leaves and is
noted as handled. What there is no room for is forgotten from the far
end, of both.

`Ideal` is the transport over such an inbox. Its calls show what the
transport's calls show (`Proofs.Inbox`).
-/
import EspressioRadio.Lib.LruCache
import EspressioRadio.Proofs.Provenance
import EspressioRadio.Proofs.Refusal

namespace EspressioRadio

open Chunks

variable {b : Bounds} {ρ : Type}

-- ============================================================= parcels

/-- A message underway: the fragment that opened it and those taken in
since, in order. -/
structure Parcel where
  first : TakenFragment
  more : List TakenFragment := []
  deriving DecidableEq

namespace Parcel

variable (p : Parcel)

def taken : List TakenFragment := p.first :: p.more

def identity : MessageIdentity := p.first.header.identity

/-- The fragment is of the same cut as the one that opened the parcel: as
many fragments, of as many bytes each. -/
def fits (h : WireHeader) : Prop :=
  p.first.header.fragmentCount = h.fragmentCount
    ∧ p.first.header.chunkBytes = h.chunkBytes

instance (h : WireHeader) : Decidable (p.fits h) := inferInstanceAs (Decidable (_ ∧ _))

def add (f : TakenFragment) : Parcel := { p with more := p.more ++ [f] }

/-- A fragment of every index below the announced count is in, however many
times and in whatever order they came. -/
def isComplete : Bool :=
  (List.range p.first.header.fragmentCount.toNat).all fun i =>
    p.taken.any (·.index == i)

/-- What the fragments spell out: the first fragment taken in of each index,
padded to the chunk size, glued, and cut off at the size announced. -/
def payload : List UInt8 :=
  (padded 0 (TakenFragment.chunkSize p.taken) (TakenFragment.firstBodies p.taken)).take
    (TakenFragment.announcedSize p.taken)

/-- The message as its receiver sees it, with the payload its fragments
spell out by now. -/
def view : RadioTransportMessageView where
  sourceNode := p.identity.source
  destinationNode := p.identity.destination
  channel := p.identity.channel
  messageId := p.identity.messageId
  payload := p.payload

/-- The message as it is passed on, with the hops its first fragment had
left, less one; those of later fragments do not count. -/
def forwarded : Outbound where
  source := p.identity.source
  destination := p.identity.destination
  channel := p.identity.channel
  messageId := p.identity.messageId
  hopLimit := p.first.header.hopLimit - 1
  payload := p.payload

@[simp] theorem taken_add (f : TakenFragment) : (p.add f).taken = p.taken ++ [f] := rfl

end Parcel

-- =============================================================== inbox

/-- The messages underway, the one heard of last in front, and the
identities of those handled, the last one in front. No message is underway
twice, and neither list outgrows the bounds of the build. -/
structure Inbox (b : Bounds) where
  underway : List Parcel := []
  handled : List MessageIdentity := []
  keyed : LruCache.Keyed Parcel.identity underway := by exact LruCache.keyed_nil
  underway_le : underway.length ≤ b.maxReassemblies := by simp
  handled_le : handled.length ≤ b.maxRecentMessages := by simp

namespace Inbox

variable (I : Inbox b)

/-- The parcel of this message, if it is underway. -/
def find? (id : MessageIdentity) : Option Parcel :=
  LruCache.find? Parcel.identity I.underway id

/-- The inbox after a `Stop`: nothing is underway any more, but what was
handled stays known. -/
def clear : Inbox b := { handled := I.handled, handled_le := I.handled_le }

/-- The inbox with this message no longer underway, completed or given up. -/
def close (id : MessageIdentity) : Inbox b where
  underway := LruCache.without Parcel.identity I.underway id
  handled := I.handled
  keyed := I.keyed.sublist LruCache.without_sublist
  underway_le := Nat.le_trans LruCache.without_sublist.length_le I.underway_le
  handled_le := I.handled_le

/-- The inbox with room for one more message: if it is full, the one heard
of longest ago is given up. -/
def makeRoom : Inbox b where
  underway := LruCache.room b.maxReassemblies I.underway
  handled := I.handled
  keyed := I.keyed.sublist (List.take_sublist _ _)
  underway_le := Nat.le_trans (List.take_sublist _ _).length_le I.underway_le
  handled_le := I.handled_le

/-- The inbox with this parcel in front, in place of what its message had
there before; a new message pushes out the last one of a full inbox. -/
def keep (p : Parcel) : Inbox b where
  underway := LruCache.use Parcel.identity b.maxReassemblies I.underway p
  handled := I.handled
  keyed := I.keyed.use b.maxReassemblies p
  underway_le := LruCache.length_use_le b.reassemblies_pos
  handled_le := I.handled_le

/-- The inbox with the message noted as handled, which pushes out the oldest
note of a full list. -/
def note (id : MessageIdentity) : Inbox b :=
  { I with
    handled := (id :: I.handled).take b.maxRecentMessages
    handled_le := by
      rw [List.length_take]
      exact Nat.min_le_left _ _ }

/-- A parcel that has just taken in a fragment: it is kept, or, if that
completed it, taken out, noted and handed over. -/
def accept (p : Parcel) : Inbox b × Option Parcel :=
  if p.isComplete then (((I.keep p).close p.identity).note p.identity, some p)
  else (I.keep p, none)

/-- The fragment's message is none the node at `localNode` reassembles:
without a source or a destination, or one of its own coming back. -/
def Foreign (localNode : RadioNodeId) (h : WireHeader) : Prop :=
  h.source = 0 ∨ h.source = localNode ∨ h.destination = 0

instance (localNode : RadioNodeId) (h : WireHeader) : Decidable (Foreign localNode h) :=
  inferInstanceAs (Decidable (_ ∨ _))

/-- A packet comes in at the node: what becomes of the inbox, and the
message it completes. -/
def receive (localNode : RadioNodeId) (packet : List UInt8) : Inbox b × Option Parcel :=
  match decodeHeader packet with
  | none => (I, none)
  | some h =>
      if Foreign localNode h ∨ h.identity ∈ I.handled then (I, none)
      else
        match I.find? h.identity with
        | some p =>
            if p.fits h then I.accept (p.add ⟨h, packetBody packet⟩)
            else (I.close h.identity, none)
        | none =>
            if b.maxMessageBytes < h.fragmentCount.toNat * h.chunkBytes.toNat then
              (I.makeRoom, none)
            else I.accept { first := ⟨h, packetBody packet⟩ }

/-- Everything a decodable packet can do to an inbox, with the message it
completes. -/
inductive Received (I : Inbox b) (h : WireHeader) : Inbox b × Option Parcel → Prop where
  | ignored : Received I h (I, none)
  /-- The fragment is of another geometry than its message's so far. -/
  | closed : Received I h (I.close h.identity, none)
  /-- The message is too large for the inbox, which has made room for it by
  the time it finds out. -/
  | roomed (hnew : ∀ p ∈ I.underway, p.identity ≠ h.identity) :
    Received I h (I.makeRoom, none)
  | admitted (p : Parcel) (hid : p.identity = h.identity) : Received I h (I.accept p)

/-- A decodable packet does one of these four things; later proofs go by
them and do not unfold `receive`. -/
theorem receive_received {I : Inbox b} {localNode : RadioNodeId} {packet : List UInt8}
    {h : WireHeader} (hd : decodeHeader packet = some h) :
    Received I h (I.receive localNode packet) := by
  simp only [receive, hd]
  split
  · exact .ignored
  · split
    · next p hfind =>
      have hid := ((LruCache.find?_eq_some_iff I.keyed).mp hfind).2
      split
      · exact .admitted _ hid
      · exact .closed
    · next hfind =>
      split
      · exact .roomed (LruCache.find?_eq_none_iff.mp hfind)
      · exact .admitted _ rfl

/-- A packet that does not decode leaves the inbox alone and completes
nothing. -/
theorem receive_undecodable {I : Inbox b} {localNode : RadioNodeId} {packet : List UInt8}
    (hd : decodeHeader packet = none) : I.receive localNode packet = (I, none) := by
  simp only [receive, hd]

end Inbox

-- ======================================================= the transport

/-- What becomes of a complete message: delivered here, passed on, or
dropped for want of hops. -/
def RadioTransport.deliver (t : RadioTransport b ρ) (radios : Radios ρ) (p : Parcel) :
    List (Event ρ) :=
  if p.identity.destination = t.localNode ∨ p.identity.destination = broadcastNode then
    (if t.receiver then [.receiverMessage p.view] else []) ++ [.messageReceived p.view]
  else if p.first.header.hopLimit > 0 then
    let result := t.sendFramed radios p.forwarded
    result.2.map .radioSend ++ [.messageForwarded p.view result.1]
  else []

/-- A transport whose inbound tables are an inbox, while its node has the
interfaces, routes and counters. The node's own slots and ring stay as
constructed. -/
structure Ideal (b : Bounds) (ρ : Type) where
  node : RadioTransport b ρ
  inbox : Inbox b := {}

namespace Ideal

variable [DecidableEq ρ]

/-- One public call: packets go to the inbox, `Stop` empties it, and
everything else is up to the node. -/
def perform (x : Ideal b ρ) (input : Input ρ) : Ideal b ρ × List (Event ρ) :=
  match input.call with
  | .processInboundPacket packet =>
      let received := x.inbox.receive x.node.localNode packet
      ({ x with inbox := received.1 },
        received.2.toList.flatMap (x.node.deliver input.radios))
  | .stop => ({ node := x.node.after input, inbox := x.inbox.clear },
    x.node.effects input)
  | _ => ({ x with node := x.node.after input }, x.node.effects input)

/-- The ideal transport a call leaves behind. -/
def after (x : Ideal b ρ) (input : Input ρ) : Ideal b ρ := (x.perform input).1

/-- What a call makes the ideal transport do outside, in order. -/
def effects (x : Ideal b ρ) (input : Input ρ) : List (Event ρ) := (x.perform input).2

/-- A new ideal transport, with an empty inbox, as the constructor leaves
the real one. -/
def create (localNode : RadioNodeId) (defaultHopLimit : UInt8) : Ideal b ρ where
  node := RadioTransport.create localNode defaultHopLimit

end Ideal

end EspressioRadio
