/-
The link-layer vocabulary every part of the repository shares
(`ESPressio_RadioTypes.hpp`): node ids and addresses, capability flags,
send results. Machine integers keep their width.

`RadioAddress` carries its eight bytes whole, as the source does; the
bytes past `length` are storage, and the source's `operator==` is
`RadioAddress.same`, which does not read them.
-/
import Mathlib.Data.List.Basic

namespace EspressioRadio

abbrev RadioNodeId := UInt16
abbrev RadioChannel := UInt8
abbrev RadioMessageId := UInt16

def broadcastNode : RadioNodeId := 0xFFFF
def maximumRadioAddressBytes : Nat := 8

-- =========================================================== addresses

/-- Opaque link-layer address understood only by a concrete radio
provider. -/
structure RadioAddress where
  bytes : Vector UInt8 8 := Vector.replicate 8 0
  length : UInt8 := 0
  deriving DecidableEq

namespace RadioAddress

def isValid (a : RadioAddress) : Bool :=
  0 < a.length && a.length.toNat ≤ maximumRadioAddressBytes

/-- The bytes in use: the first `length` of the array. -/
def octets (a : RadioAddress) : List UInt8 := a.bytes.toList.take a.length.toNat

def isBroadcast (a : RadioAddress) : Bool :=
  a.isValid && a.octets.all (· == 0xFF)

/-- `RadioAddress::FromBytes`; the empty address when the length is out
of range. -/
def fromBytes (bytes : List UInt8) (length : UInt8) : RadioAddress :=
  if length = 0 || length.toNat > maximumRadioAddressBytes then {}
  else
    { bytes := Vector.ofFn fun i =>
        if i.val < length.toNat then bytes.getD i.val 0 else 0
      length := length }

/-- `RadioAddress::Broadcast`: as many bytes of ones as asked for; the empty
address when the length is out of range. -/
def broadcast (length : UInt8) : RadioAddress :=
  if length = 0 || length.toNat > maximumRadioAddressBytes then {}
  else
    { bytes := Vector.ofFn fun i => if i.val < length.toNat then 0xFF else 0
      length := length }

/-- `operator==`: equal lengths and equal bytes up to them. -/
def same (a b : RadioAddress) : Bool := a.length == b.length && a.octets == b.octets

@[simp] theorem same_iff {a b : RadioAddress} :
    a.same b = true ↔ a.length = b.length ∧ a.octets = b.octets := by
  simp [same]

theorem same_symm {a b : RadioAddress} (h : a.same b = true) : b.same a = true := by
  rw [same_iff] at h ⊢
  exact ⟨h.1.symm, h.2.symm⟩

theorem same_trans {a b c : RadioAddress} (hab : a.same b = true)
    (hbc : b.same c = true) : a.same c = true := by
  rw [same_iff] at hab hbc ⊢
  exact ⟨hab.1.trans hbc.1, hab.2.trans hbc.2⟩

end RadioAddress

-- ======================================================== capabilities

inductive RadioCapability where
  | none
  | broadcast
  | linkAcknowledgement
  | linkRetries
  | rssi
  | channelSelection
  | dataRateSelection
  | transmitPower
  | hardwareAddressing
  | receiveTimestamp
  | transmitTimestamp
  | carrierSense
  | linkEncryption
  deriving DecidableEq, Repr

/-- The flag's value in the `uint32_t` the source stores it in. -/
def RadioCapability.bits : RadioCapability → UInt32
  | .none => 0
  | .broadcast => (1 : UInt32) <<< 0
  | .linkAcknowledgement => (1 : UInt32) <<< 1
  | .linkRetries => (1 : UInt32) <<< 2
  | .rssi => (1 : UInt32) <<< 3
  | .channelSelection => (1 : UInt32) <<< 4
  | .dataRateSelection => (1 : UInt32) <<< 5
  | .transmitPower => (1 : UInt32) <<< 6
  | .hardwareAddressing => (1 : UInt32) <<< 7
  | .receiveTimestamp => (1 : UInt32) <<< 8
  | .transmitTimestamp => (1 : UInt32) <<< 9
  | .carrierSense => (1 : UInt32) <<< 10
  | .linkEncryption => (1 : UInt32) <<< 11

/-- Optional facilities of one concrete radio provider. -/
structure RadioCapabilities where
  flags : UInt32 := 0
  maximumPayloadBytes : UInt16 := 0
  addressBytes : UInt8 := 0
  deriving DecidableEq, Repr

def RadioCapabilities.has (c : RadioCapabilities) (capability : RadioCapability) :
    Bool :=
  c.flags &&& capability.bits == capability.bits

-- ======================================================== send results

inductive RadioSendStatus where
  | accepted
  | notStarted
  | invalidAddress
  | payloadTooLarge
  | busy
  | noMemory
  | unsupported
  | nativeFailure
  deriving DecidableEq, Repr

structure RadioSendResult where
  status : RadioSendStatus := .nativeFailure
  nativeError : Int32 := 0
  deriving DecidableEq, Repr

namespace RadioSendResult

/-- The result as a condition, the source's `explicit operator bool`: it was
accepted. -/
def ok (r : RadioSendResult) : Bool := r.status == .accepted

def accepted : RadioSendResult := { status := .accepted, nativeError := 0 }

end RadioSendResult

end EspressioRadio
