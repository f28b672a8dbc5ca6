/-
The transport's wire header: fifteen bytes at fixed offsets, in front of
every fragment's body (`RadioTransport::DecodeHeader`, `EncodeHeader`).

A packet payload is the list of its bytes. `nullptr` is the empty list:
the decoder rejects both at the same test.
-/
import EspressioRadio.Types

namespace EspressioRadio

def wireMagic0 : UInt8 := 0xE5
def wireMagic1 : UInt8 := 0x52
def wireVersion : UInt8 := 1
def wireHeaderBytes : Nat := 15

structure WireHeader where
  channel : RadioChannel := 0
  source : RadioNodeId := 0
  destination : RadioNodeId := 0
  messageId : RadioMessageId := 0
  fragmentIndex : UInt8 := 0
  fragmentCount : UInt8 := 0
  chunkBytes : UInt8 := 0
  payloadBytes : UInt8 := 0
  hopLimit : UInt8 := 0
  deriving DecidableEq, Repr

/-- `data[i]`, zero past the end; the decoder tests the size first. -/
def byteAt (data : List UInt8) (i : Nat) : UInt8 := data.getD i 0

/-- `ReadU16(data + i)`: the two bytes there, the low one first. -/
def readU16 (data : List UInt8) (i : Nat) : UInt16 :=
  (byteAt data i).toUInt16 ||| ((byteAt data (i + 1)).toUInt16 <<< 8)

/-- The two bytes `WriteU16` stores, the low one first. -/
def writeU16 (value : UInt16) : List UInt8 :=
  [(value &&& 0xFF).toUInt8, ((value >>> 8) &&& 0xFF).toUInt8]

/-- The fields at their offsets, before any check. -/
def readHeader (data : List UInt8) : WireHeader where
  channel := byteAt data 3
  source := readU16 data 4
  destination := readU16 data 6
  messageId := readU16 data 8
  fragmentIndex := byteAt data 10
  fragmentCount := byteAt data 11
  chunkBytes := byteAt data 12
  payloadBytes := byteAt data 13
  hopLimit := byteAt data 14

def decodeHeader (data : List UInt8) : Option WireHeader :=
  if data.length < wireHeaderBytes then none
  else if byteAt data 0 ≠ wireMagic0 ∨ byteAt data 1 ≠ wireMagic1
      ∨ byteAt data 2 ≠ wireVersion then none
  else
    let h := readHeader data
    if h.fragmentCount = 0 ∨ h.fragmentIndex ≥ h.fragmentCount
        ∨ h.chunkBytes = 0 then none
    else if h.payloadBytes ≤ h.chunkBytes
        ∧ wireHeaderBytes + h.payloadBytes.toNat = data.length then some h
    else none

def encodeHeader (h : WireHeader) : List UInt8 :=
  [wireMagic0, wireMagic1, wireVersion, h.channel]
    ++ writeU16 h.source ++ writeU16 h.destination ++ writeU16 h.messageId
    ++ [h.fragmentIndex, h.fragmentCount, h.chunkBytes, h.payloadBytes,
      h.hopLimit]

/-- The bytes after the header: the fragment's share of the payload. -/
def packetBody (data : List UInt8) : List UInt8 := data.drop wireHeaderBytes

end EspressioRadio
