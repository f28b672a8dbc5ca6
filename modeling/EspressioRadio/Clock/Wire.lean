/-
The clock synchronizer's two frames: a request of 25 bytes and a
response of 32 (`RadioClockSynchronizer`'s constants, codecs and
`DecodeHeader`).

Both start with the same eight bytes: magic, version, message type,
sequence number. A request goes on with the client's T1 and its address,
padded to eight bytes; a response with the echoed T1, and with T2 and
T3.
-/
import EspressioRadio.Lib.LittleEndian
import EspressioRadio.Transport.Wire

namespace EspressioRadio

namespace RadioClockSynchronizer

def wireMagic : UInt16 := 0x5953
def wireVersion : UInt8 := 1
def headerBytes : Nat := 8
def requestTimestampOffset : Nat := headerBytes
def requestAddressLengthOffset : Nat := 16
def requestAddressOffset : Nat := 17
def requestBytes : Nat := requestAddressOffset + maximumRadioAddressBytes
def responseBytes : Nat := 32

inductive MessageType where
  | request
  | response
  deriving DecidableEq, Repr

/-- The enumerator's value on the wire, the byte after magic and version. -/
def MessageType.byte : MessageType → UInt8
  | .request => 1
  | .response => 2

-- ============================================================= codecs

def readU32 (data : List UInt8) (i : Nat) : UInt32 :=
  UInt32.ofNat (LittleEndian.read data i 4)

def readU64 (data : List UInt8) (i : Nat) : UInt64 :=
  UInt64.ofNat (LittleEndian.read data i 8)

def writeU32 (value : UInt32) : List UInt8 := LittleEndian.write 4 value.toNat

def writeU64 (value : UInt64) : List UInt8 := LittleEndian.write 8 value.toNat

/-- The first eight bytes of either frame: magic, version, type and number. -/
def encodeHeader (type : MessageType) (sequence : UInt32) : List UInt8 :=
  writeU16 wireMagic ++ [wireVersion, type.byte] ++ writeU32 sequence

/-- The frame `RequestSynchronization` builds: T1 and the client's address
after the header, padded to the longest address there is. -/
def encodeRequest (sequence : UInt32) (t1 : UInt64) (localAddress : RadioAddress) :
    List UInt8 :=
  encodeHeader .request sequence ++ writeU64 t1 ++ [localAddress.length]
    ++ localAddress.octets
    ++ List.replicate (maximumRadioAddressBytes - localAddress.octets.length) 0

/-- The frame `ProcessRequest` builds: T1 echoed, T2 and T3 after the
header. -/
def encodeResponse (sequence : UInt32) (t1 t2 t3 : UInt64) : List UInt8 :=
  encodeHeader .response sequence ++ writeU64 t1 ++ writeU64 t2 ++ writeU64 t3

/-- Message type and sequence number, if the frame has both; a sequence
number is never zero. -/
def decodeHeader (payload : List UInt8) : Option (MessageType × UInt32) :=
  if payload.length < headerBytes then none
  else if readU16 payload 0 ≠ wireMagic ∨ byteAt payload 2 ≠ wireVersion then none
  else
    let type? : Option MessageType :=
      if byteAt payload 3 = MessageType.request.byte then some .request
      else if byteAt payload 3 = MessageType.response.byte then some .response
      else none
    match type? with
    | none => none
    | some type =>
        let sequence := readU32 payload 4
        if sequence ≠ 0 then some (type, sequence) else none

/-- The address inside a request; the empty address if its length is out
of range. -/
def decodeRequestAddress (payload : List UInt8) : RadioAddress :=
  let length := byteAt payload requestAddressLengthOffset
  if length = 0 ∨ length.toNat > maximumRadioAddressBytes then {}
  else RadioAddress.fromBytes (payload.drop requestAddressOffset) length

end RadioClockSynchronizer

end EspressioRadio
