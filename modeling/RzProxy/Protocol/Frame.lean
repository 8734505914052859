import RzProxy.Library.LittleEndian
import RzProxy.Library.Utf8

/-!
# Frames on the wire

The frames the proxy writes to the backend, and the reading of reply frames from a socket. A shard
frame is `magic(1) clrid(4) totalLen(4) payload`; in router mode it is wrapped as
`routerMagic(1) totalLen(4) segmentLen(1) segment(n) isWrite(1) shardFrame`. Arithmetic on `u32`
wraps, as in the release profile.

## Main definitions

* `prependHeader`, `prependRouterHeader`, `buildKeepaliveFrame`: the frames that are sent
* `drainFrameAsync`: one reply frame, read into a buffer that keeps what is left over
-/

namespace RzProxy

open ByteString

/-! ## Integers on the wire -/

/-- `u16::to_le_bytes`. -/
def le16 (n : UInt16) : Bytes := toLE 2 n.toNat

/-- `u32::to_le_bytes`. -/
def le32 (n : UInt32) : Bytes := toLE 4 n.toNat

/-- `u64::to_le_bytes`. -/
def le64 (n : UInt64) : Bytes := toLE 8 n.toNat

/-- `u16::from_le_bytes`. -/
def u16FromLE (bs : Bytes) : UInt16 := UInt16.ofNat (ofLE bs)

/-- `u32::from_le_bytes`. -/
def u32FromLE (bs : Bytes) : UInt32 := UInt32.ofNat (ofLE bs)

@[simp] theorem length_le16 (n : UInt16) : (le16 n).length = 2 := length_toLE _ _

@[simp] theorem length_le32 (n : UInt32) : (le32 n).length = 4 := length_toLE _ _

@[simp] theorem length_le64 (n : UInt64) : (le64 n).length = 8 := length_toLE _ _

@[simp] theorem u16FromLE_le16 (n : UInt16) : u16FromLE (le16 n) = n := by
  rw [u16FromLE, le16, ofLE_toLE_of_lt (n.toNat_lt), UInt16.ofNat_toNat]

@[simp] theorem u32FromLE_le32 (n : UInt32) : u32FromLE (le32 n) = n := by
  rw [u32FromLE, le32, ofLE_toLE_of_lt (n.toNat_lt), UInt32.ofNat_toNat]

theorem le16_u16FromLE {bs : Bytes} (h : bs.length = 2) : le16 (u16FromLE bs) = bs := by
  have hlt : ofLE bs < 2 ^ 16 := (ofLE_lt bs).trans_eq (by rw [h]; rfl)
  rw [le16, u16FromLE, UInt16.toNat_ofNat', Nat.mod_eq_of_lt hlt, ← h, toLE_ofLE]

theorem le32_u32FromLE {bs : Bytes} (h : bs.length = 4) : le32 (u32FromLE bs) = bs := by
  have hlt : ofLE bs < 2 ^ 32 := (ofLE_lt bs).trans_eq (by rw [h]; rfl)
  rw [le32, u32FromLE, UInt32.toNat_ofNat', Nat.mod_eq_of_lt hlt, ← h, toLE_ofLE]

/-! ## Frames that are sent -/

def shardMagic : UInt8 := 0xFF

def routerMagic : UInt8 := 0xFE

/-- The control segment of application-level keepalives. -/
def keepaliveSegment : String := "__keepalive__"

def buildKeepaliveFrame : Bytes :=
  let segment := utf8 keepaliveSegment
  let segLen := UInt8.ofNat segment.length
  let totalLen := 1 + segment.length + 1 + 9
  routerMagic :: (le32 (UInt32.ofNat totalLen) ++ segLen :: (segment ++
    0x00 :: shardMagic :: (le32 0 ++ le32 0)))

def prependHeader (clrid : UInt32) (payload : Bytes) : Bytes :=
  let totalLen := UInt32.ofNat payload.length
  0xFF :: (le32 clrid ++ (le32 totalLen ++ payload))

def prependRouterHeader (segment : String) (isWrite : Bool) (clrid : UInt32)
    (payload : Bytes) : Bytes :=
  let shardTotalLen := UInt32.ofNat payload.length
  let shardFrameLen := 9 + shardTotalLen
  let segmentLen := UInt32.ofNat (utf8 segment).length
  let routerHeaderLen := 1 + segmentLen + 1
  -- `segment_len as u8` keeps the low byte
  routerMagic :: (le32 (routerHeaderLen + shardFrameLen) ++ segmentLen.toUInt8 ::
    (utf8 segment ++ (if isWrite then 0x01 else 0x00) ::
      shardMagic :: (le32 clrid ++ (le32 shardTotalLen ++ payload))))

/-! ## Frames that are received -/

/-- The errors that reading a frame can give. -/
inductive ProtocolError
  | shortFrame
  | missingMagic (b : UInt8)
  | shortPayload (what : String)
  deriving DecidableEq

/-- The decoded fixed part of a frame. -/
structure Header where
  clrId : UInt32
  statusLen : UInt8
  fieldCnt : UInt16
  deriving DecidableEq

/-- What the successive reads of a socket return: an error, or the bytes read, none of them at the
end of the stream. A reader that has run out is at the end of its stream. -/
abbrev Reader := List (Except Unit Bytes)

/-- `while buf.len() < n { reader.read_buf(buf) }`, which ends early on an error or on a read of
nothing. -/
def fill (n : ℕ) : Reader → Bytes → Except ProtocolError Unit × Reader × Bytes
  | [], buf => (if buf.length < n then .error .shortFrame else .ok (), [], buf)
  | .error e :: reader, buf =>
    if buf.length < n then (.error .shortFrame, reader, buf) else (.ok (), .error e :: reader, buf)
  | .ok chunk :: reader, buf =>
    if buf.length < n then
      if chunk = [] then (.error .shortFrame, reader, buf) else fill n reader (buf ++ chunk)
    else (.ok (), .ok chunk :: reader, buf)

/-- The part of `drain_frame_async` that looks at the payload. -/
def frameHeader (clrId : UInt32) (payload : Bytes) : Except ProtocolError Header :=
  match payload with
  | [] => .error (.shortPayload "empty payload")
  | b :: _ =>
    let statusLen := b.toNat
    if payload.length < 1 + statusLen + 2 then .error (.shortPayload "missing field count")
    else
      .ok { clrId := clrId
            statusLen := b
            fieldCnt := u16FromLE ((payload.drop (1 + statusLen)).take 2) }

def drainFrameAsync (reader : Reader) (buf : Bytes) :
    Except ProtocolError (Header × Bytes) × Reader × Bytes :=
  match fill 9 reader buf with
  | (.error e, reader, buf) => (.error e, reader, buf)
  | (.ok (), reader, buf) =>
    let headerBytes := buf.take 9
    if headerBytes.getD 0 0 ≠ 0xFF then
      (.error (.missingMagic (headerBytes.getD 0 0)), reader, buf)
    else
      let clrId := u32FromLE ((headerBytes.drop 1).take 4)
      let payloadLen := (u32FromLE ((headerBytes.drop 5).take 4)).toNat
      match fill (9 + payloadLen) reader buf with
      | (.error e, reader, buf) => (.error e, reader, buf)
      | (.ok (), reader, buf) =>
        let payload := (buf.drop 9).take payloadLen
        let buf := buf.drop (9 + payloadLen)
        match frameHeader clrId payload with
        | .error e => (.error e, reader, buf)
        | .ok hdr => (.ok (hdr, payload), reader, buf)

end RzProxy
