import OtaMqtt.Bytes.FlatBuffer

/-! The numeric codec of `ByteArray` (sherry/bytearray.cc, endian.h).

Integers are bit vectors; a signed type is read in two's complement and its arithmetic
wraps. The host is little-endian, as `SYLAR_BYTE_ORDER` says, and `m_endian` is a parameter
of every function that looks at it. -/

namespace OtaMqtt.Bytes.Codec

open OtaMqtt.Lib.Execution OtaMqtt.Lib.Refinement
open OtaMqtt.Bytes OtaMqtt.Bytes.FlatBuffer

inductive Endian where
  | little
  | big
  deriving DecidableEq

/-- The object representation of an integer of `count` bytes. -/
def image (count : Nat) (value : BitVec (8 * count)) : List UInt8 :=
  (List.range count).map fun index => UInt8.ofNat (value.toNat / 256 ^ index)

def number : List UInt8 → Nat
  | [] => 0
  | byte :: bytes => byte.toNat + 256 * number bytes

def ofImage (count : Nat) (bytes : List UInt8) : BitVec (8 * count) :=
  BitVec.ofNat (8 * count) (number bytes)

/-- `bswap_16`, `bswap_32` and `bswap_64`. -/
def byteswap (count : Nat) (value : BitVec (8 * count)) : BitVec (8 * count) :=
  ofImage count (image count value).reverse

/-- The swap that the writers make before and the readers after the transfer. -/
def ordered (endian : Endian) (count : Nat) (value : BitVec (8 * count)) : BitVec (8 * count) :=
  if endian = .little then value else byteswap count value

/-- The bytes that a reader has copied into its variable. -/
def initialised : List Cell → Run (List UInt8)
  | [] => .ok []
  | none :: _ => .error .uninitialised
  | some byte :: cells => do
      let bytes ← initialised cells
      .ok (byte :: bytes)

def writeFixed (endian : Endian) (count : Nat) (array : ByteArray) (value : BitVec (8 * count)) :
    Run ByteArray :=
  array.write (image count (ordered endian count value))

def readFixed (endian : Endian) (count : Nat) (array : ByteArray) :
    Run (BitVec (8 * count) × ByteArray) := do
  let (cells, array) ← array.read count
  let bytes ← initialised cells
  .ok (ordered endian count (ofImage count bytes), array)

def writeFint8 (array : ByteArray) (value : BitVec 8) : Run ByteArray := array.write (image 1 value)

def writeFuint8 (array : ByteArray) (value : BitVec 8) : Run ByteArray := array.write (image 1 value)

def writeFint16 (endian : Endian) (array : ByteArray) (value : BitVec 16) : Run ByteArray :=
  writeFixed endian 2 array value

def writeFuint16 (endian : Endian) (array : ByteArray) (value : BitVec 16) : Run ByteArray :=
  writeFixed endian 2 array value

def writeFint32 (endian : Endian) (array : ByteArray) (value : BitVec 32) : Run ByteArray :=
  writeFixed endian 4 array value

def writeFuint32 (endian : Endian) (array : ByteArray) (value : BitVec 32) : Run ByteArray :=
  writeFixed endian 4 array value

def writeFint64 (endian : Endian) (array : ByteArray) (value : BitVec 64) : Run ByteArray :=
  writeFixed endian 8 array value

def writeFuint64 (endian : Endian) (array : ByteArray) (value : BitVec 64) : Run ByteArray :=
  writeFixed endian 8 array value

def readFint8 (array : ByteArray) : Run (BitVec 8 × ByteArray) := readFixed .little 1 array

def readFuint8 (array : ByteArray) : Run (BitVec 8 × ByteArray) := readFixed .little 1 array

def readFint16 (endian : Endian) (array : ByteArray) : Run (BitVec 16 × ByteArray) :=
  readFixed endian 2 array

def readFuint16 (endian : Endian) (array : ByteArray) : Run (BitVec 16 × ByteArray) :=
  readFixed endian 2 array

def readFint32 (endian : Endian) (array : ByteArray) : Run (BitVec 32 × ByteArray) :=
  readFixed endian 4 array

def readFuint32 (endian : Endian) (array : ByteArray) : Run (BitVec 32 × ByteArray) :=
  readFixed endian 4 array

def readFint64 (endian : Endian) (array : ByteArray) : Run (BitVec 64 × ByteArray) :=
  readFixed endian 8 array

def readFuint64 (endian : Endian) (array : ByteArray) : Run (BitVec 64 × ByteArray) :=
  readFixed endian 8 array

section
variable {w : Nat}

def encodeZigzag (value : BitVec w) : BitVec w :=
  if value.slt 0 then -value * 2 - 1 else value * 2

def decodeZigzag (value : BitVec w) : BitVec w := (value >>> 1) ^^^ -(value &&& 1)

/-- `tmp[i++] = byte` in a scratch array of `limit` bytes. -/
def push (limit : Nat) (tmp : List UInt8) (byte : BitVec 8) : Run (List UInt8) :=
  if tmp.length < limit then .ok (tmp ++ [UInt8.ofBitVec byte]) else .error .outOfBounds

/-- The loop of the varint writers. -/
def encodeGroups (limit : Nat) : Nat → BitVec w → List UInt8 → Run (List UInt8)
  | 0, _, _ => .error .outOfFuel
  | fuel + 1, value, tmp =>
      if 128 ≤ value.toNat then do
        let tmp ← push limit tmp (((value &&& 0x7F) ||| 0x80).setWidth 8)
        encodeGroups limit fuel (value >>> 7) tmp
      else push limit tmp (value.setWidth 8)

/-- The loop of the varint readers. -/
def decodeGroups (w : Nat) : Nat → Nat → BitVec w → ByteArray → Run (BitVec w × ByteArray)
  | 0, _, _, _ => .error .outOfFuel
  | fuel + 1, shift, result, array =>
      if shift < w then do
        let (byte, array) ← readFuint8 array
        if byte.toNat < 128 then .ok (result ||| byte.setWidth w <<< shift, array)
        else decodeGroups w fuel (shift + 7) (result ||| (byte &&& 0x7F).setWidth w <<< shift) array
      else .ok (result, array)

end

def encodeZigzag32 (value : BitVec 32) : BitVec 32 := encodeZigzag value

def encodeZigzag64 (value : BitVec 64) : BitVec 64 := encodeZigzag value

def decodeZigzag32 (value : BitVec 32) : BitVec 32 := decodeZigzag value

def decodeZigzag64 (value : BitVec 64) : BitVec 64 := decodeZigzag value

def writeUint32 (array : ByteArray) (value : BitVec 32) : Run ByteArray := do
  let tmp ← encodeGroups 5 33 value []
  array.write tmp

def writeUint64 (array : ByteArray) (value : BitVec 64) : Run ByteArray := do
  let tmp ← encodeGroups 10 65 value []
  array.write tmp

def writeInt32 (array : ByteArray) (value : BitVec 32) : Run ByteArray :=
  writeUint32 array (encodeZigzag32 value)

def writeInt64 (array : ByteArray) (value : BitVec 64) : Run ByteArray :=
  writeUint64 array (encodeZigzag64 value)

def readUint32 (array : ByteArray) : Run (BitVec 32 × ByteArray) := decodeGroups 32 33 0 0 array

def readUint64 (array : ByteArray) : Run (BitVec 64 × ByteArray) := decodeGroups 64 65 0 0 array

def readInt32 (array : ByteArray) : Run (BitVec 32 × ByteArray) := do
  let (value, array) ← readUint32 array
  .ok (decodeZigzag32 value, array)

def readInt64 (array : ByteArray) : Run (BitVec 64 × ByteArray) := do
  let (value, array) ← readUint64 array
  .ok (decodeZigzag64 value, array)

inductive Value where
  | fint8 (value : BitVec 8)
  | fuint8 (value : BitVec 8)
  | fint16 (value : BitVec 16)
  | fuint16 (value : BitVec 16)
  | fint32 (value : BitVec 32)
  | fuint32 (value : BitVec 32)
  | fint64 (value : BitVec 64)
  | fuint64 (value : BitVec 64)
  | int32 (value : BitVec 32)
  | uint32 (value : BitVec 32)
  | int64 (value : BitVec 64)
  | uint64 (value : BitVec 64)
  deriving DecidableEq

inductive Kind where
  | fint8
  | fuint8
  | fint16
  | fuint16
  | fint32
  | fuint32
  | fint64
  | fuint64
  | int32
  | uint32
  | int64
  | uint64
  deriving DecidableEq

def Value.kind : Value → Kind
  | .fint8 _ => .fint8
  | .fuint8 _ => .fuint8
  | .fint16 _ => .fint16
  | .fuint16 _ => .fuint16
  | .fint32 _ => .fint32
  | .fuint32 _ => .fuint32
  | .fint64 _ => .fint64
  | .fuint64 _ => .fuint64
  | .int32 _ => .int32
  | .uint32 _ => .uint32
  | .int64 _ => .int64
  | .uint64 _ => .uint64

def writeValue (endian : Endian) (array : ByteArray) : Value → Run ByteArray
  | .fint8 value => writeFint8 array value
  | .fuint8 value => writeFuint8 array value
  | .fint16 value => writeFint16 endian array value
  | .fuint16 value => writeFuint16 endian array value
  | .fint32 value => writeFint32 endian array value
  | .fuint32 value => writeFuint32 endian array value
  | .fint64 value => writeFint64 endian array value
  | .fuint64 value => writeFuint64 endian array value
  | .int32 value => writeInt32 array value
  | .uint32 value => writeUint32 array value
  | .int64 value => writeInt64 array value
  | .uint64 value => writeUint64 array value

def tagged {w : Nat} (tag : BitVec w → Value) (outcome : Run (BitVec w × ByteArray)) :
    Run (Value × ByteArray) := do
  let (value, array) ← outcome
  .ok (tag value, array)

def readValue (endian : Endian) (array : ByteArray) : Kind → Run (Value × ByteArray)
  | .fint8 => tagged .fint8 (readFint8 array)
  | .fuint8 => tagged .fuint8 (readFuint8 array)
  | .fint16 => tagged .fint16 (readFint16 endian array)
  | .fuint16 => tagged .fuint16 (readFuint16 endian array)
  | .fint32 => tagged .fint32 (readFint32 endian array)
  | .fuint32 => tagged .fuint32 (readFuint32 endian array)
  | .fint64 => tagged .fint64 (readFint64 endian array)
  | .fuint64 => tagged .fuint64 (readFuint64 endian array)
  | .int32 => tagged .int32 (readInt32 array)
  | .uint32 => tagged .uint32 (readUint32 array)
  | .int64 => tagged .int64 (readInt64 array)
  | .uint64 => tagged .uint64 (readUint64 array)

def writeStep (endian : Endian) (array : ByteArray) (value : Value) : Run (Nat × ByteArray) := do
  let array ← writeValue endian array value
  .ok (array.getPosition, array)

def readStep (endian : Endian) (array : ByteArray) (kind : Kind) :
    Run ((Value × Nat) × ByteArray) := do
  let (value, array) ← readValue endian array kind
  .ok ((value, array.getPosition), array)

end OtaMqtt.Bytes.Codec
