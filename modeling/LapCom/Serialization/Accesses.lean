import LapCom.Serialization.Binary
import LapCom.Machine.Traced

set_option autoImplicit false

namespace LapCom.Serialization
open LapCom.Bytes LapCom.Machine

/-- The variable that a call deserializes into. -/
def Ty.Target : Ty → Type
  | .bool => Bool
  | .int8 => Int8
  | .int16 => Int16
  | .int32 => Int32
  | .int64 => Int64
  | .uint8 => UInt8
  | .uint16 => UInt16
  | .uint32 => UInt32
  | .uint64 => UInt64
  | .float => BitVec 32
  | .double => BitVec 64
  | .string => List Byte
  | .bytes room _ => Vector Byte room

namespace Accesses

/-- What the deserializer does to memory: a byte of `m_data` is read, a byte of a destination span
of `room` bytes is written, two sizes are added. -/
inductive Access where
  | load (index : BitVec 64)
  | store (index room : Nat)
  | add (a b : BitVec 64)

/-- The position is a `size_t`, whose sums wrap. -/
structure BinaryDeserializer where
  data : List Byte
  byteOrder : ByteOrder
  position : BitVec 64

abbrev Step := Traced BinaryDeserializer Access

def sum (size : BitVec 64) : Step (BitVec 64) :=
  fun d => (d.position+size,d,[.add d.position size])

def readByte : Step Byte := fun d =>
  (d.data.getD d.position.toNat 0,{ d with position := d.position+1 },
    [.add d.position 1,.load d.position])

@[simp] theorem run_sum (size : BitVec 64) (d : BinaryDeserializer) :
    (sum size).run d = (d.position+size,d,[.add d.position size]) := rfl

@[simp] theorem run_readByte (d : BinaryDeserializer) : readByte.run d =
    (d.data.getD d.position.toNat 0,{ d with position := d.position+1 },
      [.add d.position 1,.load d.position]) := rfl

def deserializeByte {T : Type} (convert : Byte → T) (value : T) : Step (Result Unit × T) := do
  let d ← Traced.state
  if d.data.length ≤ d.position.toNat then return (fail .kInvalidArgument 0,value)
  else
    let b ← readByte
    return (.ok (),convert b)

def readPlaces {w : Nat} : List Nat → BitVec w → Step (BitVec w)
  | [], value => return value
  | p :: ps, value => do
    let b ← readByte
    readPlaces ps (value ||| place w b p)

def deserializeInteger (size : Nat) (value : BitVec (8*size)) :
    Step (Result Unit × BitVec (8*size)) := do
  let d ← Traced.state
  let last ← sum (BitVec.ofNat 64 size)
  if d.data.length < last.toNat then return (fail .kInvalidArgument 0,value)
  else
    let value ← readPlaces (d.byteOrder.places size) 0
    return (.ok (),value)

/-- `Int16`, `Int32` and `Int64`: the local variable is assigned to the target whatever the result
is. It holds `uninit` until a value is read into it. -/
def deserializeSigned {T : Type} (size : Nat) (convert : BitVec (8*size) → T)
    (uninit : BitVec (8*size)) : Step (Result Unit × T) := do
  let (result,uintValue) ← deserializeInteger size uninit
  return (result,convert uintValue)

def deserializeFloating (size : Nat) (uninit value : BitVec (8*size)) :
    Step (Result Unit × BitVec (8*size)) := do
  let (result,intValue) ← deserializeInteger size uninit
  return (result,if Result.hasValue result then intValue else value)

def readChars : Nat → List Byte → Step (List Byte)
  | 0, value => return value
  | n+1, value => do
    let b ← readByte
    readChars n (value ++ [b])

def deserializeString (uninit : BitVec 32) (value : List Byte) :
    Step (Result Unit × List Byte) := do
  let (lengthResult,length) ← deserializeInteger 4 uninit
  if Result.hasValue lengthResult then
    let d ← Traced.state
    let last ← sum (length.setWidth 64)
    if d.data.length < last.toNat then return (fail .kInvalidArgument 0,value)
    else
      let value ← readChars length.toNat []
      return (.ok (),value)
  else return (lengthResult,value)

def readInto {room : Nat} : Nat → Nat → Vector Byte room → Step (Vector Byte room)
  | _, 0, data => return data
  | i, n+1, data => do
    let b ← readByte
    Traced.record (.store i room)
    readInto (i+1) n (data.setIfInBounds i b)

def deserializeBytes {room : Nat} (length : BitVec 32) (data : Vector Byte room) :
    Step (Result Unit × Vector Byte room) := do
  let d ← Traced.state
  let last ← sum (length.setWidth 64)
  if d.data.length < last.toNat ∨ room < length.toNat then
    return (fail .kInvalidArgument 0,data)
  else
    let data ← readInto 0 length.toNat data
    return (.ok (),data)

/-- One overload for each type; `uninit` is what an uninitialised local variable holds. -/
def deserialize (uninit : BitVec 64) : (ty : Ty) → ty.Target → Step (Result Unit × ty.Target)
  | .bool, value => deserializeByte (fun b => decide (b ≠ 0)) value
  | .int8, value => deserializeByte (fun b => (UInt8.ofBitVec b).toInt8) value
  | .int16, _ =>
    deserializeSigned 2 (fun x => (UInt16.ofBitVec x).toInt16) (uninit.setWidth 16)
  | .int32, _ =>
    deserializeSigned 4 (fun x => (UInt32.ofBitVec x).toInt32) (uninit.setWidth 32)
  | .int64, _ => deserializeSigned 8 (fun x => (UInt64.ofBitVec x).toInt64) uninit
  | .uint8, value => deserializeByte (fun b => UInt8.ofBitVec b) value
  | .uint16, value => do
    let (result,value) ← deserializeInteger 2 value.toBitVec
    return (result,UInt16.ofBitVec value)
  | .uint32, value => do
    let (result,value) ← deserializeInteger 4 value.toBitVec
    return (result,UInt32.ofBitVec value)
  | .uint64, value => do
    let (result,value) ← deserializeInteger 8 value.toBitVec
    return (result,UInt64.ofBitVec value)
  | .float, value => deserializeFloating 4 (uninit.setWidth 32) value
  | .double, value => deserializeFloating 8 uninit value
  | .string, value => deserializeString (uninit.setWidth 32) value
  | .bytes _ length, data => deserializeBytes length data

end Accesses

end LapCom.Serialization
