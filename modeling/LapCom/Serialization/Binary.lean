import LapCom.ComTypes
import LapCom.Bytes.Word

set_option autoImplicit false

namespace LapCom.Serialization
open LapCom.Bytes

inductive ByteOrder where
  | kBigEndian
  | kLittleEndian
  deriving DecidableEq, Repr

def ByteOrder.places (size : Nat) : ByteOrder → List Nat
  | .kBigEndian => (List.range size).map fun i => size-1-i
  | .kLittleEndian => List.range size

theorem ByteOrder.mem_places {order : ByteOrder} {size p : Nat} :
    p ∈ order.places size ↔ p < size := by
  cases order with
  | kBigEndian =>
    simp only [places,List.mem_map,List.mem_range]
    constructor
    · rintro ⟨i,hi,rfl⟩
      omega
    · intro hp
      exact ⟨size-1-p,by omega,by omega⟩
  | kLittleEndian => exact List.mem_range

theorem ByteOrder.places_nodup (order : ByteOrder) (size : Nat) : (order.places size).Nodup := by
  cases order with
  | kBigEndian =>
    refine List.Nodup.map_on ?_ List.nodup_range
    intro i hi j hj h
    rw [List.mem_range] at hi hj
    omega
  | kLittleEndian => exact List.nodup_range

@[simp] theorem ByteOrder.places_length (order : ByteOrder) (size : Nat) :
    (order.places size).length = size := by
  cases order <;> simp [places]

/-- One argument of a `Serialize` call. `float` and `double` are bit patterns. -/
inductive Value where
  | bool : Bool → Value
  | int8 : Int8 → Value
  | int16 : Int16 → Value
  | int32 : Int32 → Value
  | int64 : Int64 → Value
  | uint8 : UInt8 → Value
  | uint16 : UInt16 → Value
  | uint32 : UInt32 → Value
  | uint64 : UInt64 → Value
  | float : BitVec 32 → Value
  | double : BitVec 64 → Value
  | string : List Byte → Value
  | bytes : List Byte → Value
  deriving DecidableEq

structure BinarySerializer where
  byteOrder : ByteOrder
  buffer : List Byte

namespace BinarySerializer

def push (s : BinarySerializer) (data : List Byte) : Result Unit × BinarySerializer :=
  (.ok (),{ s with buffer := s.buffer++data })

def serializeInteger (s : BinarySerializer) (size : Nat) (value : BitVec (8*size)) :
    Result Unit × BinarySerializer :=
  s.push (split (s.byteOrder.places size) value)

/-- The length is cut to 32 bits. -/
def serializeString (s : BinarySerializer) (value : List Byte) : Result Unit × BinarySerializer :=
  match s.serializeInteger 4 (BitVec.ofNat 32 value.length) with
  | (.error e,s) => (.error e,s)
  | (.ok _,s) => s.push value

def serialize (s : BinarySerializer) : Value → Result Unit × BinarySerializer
  | .bool value => s.push [if value then 1 else 0]
  | .int8 value => s.push [value.toUInt8.toBitVec]
  | .int16 value => s.serializeInteger 2 value.toUInt16.toBitVec
  | .int32 value => s.serializeInteger 4 value.toUInt32.toBitVec
  | .int64 value => s.serializeInteger 8 value.toUInt64.toBitVec
  | .uint8 value => s.push [value.toBitVec]
  | .uint16 value => s.serializeInteger 2 value.toBitVec
  | .uint32 value => s.serializeInteger 4 value.toBitVec
  | .uint64 value => s.serializeInteger 8 value.toBitVec
  | .float value => s.serializeInteger 4 value
  | .double value => s.serializeInteger 8 value
  | .string value => s.serializeString value
  | .bytes data => s.push data

def serializeAll (s : BinarySerializer) : List Value → List (Result Unit) × BinarySerializer
  | [] => ([],s)
  | v :: vs =>
    ((s.serialize v).1 :: ((s.serialize v).2.serializeAll vs).1,
      ((s.serialize v).2.serializeAll vs).2)

end BinarySerializer

/-- The type of a `Deserialize` call. `bytes room length` is `DeserializeBytes` of
`length` bytes into a span of `room` bytes. -/
inductive Ty where
  | bool | int8 | int16 | int32 | int64 | uint8 | uint16 | uint32 | uint64 | float | double | string
  | bytes (room : Nat) (length : BitVec 32)
  deriving DecidableEq

/-- A span is shorter than 2^63, so that no sum of `position` with a 32-bit length wraps. -/
structure BinaryDeserializer where
  data : List Byte
  byteOrder : ByteOrder
  position : Nat

namespace BinaryDeserializer

def take (d : BinaryDeserializer) (n : Nat) : List Byte × BinaryDeserializer :=
  ((d.data.drop d.position).take n,{ d with position := d.position+n })

def deserializeByte (d : BinaryDeserializer) : Result Byte × BinaryDeserializer :=
  match d.data[d.position]? with
  | none => (fail .kInvalidArgument 0,d)
  | some b => (.ok b,{ d with position := d.position+1 })

def deserializeInteger (d : BinaryDeserializer) (size : Nat) :
    Result (BitVec (8*size)) × BinaryDeserializer :=
  if d.data.length < d.position+size then (fail .kInvalidArgument 0,d)
  else (.ok (join 0 (d.byteOrder.places size) (d.take size).1),(d.take size).2)

/-- A length that is too large leaves the position behind the length. -/
def deserializeString (d : BinaryDeserializer) : Result (List Byte) × BinaryDeserializer :=
  match d.deserializeInteger 4 with
  | (.error e,d) => (.error e,d)
  | (.ok length,d) =>
    if d.data.length < d.position+length.toNat then (fail .kInvalidArgument 0,d)
    else (.ok (d.take length.toNat).1,(d.take length.toNat).2)

def deserializeBytes (d : BinaryDeserializer) (room : Nat) (length : BitVec 32) :
    Result (List Byte) × BinaryDeserializer :=
  if d.data.length < d.position+length.toNat ∨ room < length.toNat then
    (fail .kInvalidArgument 0,d)
  else (.ok (d.take length.toNat).1,(d.take length.toNat).2)

def deserialize (d : BinaryDeserializer) : Ty → Result Value × BinaryDeserializer
  | .bool => d.deserializeByte.map (Except.map fun b => .bool (b ≠ 0)) id
  | .int8 => d.deserializeByte.map (Except.map fun b => .int8 (UInt8.ofBitVec b).toInt8) id
  | .int16 =>
    (d.deserializeInteger 2).map (Except.map fun x => .int16 (UInt16.ofBitVec x).toInt16) id
  | .int32 =>
    (d.deserializeInteger 4).map (Except.map fun x => .int32 (UInt32.ofBitVec x).toInt32) id
  | .int64 =>
    (d.deserializeInteger 8).map (Except.map fun x => .int64 (UInt64.ofBitVec x).toInt64) id
  | .uint8 => d.deserializeByte.map (Except.map fun b => .uint8 (UInt8.ofBitVec b)) id
  | .uint16 => (d.deserializeInteger 2).map (Except.map fun x => .uint16 (UInt16.ofBitVec x)) id
  | .uint32 => (d.deserializeInteger 4).map (Except.map fun x => .uint32 (UInt32.ofBitVec x)) id
  | .uint64 => (d.deserializeInteger 8).map (Except.map fun x => .uint64 (UInt64.ofBitVec x)) id
  | .float => (d.deserializeInteger 4).map (Except.map .float) id
  | .double => (d.deserializeInteger 8).map (Except.map .double) id
  | .string => d.deserializeString.map (Except.map .string) id
  | .bytes room length => (d.deserializeBytes room length).map (Except.map .bytes) id

def deserializeAll (d : BinaryDeserializer) : List Ty → List (Result Value) × BinaryDeserializer
  | [] => ([],d)
  | ty :: tys =>
    ((d.deserialize ty).1 :: ((d.deserialize ty).2.deserializeAll tys).1,
      ((d.deserialize ty).2.deserializeAll tys).2)

def hasMoreData (d : BinaryDeserializer) : Bool := d.position < d.data.length

end BinaryDeserializer

end LapCom.Serialization
