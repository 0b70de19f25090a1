import LapCom.Serialization.Atomic
import Mathlib.Data.List.GetD

set_option autoImplicit false

namespace LapCom.Serialization
open LapCom.Bytes LapCom.Machine LapCom.Machine.Traced

def Ty.read : (ty : Ty) → ty.Target → Value
  | .bool, value => .bool value
  | .int8, value => .int8 value
  | .int16, value => .int16 value
  | .int32, value => .int32 value
  | .int64, value => .int64 value
  | .uint8, value => .uint8 value
  | .uint16, value => .uint16 value
  | .uint32, value => .uint32 value
  | .uint64, value => .uint64 value
  | .float, value => .float value
  | .double, value => .double value
  | .string, value => .string value
  | .bytes _ length, value => .bytes (value.toList.take length.toNat)

namespace Accesses

def BinaryDeserializer.numbered (d : BinaryDeserializer) : Serialization.BinaryDeserializer :=
  ⟨d.data,d.byteOrder,d.position.toNat⟩

structure BinaryDeserializer.InBounds (d : BinaryDeserializer) : Prop where
  position : d.position.toNat ≤ d.data.length
  size : d.data.length < 2^63

section InBounds
variable {d : BinaryDeserializer} {n : Nat}

theorem BinaryDeserializer.InBounds.position_add (h : d.InBounds) (hn : n < 2^32) :
    (d.position+BitVec.ofNat 64 n).toNat = d.position.toNat+n := by
  have hposition := h.position
  have hsize := h.size
  rw [BitVec.toNat_add,BitVec.toNat_ofNat]
  omega

theorem BinaryDeserializer.InBounds.has_iff (h : d.InBounds) (hn : n < 2^32) :
    d.Has n ↔ d.position.toNat+n ≤ d.data.length := by
  rw [BinaryDeserializer.Has,h.position_add hn]

theorem BinaryDeserializer.InBounds.numbered_advance (h : d.InBounds) (hn : n < 2^32) :
    (d.advance n).numbered = { d.numbered with position := d.numbered.position+n } := by
  simp only [BinaryDeserializer.numbered,BinaryDeserializer.advance,h.position_add hn]

theorem BinaryDeserializer.InBounds.advance (h : d.InBounds) (hhas : d.Has n) :
    (d.advance n).InBounds :=
  ⟨hhas,h.size⟩

theorem BinaryDeserializer.InBounds.upcoming (h : d.InBounds) (hhas : d.position.toNat+n ≤
    d.data.length) : d.upcoming n d.position = (d.data.drop d.position.toNat).take n := by
  induction n generalizing d with
  | zero => rfl
  | succ n ih =>
    have hone : (d.position+1).toNat = d.position.toNat+1 := h.position_add (by decide : 1 < 2^32)
    have hlt : d.position.toNat < d.data.length := by omega
    have hrest := ih (d := { d with position := d.position+1 })
      ⟨by simp only [hone]; omega,h.size⟩ (by simp only [hone]; omega)
    simp only [hone,upcoming_data] at hrest
    rw [BinaryDeserializer.upcoming,hrest,List.getD_eq_getElem _ _ hlt,
      ← List.getElem_cons_drop hlt,List.take_succ_cons]

end InBounds

section Integers
variable {d : BinaryDeserializer} {size : Nat}

theorem numbered_take (h : d.InBounds) (hsize : size < 2^32) (hhas : d.Has size) :
    d.numbered.take size = (d.upcoming size d.position,(d.advance size).numbered) := by
  rw [h.upcoming ((h.has_iff hsize).mp hhas),h.numbered_advance hsize]
  rfl

theorem numbered_integer_has (h : d.InBounds) (hsize : size < 2^32) (hhas : d.Has size) :
    d.numbered.deserializeInteger size =
      (.ok (join 0 (d.byteOrder.places size) (d.upcoming size d.position)),
        (d.advance size).numbered) := by
  have hroom : ¬ d.numbered.data.length < d.numbered.position+size :=
    Nat.not_lt.mpr ((h.has_iff hsize).mp hhas)
  rw [Serialization.BinaryDeserializer.deserializeInteger,if_neg hroom,
    numbered_take h hsize hhas]
  rfl

theorem numbered_integer_short (h : d.InBounds) (hsize : size < 2^32) (hshort : ¬ d.Has size) :
    d.numbered.deserializeInteger size = (fail .kInvalidArgument 0,d.numbered) := by
  have hroom : d.numbered.data.length < d.numbered.position+size :=
    Nat.lt_of_not_le fun hle => hshort ((h.has_iff hsize).mpr hle)
  rw [Serialization.BinaryDeserializer.deserializeInteger,if_pos hroom]

end Integers

/-- A call does on memory what it does on numbered positions, `read` of its target the value. -/
def Agrees {T : Type} (d : BinaryDeserializer) (m : Step (Result Unit × T)) (read : T → Value)
    (call : Result Value × Serialization.BinaryDeserializer) : Prop :=
  (m.run d).2.1.numbered = call.2 ∧
    match call.1 with
    | .error e => (m.run d).1.1 = .error e
    | .ok v => (m.run d).1.1 = .ok () ∧ read (m.run d).1.2 = v

section Calls
variable {d : BinaryDeserializer} {T : Type}

theorem agrees_byte (h : d.InBounds) (convert : Byte → T) (value : T) (read : T → Value) :
    Agrees d (deserializeByte convert value) read
      (d.numbered.deserializeByte.map (Except.map fun b => read (convert b)) id) := by
  have hone : (d.position+1).toNat = d.position.toNat+1 := h.position_add (by decide : 1 < 2^32)
  by_cases hend : d.data.length ≤ d.position.toNat
  · simp [Agrees,deserializeByte,hend,Serialization.BinaryDeserializer.deserializeByte,
      BinaryDeserializer.numbered,fail,Except.map]
  · have hlt : d.position.toNat < d.data.length := Nat.lt_of_not_le hend
    have hsome : d.data[d.position.toNat]? = some d.data[d.position.toNat] :=
      List.getElem?_eq_getElem hlt
    have hget : d.data.getD d.position.toNat 0 = d.data[d.position.toNat] :=
      List.getD_eq_getElem _ _ hlt
    simp only [Agrees,deserializeByte,run_bind,run_state,hend,if_false,run_readByte,
      run_pure,Serialization.BinaryDeserializer.deserializeByte,BinaryDeserializer.numbered,hsome,
      hone,hget,Prod.map,Except.map,id,and_self]

theorem agrees_integer (h : d.InBounds) (size : Nat) (hsize : size < 2^32)
    (uninit : BitVec (8*size)) {m : Step (Result Unit × T)} {convert : BitVec (8*size) → T}
    (read : T → Value)
    (hstate : (m.run d).2.1 = ((deserializeInteger size uninit).run d).2.1)
    (hresult : (m.run d).1.1 = ((deserializeInteger size uninit).run d).1.1)
    (hvalue : d.Has size →
      (m.run d).1.2 = convert ((deserializeInteger size uninit).run d).1.2) :
    Agrees d m read ((d.numbered.deserializeInteger size).map
      (Except.map fun x => read (convert x)) id) := by
  by_cases hhas : d.Has size
  · obtain ⟨hvalue',hstate'⟩ := deserializeInteger_has d uninit hhas
    rw [numbered_integer_has h hsize hhas,Agrees,hstate,hresult,hvalue hhas,hstate',hvalue']
    exact ⟨rfl,rfl,rfl⟩
  · obtain ⟨hvalue',hstate'⟩ := deserializeInteger_short d uninit hhas
    rw [numbered_integer_short h hsize hhas,Agrees,hstate,hresult,hstate',hvalue']
    exact ⟨rfl,rfl⟩

theorem deserializeFloating_has (size : Nat) (uninit value : BitVec (8*size)) (hhas : d.Has size) :
    ((deserializeFloating size uninit value).run d).1.2 =
      ((deserializeInteger size uninit).run d).1.2 := by
  simp only [deserializeFloating,run_bind,run_pure,(deserializeInteger_has d uninit hhas).1,
    Result.hasValue,if_true]

theorem agrees_string (h : d.InBounds) (uninit : BitVec 32) (value : List Byte) :
    Agrees d (deserializeString uninit value) Value.string
      (d.numbered.deserializeString.map (Except.map Value.string) id) := by
  by_cases hhas : d.Has 4
  · obtain ⟨hresult,hstate⟩ := deserializeString_has d uninit value hhas
    have hin := h.advance hhas
    have hlength : d.lengthPrefix.toNat < 2^32 := d.lengthPrefix.isLt
    rw [Serialization.BinaryDeserializer.deserializeString,
      numbered_integer_has h (by decide) hhas,Agrees,hresult,hstate]
    by_cases hroom : (d.advance 4).Has d.lengthPrefix.toNat
    · have hlong : ¬ (d.advance 4).numbered.data.length <
          (d.advance 4).numbered.position+d.lengthPrefix.toNat :=
        Nat.not_lt.mpr ((hin.has_iff hlength).mp hroom)
      have htake := numbered_take hin hlength hroom
      rw [BinaryDeserializer.lengthPrefix] at hlong htake hroom ⊢
      simp only [hroom,if_true,hlong,if_false,htake,Prod.map,Except.map,id,and_self]
    · have hshort : (d.advance 4).numbered.data.length <
          (d.advance 4).numbered.position+d.lengthPrefix.toNat :=
        Nat.lt_of_not_le fun hle => hroom ((hin.has_iff hlength).mpr hle)
      rw [BinaryDeserializer.lengthPrefix] at hshort hroom ⊢
      simp only [hroom,if_false,hshort,if_true,Prod.map,fail,Except.map,id,and_self]
  · obtain ⟨hresult,hstate⟩ := deserializeString_short d uninit value hhas
    rw [Serialization.BinaryDeserializer.deserializeString,
      numbered_integer_short h (by decide) hhas,Agrees,hresult,hstate]
    exact ⟨rfl,rfl⟩

theorem readInto_run (d : BinaryDeserializer) {room : Nat} (i n : Nat) (target : Vector Byte room)
    (hroom : i+n ≤ room) : ((readInto i n target).run d).2.1 = d.advance n ∧
      ((readInto i n target).run d).1.toList.take (i+n) =
        target.toList.take i ++ d.upcoming n d.position := by
  induction n generalizing i d target with
  | zero => exact ⟨(advance_zero d).symm,(List.append_nil _).symm⟩
  | succ n ih =>
    have hi : i < target.toList.length := by simp; omega
    obtain ⟨hstate,htarget⟩ := ih { d with position := d.position+1 } (i+1)
      (target.setIfInBounds i (d.data.getD d.position.toNat 0)) (by omega)
    rw [Vector.toList_setIfInBounds,List.take_succ_eq_append_getElem (by simpa using hi),
      List.getElem_set_self,List.take_set_of_le (Nat.le_refl i),upcoming_data,
      List.append_assoc,Nat.add_right_comm] at htarget
    simp only [readInto,run_bind,run_readByte,run_record]
    exact ⟨by rw [hstate,advance_succ],htarget⟩

theorem agrees_bytes (h : d.InBounds) {room : Nat} (length : BitVec 32)
    (target : Vector Byte room) : Agrees d (deserializeBytes length target)
      (fun target => Value.bytes (target.toList.take length.toNat))
      ((d.numbered.deserializeBytes room length).map (Except.map Value.bytes) id) := by
  have hlength : length.toNat < 2^32 := length.isLt
  have hsum : d.data.length < (d.position+length.setWidth 64).toNat ↔
      d.numbered.data.length < d.numbered.position+length.toNat := by
    rw [← BitVec.ofNat_toNat,h.position_add hlength]
    rfl
  by_cases hbad : d.data.length < (d.position+length.setWidth 64).toNat ∨ room < length.toNat
  · have hbad' := hbad.imp_left hsum.mp
    simp only [Agrees,deserializeBytes,run_bind,run_state,run_sum,hbad,if_true,run_pure,
      Serialization.BinaryDeserializer.deserializeBytes,hbad',Prod.map,fail,Except.map,id,and_self]
  · have hbad' : ¬ (d.numbered.data.length < d.numbered.position+length.toNat ∨
        room < length.toNat) := fun h => hbad (h.imp_left hsum.mpr)
    have hhas : d.Has length.toNat :=
      (h.has_iff hlength).mpr (Nat.le_of_not_lt fun hlt => hbad' (.inl hlt))
    obtain ⟨hstate,htarget⟩ := readInto_run d 0 length.toNat target
      (by have := Nat.le_of_not_lt fun hlt => hbad (.inr hlt); omega)
    rw [Nat.zero_add,List.take_zero,List.nil_append] at htarget
    simp only [Agrees,deserializeBytes,run_bind,run_state,run_sum,hbad,if_false,run_pure,
      Serialization.BinaryDeserializer.deserializeBytes,hbad',numbered_take h hlength hhas,
      Prod.map,Except.map,id,hstate,htarget,and_self]

end Calls

/-- Inside a buffer that can exist, every overload does what the deserializer with numbered
positions does. -/
theorem deserialize_agrees {d : BinaryDeserializer} (h : d.InBounds) (uninit : BitVec 64) (ty : Ty)
    (target : ty.Target) :
    Agrees d (deserialize uninit ty target) ty.read (d.numbered.deserialize ty) := by
  cases ty with
  | bool => exact agrees_byte h _ target _
  | int8 => exact agrees_byte h _ target _
  | uint8 => exact agrees_byte h _ target _
  | int16 => exact agrees_integer h 2 (by decide) (uninit.setWidth 16) _ rfl rfl fun _ => rfl
  | int32 => exact agrees_integer h 4 (by decide) (uninit.setWidth 32) _ rfl rfl fun _ => rfl
  | int64 => exact agrees_integer h 8 (by decide) uninit _ rfl rfl fun _ => rfl
  | uint16 =>
    exact agrees_integer h 2 (by decide) (UInt16.toBitVec target) _ rfl rfl fun _ => rfl
  | uint32 =>
    exact agrees_integer h 4 (by decide) (UInt32.toBitVec target) _ rfl rfl fun _ => rfl
  | uint64 =>
    exact agrees_integer h 8 (by decide) (UInt64.toBitVec target) _ rfl rfl fun _ => rfl
  | float =>
    exact agrees_integer h 4 (by decide) (uninit.setWidth 32) _ rfl rfl
      fun hhas => deserializeFloating_has 4 _ target hhas
  | double =>
    exact agrees_integer h 8 (by decide) uninit _ rfl rfl
      fun hhas => deserializeFloating_has 8 _ target hhas
  | string => exact agrees_string h _ target
  | bytes room length => exact agrees_bytes h length target

end Accesses

end LapCom.Serialization
