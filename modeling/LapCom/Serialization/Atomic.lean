import LapCom.Serialization.Accesses

set_option autoImplicit false

namespace LapCom.Serialization.Accesses
open LapCom.Bytes LapCom.Machine

namespace BinaryDeserializer
variable (d : BinaryDeserializer)

def advance (n : Nat) : BinaryDeserializer := { d with position := d.position+BitVec.ofNat 64 n }

def Has (n : Nat) : Prop := (d.position+BitVec.ofNat 64 n).toNat ≤ d.data.length

instance (n : Nat) : Decidable (d.Has n) := inferInstanceAs (Decidable (_ ≤ _))

def upcoming : Nat → BitVec 64 → List Byte
  | 0, _ => []
  | n+1, position => d.data.getD position.toNat 0 :: upcoming n (position+1)

def lengthPrefix : BitVec 32 :=
  join (0 : BitVec (8*4)) (d.byteOrder.places 4) (d.upcoming 4 d.position)

end BinaryDeserializer

section Loops
variable (d : BinaryDeserializer)

theorem advance_zero : d.advance 0 = d := by
  cases d
  simp [BinaryDeserializer.advance]

theorem advance_succ (n : Nat) :
    ({ d with position := d.position+1 } : BinaryDeserializer).advance n = d.advance (n+1) := by
  simp only [BinaryDeserializer.advance,BinaryDeserializer.mk.injEq,true_and]
  rw [BitVec.add_assoc,Nat.add_comm n 1,BitVec.ofNat_add]
  rfl

theorem advance_position_ne {n : Nat} (h0 : 0 < n) (h : n < 2^64) : d.advance n ≠ d := by
  intro heq
  have hpos := congrArg (fun e => e.position.toNat) heq
  simp only [BinaryDeserializer.advance,BitVec.toNat_add,BitVec.toNat_ofNat] at hpos
  have := d.position.isLt
  omega

theorem upcoming_data (n : Nat) (position : BitVec 64) :
    ({ d with position := d.position+1 } : BinaryDeserializer).upcoming n position =
      d.upcoming n position := by
  induction n generalizing position with
  | zero => rfl
  | succ n ih => rw [BinaryDeserializer.upcoming,BinaryDeserializer.upcoming,ih]

theorem readPlaces_run {w : Nat} (ps : List Nat) (value : BitVec w) :
    ((readPlaces ps value).run d).1 = join value ps (d.upcoming ps.length d.position) ∧
      ((readPlaces ps value).run d).2.1 = d.advance ps.length := by
  induction ps generalizing value d with
  | nil => exact ⟨rfl,(advance_zero d).symm⟩
  | cons p ps ih =>
    obtain ⟨hvalue,hstate⟩ := ih { d with position := d.position+1 }
      (value ||| place w (d.data.getD d.position.toNat 0) p)
    constructor
    · simp only [readPlaces,Traced.run_bind,run_readByte]
      rw [hvalue,upcoming_data]
      rfl
    · simp only [readPlaces,Traced.run_bind,run_readByte]
      rw [hstate,advance_succ]
      rfl

theorem readChars_run (n : Nat) (value : List Byte) :
    ((readChars n value).run d).1 = value ++ d.upcoming n d.position ∧
      ((readChars n value).run d).2.1 = d.advance n := by
  induction n generalizing value d with
  | zero => exact ⟨(List.append_nil value).symm,(advance_zero d).symm⟩
  | succ n ih =>
    obtain ⟨hvalue,hstate⟩ := ih { d with position := d.position+1 }
      (value ++ [d.data.getD d.position.toNat 0])
    constructor
    · simp only [readChars,Traced.run_bind,run_readByte]
      rw [hvalue,upcoming_data,List.append_assoc]
      rfl
    · simp only [readChars,Traced.run_bind,run_readByte]
      rw [hstate,advance_succ]

end Loops

section Calls
variable (d : BinaryDeserializer)

theorem deserializeInteger_has {size : Nat} (value : BitVec (8*size)) (h : d.Has size) :
    ((deserializeInteger size value).run d).1 = (.ok (),
        join 0 (d.byteOrder.places size) (d.upcoming size d.position)) ∧
      ((deserializeInteger size value).run d).2.1 = d.advance size := by
  obtain ⟨hvalue,hstate⟩ := readPlaces_run d (d.byteOrder.places size) (0 : BitVec (8*size))
  rw [ByteOrder.places_length] at hvalue hstate
  have hlast : ¬ d.data.length < (d.position+BitVec.ofNat 64 size).toNat := Nat.not_lt.mpr h
  simp only [deserializeInteger,Traced.run_bind,Traced.run_state,run_sum,hlast,if_false,
    Traced.run_pure,hvalue,hstate,and_self]

theorem deserializeInteger_short {size : Nat} (value : BitVec (8*size)) (h : ¬ d.Has size) :
    ((deserializeInteger size value).run d).1 = (fail .kInvalidArgument 0,value) ∧
      ((deserializeInteger size value).run d).2.1 = d := by
  have hlast : d.data.length < (d.position+BitVec.ofNat 64 size).toNat := Nat.not_le.mp h
  simp only [deserializeInteger,Traced.run_bind,Traced.run_state,run_sum,hlast,if_true,
    Traced.run_pure,and_self]

end Calls

/-- A call for this type that fails leaves the position and the target as they were, whatever the
target is and whatever an uninitialised variable holds. -/
def FailsAtomically (ty : Ty) (d : BinaryDeserializer) : Prop :=
  ∀ uninit value e, ((deserialize uninit ty value).run d).1.1 = .error e →
    ((deserialize uninit ty value).run d).2.1 = d ∧
      ((deserialize uninit ty value).run d).1.2 = value

/-- The bytes of a signed integer are all there; so are those of a string, or its length is cut
off. -/
def Retryable (d : BinaryDeserializer) : Ty → Prop
  | .int16 => d.Has 2
  | .int32 => d.Has 4
  | .int64 => d.Has 8
  | .string => d.Has 4 → (d.advance 4).Has d.lengthPrefix.toNat
  | _ => True

theorem failsAtomically_byte {T : Type} (d : BinaryDeserializer) (convert : Byte → T) (value : T)
    {e : ErrorCode} (h : ((deserializeByte convert value).run d).1.1 = .error e) :
    ((deserializeByte convert value).run d).2.1 = d ∧
      ((deserializeByte convert value).run d).1.2 = value := by
  by_cases hend : d.data.length ≤ d.position.toNat
  · simp [deserializeByte,hend]
  · simp [deserializeByte,hend] at h

theorem failsAtomically_integer (d : BinaryDeserializer) (size : Nat) (value : BitVec (8*size))
    {e : ErrorCode} (h : ((deserializeInteger size value).run d).1.1 = .error e) :
    ((deserializeInteger size value).run d).2.1 = d ∧
      ((deserializeInteger size value).run d).1.2 = value := by
  by_cases hhas : d.Has size
  · rw [(deserializeInteger_has d value hhas).1] at h
    cases h
  · obtain ⟨hresult,hstate⟩ := deserializeInteger_short d value hhas
    exact ⟨hstate,by rw [hresult]⟩

theorem failsAtomically_signed {T : Type} (d : BinaryDeserializer) (size : Nat)
    (convert : BitVec (8*size) → T) (narrow : BitVec 64 → BitVec (8*size))
    (hconvert : ∃ x y, convert (narrow x) ≠ convert (narrow y)) :
    (∀ uninit (value : T) e,
      ((deserializeSigned size convert (narrow uninit)).run d).1.1 = .error e →
        ((deserializeSigned size convert (narrow uninit)).run d).2.1 = d ∧
          ((deserializeSigned size convert (narrow uninit)).run d).1.2 = value) ↔ d.Has size := by
  constructor
  · intro h
    by_contra hshort
    obtain ⟨x,y,hne⟩ := hconvert
    have hx := (deserializeInteger_short d (narrow x) hshort).1
    have hfail := h x (convert (narrow y)) ⟨.kInvalidArgument,0⟩
      (by simp [deserializeSigned,hx,fail])
    simp only [deserializeSigned,Traced.run_bind,Traced.run_pure,hx] at hfail
    exact hne hfail.2
  · intro hhas uninit value e herr
    simp [deserializeSigned,(deserializeInteger_has d (narrow uninit) hhas).1] at herr

theorem failsAtomically_floating (d : BinaryDeserializer) (size : Nat)
    (uninit value : BitVec (8*size)) {e : ErrorCode}
    (h : ((deserializeFloating size uninit value).run d).1.1 = .error e) :
    ((deserializeFloating size uninit value).run d).2.1 = d ∧
      ((deserializeFloating size uninit value).run d).1.2 = value := by
  by_cases hhas : d.Has size
  · simp [deserializeFloating,(deserializeInteger_has d uninit hhas).1] at h
  · obtain ⟨hresult,hstate⟩ := deserializeInteger_short d uninit hhas
    simp [deserializeFloating,hresult,hstate,fail,Result.hasValue]

theorem failsAtomically_bytes (d : BinaryDeserializer) {room : Nat} (length : BitVec 32)
    (data : Vector Byte room) {e : ErrorCode}
    (h : ((deserializeBytes length data).run d).1.1 = .error e) :
    ((deserializeBytes length data).run d).2.1 = d ∧
      ((deserializeBytes length data).run d).1.2 = data := by
  by_cases hbad : d.data.length < (d.position+length.setWidth 64).toNat ∨ room < length.toNat
  · simp only [deserializeBytes,Traced.run_bind,Traced.run_state,run_sum,hbad,if_true,
      Traced.run_pure,and_self]
  · simp only [deserializeBytes,Traced.run_bind,Traced.run_state,run_sum,hbad,if_false,
      Traced.run_pure] at h
    cases h

theorem deserializeString_short (d : BinaryDeserializer) (uninit : BitVec 32)
    (value : List Byte) (h : ¬ d.Has 4) : ((deserializeString uninit value).run d).1 =
        (fail .kInvalidArgument 0,value) ∧ ((deserializeString uninit value).run d).2.1 = d := by
  obtain ⟨hresult,hstate⟩ := deserializeInteger_short d uninit h
  simp only [deserializeString,Traced.run_bind,hresult,hstate,fail,Result.hasValue,
    Bool.false_eq_true,if_false,Traced.run_pure,and_self]

theorem deserializeString_has (d : BinaryDeserializer) (uninit : BitVec 32) (value : List Byte)
    (h : d.Has 4) : ((deserializeString uninit value).run d).1 =
        (if (d.advance 4).Has d.lengthPrefix.toNat then
          (.ok (),(d.advance 4).upcoming d.lengthPrefix.toNat (d.advance 4).position)
        else (fail .kInvalidArgument 0,value)) ∧
      ((deserializeString uninit value).run d).2.1 =
        (if (d.advance 4).Has d.lengthPrefix.toNat then
          (d.advance 4).advance d.lengthPrefix.toNat else d.advance 4) := by
  obtain ⟨hresult,hstate⟩ := deserializeInteger_has d uninit h
  obtain ⟨hvalue,hlast⟩ := readChars_run (d.advance 4) d.lengthPrefix.toNat []
  have hlength : join 0 (d.byteOrder.places 4) (d.upcoming 4 d.position) = d.lengthPrefix := rfl
  rw [hlength] at hresult
  by_cases hroom : (d.advance 4).Has d.lengthPrefix.toNat
  · have hsum : ¬ (d.advance 4).data.length <
        ((d.advance 4).position+d.lengthPrefix.setWidth 64).toNat := by
      rw [← BitVec.ofNat_toNat]
      exact Nat.not_lt.mpr hroom
    simp only [deserializeString,Traced.run_bind,hresult,hstate,Result.hasValue,if_true,
      Traced.run_state,run_sum,hsum,if_false,Traced.run_pure,hvalue,hlast,hroom,
      List.nil_append,and_self]
  · have hsum : (d.advance 4).data.length <
        ((d.advance 4).position+d.lengthPrefix.setWidth 64).toNat := by
      rw [← BitVec.ofNat_toNat]
      exact Nat.not_le.mp hroom
    simp only [deserializeString,Traced.run_bind,hresult,hstate,Result.hasValue,if_true,
      Traced.run_state,run_sum,hsum,Traced.run_pure,hroom,if_false,and_self]

theorem failsAtomically_string (d : BinaryDeserializer) :
    (∀ uninit value e, ((deserializeString uninit value).run d).1.1 = .error e →
      ((deserializeString uninit value).run d).2.1 = d ∧
        ((deserializeString uninit value).run d).1.2 = value) ↔
      (d.Has 4 → (d.advance 4).Has d.lengthPrefix.toNat) := by
  constructor
  · intro h hhas
    by_contra hroom
    obtain ⟨hresult,hstate⟩ := deserializeString_has d 0 [] hhas
    rw [if_neg hroom] at hresult hstate
    have hfail := h 0 [] ⟨.kInvalidArgument,0⟩ (by rw [hresult]; rfl)
    rw [hstate] at hfail
    exact advance_position_ne d (by decide) (by decide) hfail.1
  · intro h uninit value e herr
    by_cases hhas : d.Has 4
    · rw [(deserializeString_has d uninit value hhas).1,if_pos (h hhas)] at herr
      cases herr
    · obtain ⟨hresult,hstate⟩ := deserializeString_short d uninit value hhas
      exact ⟨hstate,by rw [hresult]⟩

/-- Exactly the signed integers that are cut off and the strings whose characters are cut off
leave a trace. -/
theorem deserialize_atomic_iff (d : BinaryDeserializer) (ty : Ty) :
    FailsAtomically ty d ↔ Retryable d ty := by
  cases ty with
  | bool => exact ⟨fun _ => trivial,fun _ _ value _ h => failsAtomically_byte d _ value h⟩
  | int8 => exact ⟨fun _ => trivial,fun _ _ value _ h => failsAtomically_byte d _ value h⟩
  | uint8 => exact ⟨fun _ => trivial,fun _ _ value _ h => failsAtomically_byte d _ value h⟩
  | int16 =>
    have hconvert : ∃ x y : BitVec 64, (UInt16.ofBitVec (x.setWidth 16)).toInt16 ≠
        (UInt16.ofBitVec (y.setWidth 16)).toInt16 := ⟨0,1,by decide⟩
    exact failsAtomically_signed d 2 (fun x => (UInt16.ofBitVec x).toInt16)
      (fun uninit => uninit.setWidth 16) hconvert
  | int32 =>
    have hconvert : ∃ x y : BitVec 64, (UInt32.ofBitVec (x.setWidth 32)).toInt32 ≠
        (UInt32.ofBitVec (y.setWidth 32)).toInt32 := ⟨0,1,by decide⟩
    exact failsAtomically_signed d 4 (fun x => (UInt32.ofBitVec x).toInt32)
      (fun uninit => uninit.setWidth 32) hconvert
  | int64 =>
    have hconvert : ∃ x y : BitVec 64, (UInt64.ofBitVec x).toInt64 ≠
        (UInt64.ofBitVec y).toInt64 := ⟨0,1,by decide⟩
    exact failsAtomically_signed d 8 (fun x => (UInt64.ofBitVec x).toInt64) id hconvert
  | uint16 =>
    refine ⟨fun _ => trivial,fun _ _ value e h => ?_⟩
    obtain ⟨hstate,hvalue⟩ := failsAtomically_integer d 2 (UInt16.toBitVec value) h
    exact ⟨hstate,congrArg UInt16.ofBitVec hvalue⟩
  | uint32 =>
    refine ⟨fun _ => trivial,fun _ _ value e h => ?_⟩
    obtain ⟨hstate,hvalue⟩ := failsAtomically_integer d 4 (UInt32.toBitVec value) h
    exact ⟨hstate,congrArg UInt32.ofBitVec hvalue⟩
  | uint64 =>
    refine ⟨fun _ => trivial,fun _ _ value e h => ?_⟩
    obtain ⟨hstate,hvalue⟩ := failsAtomically_integer d 8 (UInt64.toBitVec value) h
    exact ⟨hstate,congrArg UInt64.ofBitVec hvalue⟩
  | float => exact ⟨fun _ => trivial,fun _ _ value _ h => failsAtomically_floating d 4 _ value h⟩
  | double => exact ⟨fun _ => trivial,fun _ _ value _ h => failsAtomically_floating d 8 _ value h⟩
  | string =>
    have hstring := failsAtomically_string d
    constructor
    · intro h
      refine hstring.mp fun uninit value e herr => ?_
      have hnarrow : (uninit.setWidth 64).setWidth 32 = uninit := by
        rw [BitVec.setWidth_setWidth_of_le _ (by decide),BitVec.setWidth_eq]
      have hfail := h (uninit.setWidth 64) value e
      simp only [deserialize,hnarrow] at hfail
      exact hfail herr
    · exact fun h uninit value e herr => hstring.mpr h (uninit.setWidth 32) value e herr
  | bytes room length =>
    exact ⟨fun _ => trivial,fun _ _ value _ h => failsAtomically_bytes d length value h⟩

/-- An `Int16` of one byte overwrites its target, and a string without its characters is left half
read. -/
theorem failures_leave_traces :
    ((deserialize 7 .int16 (5 : Int16)).run ⟨[1],.kBigEndian,0⟩).1 =
        (fail .kInvalidArgument 0,(7 : Int16)) ∧
      ((deserialize 7 .string ([] : List Byte)).run ⟨[0,0,0,5],.kBigEndian,0⟩).1.1 =
          fail .kInvalidArgument 0 ∧
        ((deserialize 7 .string ([] : List Byte)).run ⟨[0,0,0,5],.kBigEndian,0⟩).2.1.position = 4 ∧
      ¬ FailsAtomically .int16 ⟨[1],.kBigEndian,0⟩ ∧
        ¬ FailsAtomically .string ⟨[0,0,0,5],.kBigEndian,0⟩ := by
  refine ⟨rfl,rfl,rfl,fun h => ?_,fun h => ?_⟩
  · have hvalue : (7 : Int16) = 5 := (h 7 (5 : Int16) _ rfl).2
    revert hvalue
    decide
  · have hstate := congrArg BinaryDeserializer.position (h 7 ([] : List Byte) _ rfl).1
    revert hstate
    decide

end LapCom.Serialization.Accesses
