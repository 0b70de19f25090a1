import LapCom.Serialization.Binary

set_option autoImplicit false

namespace LapCom.Serialization
open LapCom.Bytes

def Value.encoding (order : ByteOrder) : Value → List Byte
  | .bool value => [if value then 1 else 0]
  | .int8 value => [value.toUInt8.toBitVec]
  | .int16 value => split (order.places 2) value.toUInt16.toBitVec
  | .int32 value => split (order.places 4) value.toUInt32.toBitVec
  | .int64 value => split (order.places 8) value.toUInt64.toBitVec
  | .uint8 value => [value.toBitVec]
  | .uint16 value => split (order.places 2) value.toBitVec
  | .uint32 value => split (order.places 4) value.toBitVec
  | .uint64 value => split (order.places 8) value.toBitVec
  | .float value => split (order.places 4) value
  | .double value => split (order.places 8) value
  | .string value => split (order.places 4) (BitVec.ofNat 32 value.length)++value
  | .bytes data => data

/-- A value of the type: what may be asked for after the value was serialized. -/
inductive HasType : Ty → Value → Prop where
  | bool (value : Bool) : HasType .bool (.bool value)
  | int8 (value : Int8) : HasType .int8 (.int8 value)
  | int16 (value : Int16) : HasType .int16 (.int16 value)
  | int32 (value : Int32) : HasType .int32 (.int32 value)
  | int64 (value : Int64) : HasType .int64 (.int64 value)
  | uint8 (value : UInt8) : HasType .uint8 (.uint8 value)
  | uint16 (value : UInt16) : HasType .uint16 (.uint16 value)
  | uint32 (value : UInt32) : HasType .uint32 (.uint32 value)
  | uint64 (value : UInt64) : HasType .uint64 (.uint64 value)
  | float (value : BitVec 32) : HasType .float (.float value)
  | double (value : BitVec 64) : HasType .double (.double value)
  | string (value : List Byte) (short : value.length < 2^32) : HasType .string (.string value)
  | bytes (data : List Byte) (room : Nat) (length : BitVec 32) (known : data.length = length.toNat)
    (fits : data.length ≤ room) : HasType (.bytes room length) (.bytes data)

namespace BinarySerializer

theorem serialize_eq (s : BinarySerializer) (v : Value) :
    s.serialize v = (.ok (),{ s with buffer := s.buffer++v.encoding s.byteOrder }) := by
  cases v with
  | string value =>
    simp only [serialize,serializeString,serializeInteger,push,Value.encoding,List.append_assoc]
  | _ => rfl

theorem serializeAll_eq (s : BinarySerializer) (vs : List Value) :
    s.serializeAll vs = (vs.map fun _ => .ok (),
      { s with buffer := s.buffer++vs.flatMap fun v => v.encoding s.byteOrder }) := by
  induction vs generalizing s with
  | nil => simp [serializeAll]
  | cons v vs ih => simp [serializeAll,ih,serialize_eq]

end BinarySerializer

namespace BinaryDeserializer

variable {d d' : BinaryDeserializer}

def rest (d : BinaryDeserializer) : List Byte := d.data.drop d.position

def advance (d : BinaryDeserializer) (n : Nat) : BinaryDeserializer :=
  { d with position := d.position+n }

@[simp] theorem advance_byteOrder (d : BinaryDeserializer) (n : Nat) :
    (d.advance n).byteOrder = d.byteOrder := rfl

@[simp] theorem advance_rest (d : BinaryDeserializer) (n : Nat) :
    (d.advance n).rest = d.rest.drop n := List.drop_drop.symm

theorem advance_advance (d : BinaryDeserializer) (m n : Nat) :
    (d.advance m).advance n = d.advance (m+n) := by
  simp only [advance,Nat.add_assoc]

theorem take_iff (hd : d.position ≤ d.data.length) {n : Nat} {bs : List Byte} :
    (¬ d.data.length < d.position+n ∧ d.take n = (bs,d')) ↔
    bs.length = n ∧ d' = d.advance n ∧ bs <+: d.rest := by
  constructor
  · rintro ⟨hlen,h⟩
    cases h
    refine ⟨?_,rfl,List.take_prefix _ _⟩
    rw [List.length_take,List.length_drop]
    omega
  · rintro ⟨rfl,rfl,hpre⟩
    have hle := hpre.length_le
    rw [rest,List.length_drop] at hle
    refine ⟨by omega,?_⟩
    rw [take,← rest,← List.prefix_iff_eq_take.mp hpre]
    rfl

theorem deserializeByte_iff {b : Byte} :
    d.deserializeByte = (.ok b,d') ↔ d' = d.advance 1 ∧ [b] <+: d.rest := by
  have hhead : d.rest[0]? = d.data[d.position]? := by simp [rest]
  rw [deserializeByte,← hhead]
  cases hrest : d.rest with
  | nil => simp [fail]
  | cons c tail =>
    simp only [List.getElem?_cons_zero,Prod.mk.injEq,Except.ok.injEq,List.cons_prefix_cons,
      List.nil_prefix,and_true]
    constructor
    · rintro ⟨rfl,rfl⟩
      exact ⟨rfl,rfl⟩
    · rintro ⟨rfl,rfl⟩
      exact ⟨rfl,rfl⟩

theorem deserializeInteger_iff (hd : d.position ≤ d.data.length) {size : Nat}
    {x : BitVec (8*size)} :
    d.deserializeInteger size = (.ok x,d') ↔
    d' = d.advance size ∧ split (d.byteOrder.places size) x <+: d.rest := by
  have hread : d.deserializeInteger size = (.ok x,d') ↔ ∃ bs,
      (¬ d.data.length < d.position+size ∧ d.take size = (bs,d')) ∧
        join 0 (d.byteOrder.places size) bs = x := by
    rw [deserializeInteger]
    split
    · rename_i hshort
      simp [fail,hshort]
    · rename_i hlong
      simp only [hlong,not_false_eq_true,true_and,Prod.mk.injEq,Except.ok.injEq]
      constructor
      · rintro ⟨hx,hd'⟩
        exact ⟨_,Prod.ext rfl hd',hx⟩
      · rintro ⟨bs,htake,hx⟩
        rw [htake]
        exact ⟨hx,rfl⟩
  simp only [hread,take_iff hd]
  constructor
  · rintro ⟨bs,⟨hlen,hd',hpre⟩,rfl⟩
    rw [split_join (fun p hp => ByteOrder.mem_places.mp hp) (d.byteOrder.places_nodup size)
      (by rw [hlen,ByteOrder.places_length])]
    exact ⟨hd',hpre⟩
  · rintro ⟨hd',hpre⟩
    refine ⟨_,⟨?_,hd',hpre⟩,join_split (fun p hp => ByteOrder.mem_places.mpr hp) x⟩
    rw [split_length,ByteOrder.places_length]

theorem append_prefix_iff {as bs l : List Byte} :
    as++bs <+: l ↔ as <+: l ∧ bs <+: l.drop as.length := by
  constructor
  · rintro ⟨tail,rfl⟩
    exact ⟨⟨bs++tail,(List.append_assoc ..).symm⟩,tail,by simp⟩
  · rintro ⟨⟨tail,rfl⟩,h⟩
    rw [List.drop_left] at h
    exact List.prefix_append_right_inj as |>.mpr h

theorem inside_advance (hd : d.position ≤ d.data.length) {bs : List Byte} (hbs : bs <+: d.rest) :
    (d.advance bs.length).position ≤ (d.advance bs.length).data.length := by
  have hle := hbs.length_le
  rw [rest,List.length_drop] at hle
  show d.position+bs.length ≤ d.data.length
  omega

theorem deserializeBytes_iff (hd : d.position ≤ d.data.length) {room : Nat} {length : BitVec 32}
    {data : List Byte} :
    d.deserializeBytes room length = (.ok data,d') ↔
    (data.length = length.toNat ∧ data.length ≤ room) ∧ d' = d.advance data.length ∧
      data <+: d.rest := by
  have hread : d.deserializeBytes room length = (.ok data,d') ↔
      (¬ d.data.length < d.position+length.toNat ∧ d.take length.toNat = (data,d')) ∧
        length.toNat ≤ room := by
    rw [deserializeBytes,← Nat.not_lt (a := room)]
    split <;> rename_i h
    · simp only [fail,Prod.mk.injEq,reduceCtorEq,false_and,false_iff]
      tauto
    · rw [not_or] at h
      simp [h.1,h.2,Prod.ext_iff]
  rw [hread,take_iff hd]
  constructor
  · rintro ⟨⟨hlen,hd',hpre⟩,hroom⟩
    exact ⟨⟨hlen,hlen ▸ hroom⟩,hlen ▸ hd',hpre⟩
  · rintro ⟨⟨hlen,hroom⟩,hd',hpre⟩
    exact ⟨⟨hlen,hlen ▸ hd',hpre⟩,hlen ▸ hroom⟩

theorem deserializeString_iff (hd : d.position ≤ d.data.length) {value : List Byte} :
    d.deserializeString = (.ok value,d') ↔ value.length < 2^32 ∧ d' = d.advance (4+value.length) ∧
    split (d.byteOrder.places 4) (BitVec.ofNat 32 value.length)++value <+: d.rest := by
  have hread : d.deserializeString = (.ok value,d') ↔ ∃ (length : BitVec 32) (d₁ : _),
      d.deserializeInteger 4 = (.ok length,d₁) ∧
      (¬ d₁.data.length < d₁.position+length.toNat ∧ d₁.take length.toNat = (value,d')) := by
    rw [deserializeString]
    cases d.deserializeInteger 4 with
    | mk r d₁ =>
      cases r with
      | error e => simp
      | ok length =>
        simp only [Prod.mk.injEq,Except.ok.injEq]
        split <;> rename_i h
        · simp [fail,h]
        · simp [h,Prod.ext_iff]
  rw [hread]
  constructor
  · rintro ⟨length,d₁,hint,hblock⟩
    obtain ⟨rfl,hpre⟩ := (deserializeInteger_iff hd).mp hint
    have hin := inside_advance hd hpre
    rw [split_length,ByteOrder.places_length] at hin
    obtain ⟨hlen,rfl,hpre'⟩ := (take_iff hin).mp hblock
    have hofNat : BitVec.ofNat 32 value.length = length := by
      rw [hlen,BitVec.ofNat_toNat,BitVec.setWidth_eq]
    refine ⟨hlen ▸ length.isLt,by rw [advance_advance,hlen],append_prefix_iff.mpr ?_⟩
    rw [hofNat,split_length,ByteOrder.places_length]
    exact ⟨hpre,advance_rest d 4 ▸ hpre'⟩
  · rintro ⟨hlt,rfl,hpre⟩
    obtain ⟨hpre,hpre'⟩ := append_prefix_iff.mp hpre
    have hin := inside_advance hd hpre
    rw [split_length,ByteOrder.places_length] at hin hpre'
    refine ⟨_,_,(deserializeInteger_iff hd).mpr ⟨rfl,hpre⟩,(take_iff hin).mpr ⟨?_,?_,?_⟩⟩
    · rw [BitVec.toNat_ofNat,Nat.mod_eq_of_lt hlt]
    · rw [advance_advance,BitVec.toNat_ofNat,Nat.mod_eq_of_lt hlt]
    · rwa [advance_rest]

theorem wrapped_iff {α : Type} {p : Result α × BinaryDeserializer} {f : α → Value} {Q : α → Prop}
    {ty : Ty} {v : Value}
    (hp : ∀ a, p = (.ok a,d') ↔ Q a ∧ d' = d.advance ((f a).encoding d.byteOrder).length ∧
      (f a).encoding d.byteOrder <+: d.rest)
    (hty : HasType ty v ↔ ∃ a, Q a ∧ f a = v) :
    p.map (Except.map f) id = (.ok v,d') ↔ HasType ty v ∧
      d' = d.advance (v.encoding d.byteOrder).length ∧ v.encoding d.byteOrder <+: d.rest := by
  have hread : p.map (Except.map f) id = (.ok v,d') ↔ ∃ a, p = (.ok a,d') ∧ f a = v := by
    obtain ⟨r,d₁⟩ := p
    cases r with
    | error e => simp [Except.map]
    | ok a =>
      simp only [Prod.map,Except.map,id,Prod.mk.injEq,Except.ok.injEq]
      constructor
      · rintro ⟨rfl,rfl⟩
        exact ⟨a,⟨rfl,rfl⟩,rfl⟩
      · rintro ⟨_,⟨rfl,rfl⟩,rfl⟩
        exact ⟨rfl,rfl⟩
  rw [hread,hty]
  constructor
  · rintro ⟨a,ha,rfl⟩
    obtain ⟨hq,hd',hpre⟩ := (hp a).mp ha
    exact ⟨⟨a,hq,rfl⟩,hd',hpre⟩
  · rintro ⟨⟨a,hq,rfl⟩,hd',hpre⟩
    exact ⟨a,(hp a).mpr ⟨hq,hd',hpre⟩,rfl⟩

theorem byte_iff {f : Byte → Value} {ty : Ty} {v : Value}
    (hf : ∀ b, (f b).encoding d.byteOrder = [b]) (hty : HasType ty v ↔ ∃ b, f b = v) :
    d.deserializeByte.map (Except.map f) id = (.ok v,d') ↔ HasType ty v ∧
      d' = d.advance (v.encoding d.byteOrder).length ∧ v.encoding d.byteOrder <+: d.rest := by
  refine wrapped_iff (Q := fun _ => True) (fun b => ?_) (by simpa using hty)
  rw [deserializeByte_iff,hf,true_and]
  rfl

theorem integer_iff (hd : d.position ≤ d.data.length) (size : Nat) {f : BitVec (8*size) → Value}
    {ty : Ty} {v : Value} (hf : ∀ x, (f x).encoding d.byteOrder = split (d.byteOrder.places size) x)
    (hty : HasType ty v ↔ ∃ x, f x = v) :
    (d.deserializeInteger size).map (Except.map f) id = (.ok v,d') ↔ HasType ty v ∧
      d' = d.advance (v.encoding d.byteOrder).length ∧ v.encoding d.byteOrder <+: d.rest := by
  refine wrapped_iff (Q := fun _ => True) (fun x => ?_) (by simpa using hty)
  rw [deserializeInteger_iff hd,hf,true_and,split_length,ByteOrder.places_length]

/-- What a call other than that for `bool` accepts is exactly what `Serialize` writes. -/
theorem deserialize_iff (hd : d.position ≤ d.data.length) {ty : Ty} (hbool : ty ≠ .bool)
    {v : Value} :
    d.deserialize ty = (.ok v,d') ↔ HasType ty v ∧
      d' = d.advance (v.encoding d.byteOrder).length ∧ v.encoding d.byteOrder <+: d.rest := by
  cases ty with
  | bool => exact absurd rfl hbool
  | int8 =>
    rw [deserialize]
    refine byte_iff (fun _ => rfl) ⟨?_,?_⟩
    · rintro ⟨_⟩
      exact ⟨_,rfl⟩
    · rintro ⟨_,rfl⟩
      exact .int8 _
  | int16 =>
    rw [deserialize]
    refine integer_iff hd 2 (fun _ => rfl) ⟨?_,?_⟩
    · rintro ⟨_⟩
      exact ⟨_,rfl⟩
    · rintro ⟨_,rfl⟩
      exact .int16 _
  | int32 =>
    rw [deserialize]
    refine integer_iff hd 4 (fun _ => rfl) ⟨?_,?_⟩
    · rintro ⟨_⟩
      exact ⟨_,rfl⟩
    · rintro ⟨_,rfl⟩
      exact .int32 _
  | int64 =>
    rw [deserialize]
    refine integer_iff hd 8 (fun _ => rfl) ⟨?_,?_⟩
    · rintro ⟨_⟩
      exact ⟨_,rfl⟩
    · rintro ⟨_,rfl⟩
      exact .int64 _
  | uint8 =>
    rw [deserialize]
    refine byte_iff (fun _ => rfl) ⟨?_,?_⟩
    · rintro ⟨_⟩
      exact ⟨_,rfl⟩
    · rintro ⟨_,rfl⟩
      exact .uint8 _
  | uint16 =>
    rw [deserialize]
    refine integer_iff hd 2 (fun _ => rfl) ⟨?_,?_⟩
    · rintro ⟨_⟩
      exact ⟨_,rfl⟩
    · rintro ⟨_,rfl⟩
      exact .uint16 _
  | uint32 =>
    rw [deserialize]
    refine integer_iff hd 4 (fun _ => rfl) ⟨?_,?_⟩
    · rintro ⟨_⟩
      exact ⟨_,rfl⟩
    · rintro ⟨_,rfl⟩
      exact .uint32 _
  | uint64 =>
    rw [deserialize]
    refine integer_iff hd 8 (fun _ => rfl) ⟨?_,?_⟩
    · rintro ⟨_⟩
      exact ⟨_,rfl⟩
    · rintro ⟨_,rfl⟩
      exact .uint64 _
  | float =>
    rw [deserialize]
    refine integer_iff hd 4 (fun _ => rfl) ⟨?_,?_⟩
    · rintro ⟨_⟩
      exact ⟨_,rfl⟩
    · rintro ⟨_,rfl⟩
      exact .float _
  | double =>
    rw [deserialize]
    refine integer_iff hd 8 (fun _ => rfl) ⟨?_,?_⟩
    · rintro ⟨_⟩
      exact ⟨_,rfl⟩
    · rintro ⟨_,rfl⟩
      exact .double _
  | string =>
    rw [deserialize]
    refine wrapped_iff (Q := fun value => value.length < 2^32) (fun value => ?_) ⟨?_,?_⟩
    · rw [deserializeString_iff hd,Value.encoding,List.length_append,split_length,
        ByteOrder.places_length]
    · intro htype
      cases htype with
      | string value short => exact ⟨value,short,rfl⟩
    · rintro ⟨value,short,rfl⟩
      exact .string value short
  | bytes room length =>
    rw [deserialize]
    refine wrapped_iff (fun data => deserializeBytes_iff hd) ⟨?_,?_⟩
    · intro htype
      cases htype with
      | bytes data room length known fits => exact ⟨data,⟨known,fits⟩,rfl⟩
    · rintro ⟨data,⟨known,fits⟩,rfl⟩
      exact .bytes data room length known fits

theorem deserialize_bool {value : Bool}
    (hpre : (Value.bool value).encoding d.byteOrder <+: d.rest) :
    d.deserialize .bool = (.ok (.bool value),d.advance 1) := by
  have hread := deserializeByte_iff.mpr ⟨rfl,hpre⟩
  rw [deserialize,hread]
  cases value <;> rfl

theorem deserialize_encoding (hd : d.position ≤ d.data.length) {ty : Ty} {v : Value}
    (htype : HasType ty v) (hpre : v.encoding d.byteOrder <+: d.rest) :
    d.deserialize ty = (.ok v,d.advance (v.encoding d.byteOrder).length) := by
  by_cases hbool : ty = .bool
  · subst hbool
    cases htype
    exact deserialize_bool hpre
  · exact (deserialize_iff hd hbool).mpr ⟨htype,rfl,hpre⟩

theorem deserializeAll_encoding (hd : d.position ≤ d.data.length) {tys : List Ty} {vs : List Value}
    (htypes : List.Forall₂ HasType tys vs)
    (hpre : (vs.flatMap fun v => v.encoding d.byteOrder) <+: d.rest) :
    d.deserializeAll tys =
      (vs.map .ok,d.advance (vs.flatMap fun v => v.encoding d.byteOrder).length) := by
  induction htypes generalizing d with
  | nil => rfl
  | cons htype _ ih =>
    rw [List.flatMap_cons] at hpre ⊢
    obtain ⟨hpre,hrest⟩ := append_prefix_iff.mp hpre
    have hhead := deserialize_encoding hd htype hpre
    have htail := ih (inside_advance hd hpre) (by rwa [advance_rest])
    rw [deserializeAll,hhead,htail,List.length_append,advance_advance]
    rfl

theorem encoding_deserializeAll (hd : d.position ≤ d.data.length) {tys : List Ty}
    (hbool : .bool ∉ tys) {vs : List Value} (h : d.deserializeAll tys = (vs.map .ok,d')) :
    d' = d.advance (vs.flatMap fun v => v.encoding d.byteOrder).length ∧
      (vs.flatMap fun v => v.encoding d.byteOrder) <+: d.rest := by
  induction tys generalizing d vs with
  | nil =>
    rw [deserializeAll,Prod.mk.injEq] at h
    obtain ⟨hvs,rfl⟩ := h
    rw [List.map_eq_nil_iff.mp hvs.symm]
    exact ⟨rfl,List.nil_prefix⟩
  | cons ty tys ih =>
    rw [deserializeAll,Prod.mk.injEq] at h
    obtain ⟨hvs,hd'⟩ := h
    obtain ⟨v,vs,rfl,hv,htail⟩ := List.map_eq_cons_iff.mp hvs.symm
    rw [List.mem_cons,not_or] at hbool
    have hread : d.deserialize ty = (.ok v,(d.deserialize ty).2) := Prod.ext hv.symm rfl
    obtain ⟨_,hd₁,hpre⟩ := (deserialize_iff hd (Ne.symm hbool.1)).mp hread
    rw [hd₁] at htail hd'
    obtain ⟨hlast,hrest⟩ := ih (inside_advance hd hpre) hbool.2 (Prod.ext htail.symm hd')
    rw [List.flatMap_cons,List.length_append,← advance_advance]
    exact ⟨hlast,append_prefix_iff.mpr ⟨hpre,by rwa [advance_rest] at hrest⟩⟩

end BinaryDeserializer

/-- What was serialized is read back in full, and what is read without a `bool` would
be serialized to the bytes consumed. -/
theorem binary_round_trip (order : ByteOrder) :
    (∀ tys vs, List.Forall₂ HasType tys vs →
      ∃ s d, (BinarySerializer.mk order []).serializeAll vs = (vs.map fun _ => .ok (),s) ∧
        (BinaryDeserializer.mk s.buffer order 0).deserializeAll tys = (vs.map .ok,d) ∧
        d.hasMoreData = false) ∧
    (∀ data tys vs d, .bool ∉ tys →
      (BinaryDeserializer.mk data order 0).deserializeAll tys = (vs.map .ok,d) →
      ∃ s, (BinarySerializer.mk order []).serializeAll vs = (vs.map fun _ => .ok (),s) ∧
        s.buffer = data.take d.position) := by
  refine ⟨fun tys vs htypes => ⟨_,_,BinarySerializer.serializeAll_eq _ vs,
    BinaryDeserializer.deserializeAll_encoding (Nat.zero_le _) htypes (List.prefix_refl _),?_⟩,
    fun data tys vs d hbool hread => ⟨_,BinarySerializer.serializeAll_eq _ vs,?_⟩⟩
  · simp [BinaryDeserializer.hasMoreData,BinaryDeserializer.advance]
  · obtain ⟨rfl,hpre⟩ := BinaryDeserializer.encoding_deserializeAll (Nat.zero_le _) hbool hread
    simpa [BinaryDeserializer.advance,BinaryDeserializer.rest]
      using List.prefix_iff_eq_take.mp hpre

def greeting : List Value := [.int16 (-2),.string [104,105]]

theorem greeting_types : List.Forall₂ HasType [.int16,.string] greeting :=
  .cons (.int16 _) (.cons (.string _ (by decide)) .nil)

theorem binary_round_trip_greeting :
    (∃ s d, (BinarySerializer.mk .kLittleEndian []).serializeAll greeting =
        (greeting.map fun _ => .ok (),s) ∧
      (BinaryDeserializer.mk s.buffer .kLittleEndian 0).deserializeAll [.int16,.string] =
        (greeting.map .ok,d) ∧ d.hasMoreData = false) ∧
    (∃ s, (BinarySerializer.mk .kLittleEndian []).serializeAll [.uint16 513] = ([.ok ()],s) ∧
      s.buffer = [1,2]) :=
  ⟨(binary_round_trip .kLittleEndian).1 _ _ greeting_types,
    (binary_round_trip .kLittleEndian).2 [1,2,3] [.uint16] [.uint16 513]
      ⟨[1,2,3],.kLittleEndian,2⟩ (by decide) rfl⟩

end LapCom.Serialization
