import LapCom.Serialization.Binary
import LapCom.Stream.Framing

set_option autoImplicit false

namespace LapCom.Socket
open LapCom.Bytes LapCom.Serialization LapCom.Stream

/-- What the generated class of a message does. -/
structure Protobuf (V : Type) where
  serialize : V → List Byte
  parse : List Byte → Option V
  parse_serialize : ∀ v, parse (serialize v) = some v

/-- No bytes shorter than the encoding of a value parse as that value. A negative `int32` is written
in a varint of ten bytes, and one of five parses as the same. -/
def Protobuf.Shortest {V : Type} (c : Protobuf V) : Prop :=
  ∀ data v, c.parse data = some v → (c.serialize v).length ≤ data.length

def htonl (n : Nat) : List Byte := split (ByteOrder.kBigEndian.places 4) (BitVec.ofNat 32 n)

def ntohl (data : List Byte) : Nat :=
  (join (0 : BitVec 32) (ByteOrder.kBigEndian.places 4) data).toNat

@[simp] theorem htonl_length (n : Nat) : (htonl n).length = 4 := by
  rw [htonl,split_length,ByteOrder.places_length]

theorem ntohl_htonl {n : Nat} (h : n < 2^32) : ntohl (htonl n) = n := by
  have hjoin : join 0 (ByteOrder.kBigEndian.places 4)
      (split (ByteOrder.kBigEndian.places 4) (BitVec.ofNat (8*4) n)) = BitVec.ofNat (8*4) n :=
    join_split (fun p hp => ByteOrder.mem_places.mpr hp) _
  rw [ntohl,htonl]
  exact (congrArg BitVec.toNat hjoin).trans ((BitVec.toNat_ofNat n 32).trans (Nat.mod_eq_of_lt h))

theorem ntohl_htonl_of_size {n : Nat} (h : n < 2^31) : ntohl (htonl n) = n :=
  ntohl_htonl (Nat.lt_trans h (by decide))

def maxLength : Nat := 10 <<< 20

def format : Format Byte :=
  { width := 4, width_pos := by decide, length := ntohl, limit := maxLength }

def frameOf (body : List Byte) (h : body.length < 2^32) : Frame format :=
  { header := htonl body.length
    body := body
    header_length := htonl_length _
    length_header := ntohl_htonl h }

def asInt (n : Nat) : Int := (BitVec.ofNat 32 n).toInt

theorem asInt_of_lt {n : Nat} (h : n < 2^31) : asInt n = n := by
  rw [asInt,BitVec.toInt_ofNat',Int.bmod]
  omega

theorem asInt_of_le {n : Nat} (h : 2^31 ≤ n) (hlt : n < 2^32) : asInt n < 0 := by
  rw [asInt,BitVec.toInt_ofNat',Int.bmod]
  omega

section Protobuf
variable {V : Type} (c : Protobuf V)

def Protobuf.serializeToArray (message : V) (size : Int) : Option (List Byte) :=
  if size < (c.serialize message).length then none else some (c.serialize message)

/-- Nothing is parsed where the size is negative. -/
def Protobuf.parseFromArray (data : List Byte) (size : Int) : Option V :=
  if size < 0 then none else c.parse (data.take size.toNat)

def serializeMessage (message : V) : Result (List Byte) :=
  let messageSize := (c.serialize message).length
  if 2^32-1 < messageSize then fail .kMessageTooLarge 0
  else
    match c.serializeToArray message (asInt messageSize) with
    | none => fail .kSerializationError 0
    | some data => .ok (htonl messageSize++data)

/-- The sum with the size of the prefix is one of 32 bits. -/
def deserializeMessage (data : List Byte) : Result V :=
  if data.length < 4 then fail .kInvalidArgument 0
  else
    let messageSize := ntohl (data.take 4)
    if data.length < (4+messageSize) % 2^32 then fail .kInvalidArgument 0
    else
      match c.parseFromArray (data.drop 4) (asInt messageSize) with
      | none => fail .kDeserializationError 0
      | some message => .ok message

variable {c}

theorem Protobuf.parseFromArray_of_lt {data : List Byte} {n : Nat} (h : n < 2^31) :
    c.parseFromArray data (asInt n) = c.parse (data.take n) := by
  rw [parseFromArray,asInt_of_lt h,if_neg (by omega),Int.toNat_natCast]

theorem Protobuf.parseFromArray_eq_some {data : List Byte} (h : data.length < 2^32) {v : V} :
    c.parseFromArray data (asInt data.length) = some v ↔
      data.length < 2^31 ∧ c.parse data = some v := by
  by_cases hlt : data.length < 2^31
  · rw [parseFromArray_of_lt hlt,List.take_length]
    exact ⟨fun hparse => ⟨hlt,hparse⟩,fun hparse => hparse.2⟩
  · rw [parseFromArray,if_pos (asInt_of_le (by omega) h)]
    exact ⟨fun hparse => (by cases hparse),fun hparse => absurd hparse.1 hlt⟩

theorem serializeMessage_of_lt {message : V} (h : (c.serialize message).length < 2^31) :
    serializeMessage c message = .ok (htonl (c.serialize message).length++c.serialize message) := by
  have hwritten : c.serializeToArray message (asInt (c.serialize message).length) =
      some (c.serialize message) := by
    rw [Protobuf.serializeToArray,asInt_of_lt h,if_neg (by omega)]
  simp only [serializeMessage,hwritten]
  rw [if_neg (by omega)]

/-- An encoding of 2 GiB or more is not written. -/
theorem serializeMessage_of_le {message : V} (h : 2^31 ≤ (c.serialize message).length) :
    ∃ e, serializeMessage c message = .error e := by
  simp only [serializeMessage]
  split
  · exact ⟨_,rfl⟩
  · next hlt =>
    have hneg := asInt_of_le h (by omega)
    rw [Protobuf.serializeToArray,if_pos (by omega)]
    exact ⟨_,rfl⟩

theorem serializeMessage_eq_ok {message : V} {data : List Byte} :
    serializeMessage c message = .ok data ↔ (c.serialize message).length < 2^31 ∧
      data = htonl (c.serialize message).length++c.serialize message := by
  by_cases h : (c.serialize message).length < 2^31
  · rw [serializeMessage_of_lt h]
    exact ⟨fun hdata => ⟨h,(Except.ok.inj hdata).symm⟩,fun hdata => hdata.2 ▸ rfl⟩
  · obtain ⟨e,he⟩ := serializeMessage_of_le (Nat.le_of_not_lt h)
    rw [he]
    exact ⟨fun hdata => (by cases hdata),fun hdata => absurd hdata.1 h⟩

theorem deserializeMessage_bytes {fr : Frame format} (h : 4+fr.body.length < 2^32) :
    deserializeMessage c fr.bytes =
      match c.parseFromArray fr.body (asInt fr.body.length) with
      | none => fail .kDeserializationError 0
      | some message => .ok message := by
  have hlen : fr.bytes.length = 4+fr.body.length := fr.bytes_length
  have htake : fr.bytes.take 4 = fr.header := by
    have := fr.take_header []
    rwa [List.append_nil] at this
  have hdrop : fr.bytes.drop 4 = fr.body := by
    have := fr.drop_header []
    rwa [List.append_nil,List.append_nil] at this
  have hsize : ntohl fr.header = fr.body.length := fr.length_header
  simp only [deserializeMessage,htake,hdrop,hsize,hlen,Nat.mod_eq_of_lt h]
  rw [if_neg (by omega),if_neg (by omega)]

theorem deserializeMessage_frame {fr : Frame format} (h : fr.body.length < 2^31) :
    deserializeMessage c fr.bytes =
      match c.parse fr.body with
      | none => fail .kDeserializationError 0
      | some message => .ok message := by
  rw [deserializeMessage_bytes (by omega),Protobuf.parseFromArray_of_lt h,List.take_length]

theorem deserializeMessage_length (hshort : c.Shortest) {data : List Byte} {message : V}
    (h : deserializeMessage c data = .ok message) :
    4+(c.serialize message).length ≤ data.length := by
  simp only [deserializeMessage] at h
  split at h
  · cases h
  · split at h
    · cases h
    · split at h
      · cases h
      · next hparse =>
        cases h
        rw [Protobuf.parseFromArray] at hparse
        split at hparse
        · cases hparse
        · have hle := hshort _ _ hparse
          rw [List.length_take,List.length_drop] at hle
          omega

def wire (c : Protobuf V) (vs : List V) : List Byte :=
  (vs.map fun v => htonl (c.serialize v).length++c.serialize v).flatten

theorem wire_append (vs ws : List V) : wire c (vs++ws) = wire c vs++wire c ws := by
  simp [wire]

theorem wire_length (vs : List V) :
    (wire c vs).length = (vs.map fun v => 4+(c.serialize v).length).sum := by
  simp [wire,List.length_flatten,Function.comp_def]

theorem exists_frames (vs : List V) (h : ∀ v, v ∈ vs → (c.serialize v).length < 2^32) :
    ∃ frs : List (Frame format), frs.map Frame.body = vs.map c.serialize ∧
      stream frs = wire c vs ∧ sizes frs = vs.map fun v => 4+(c.serialize v).length := by
  induction vs with
  | nil => exact ⟨[],rfl,rfl,rfl⟩
  | cons v vs ih =>
    obtain ⟨frs,hbody,hbytes,hsizes⟩ := ih fun v hv => h v (List.mem_cons_of_mem _ hv)
    refine ⟨frameOf _ (h v List.mem_cons_self) :: frs,?_,?_,?_⟩
    · rw [List.map_cons,hbody]
      rfl
    · rw [stream_cons,hbytes]
      rfl
    · rw [sizes,List.map_cons,← sizes,hsizes]
      rfl

end Protobuf

/-- The message `ValueInt`, with values of one varint byte. Its default has no bytes. -/
def valueInt : Protobuf (BitVec 7) :=
  { serialize := fun v => if v = 0 then [] else [8,v.setWidth 8]
    parse := fun data =>
      match data with
      | [] => some 0
      | [tag,b] => if tag = 8 ∧ b < 128 then some (b.setWidth 7) else none
      | _ => none
    parse_serialize := by decide }

theorem valueInt_shortest : valueInt.Shortest := by
  intro data v h
  match data with
  | [] =>
    cases h
    exact Nat.le_refl 0
  | [tag,b] =>
    show (if v = 0 then [] else [8,v.setWidth 8]).length ≤ 2
    split
    · exact Nat.zero_le 2
    · exact Nat.le_refl 2
  | [_] | _ :: _ :: _ :: _ => cases h

end LapCom.Socket
