import LapCom.Socket.Frame

set_option autoImplicit false

namespace LapCom.Socket
open LapCom.Bytes LapCom.Serialization

/-- A message class with the calls that `ProtobufSerializer` makes. `SerializeToArray` takes the
size as an `int`. -/
structure MessageLite (V : Type) extends Protobuf V where
  byteSizeLong : V → Nat
  serializeToArray : V → Nat → Option (List Byte)
  byteSizeLong_eq : ∀ v, byteSizeLong v = (serialize v).length
  serializeToArray_eq : ∀ v, (serialize v).length < 2^31 →
    serializeToArray v (serialize v).length = some (serialize v)

structure ProtobufSerializer where
  buffer : List Byte

structure Span where
  bytes : List Byte
  size_lt : bytes.length < 2^64

structure ProtobufDeserializer where
  data : Span
  position : Nat

section Serializer
variable {V : Type} (m : MessageLite V)

namespace ProtobufSerializer

def new : ProtobufSerializer := ⟨[]⟩

/-- Where `SerializeToArray` fails, the prefix stays in the buffer, before zeros. -/
def serializeMessage (s : ProtobufSerializer) (message : V) : Result Unit × ProtobufSerializer :=
  let messageSize := m.byteSizeLong message
  if 2^32-1 < messageSize then (fail .kMessageTooLarge 0,s)
  else match m.serializeToArray message messageSize with
    | none => (fail .kSerializationError 0,⟨htonl messageSize++List.replicate messageSize 0⟩)
    | some data =>
      (.ok (),⟨htonl messageSize++(data++List.replicate (messageSize-data.length) 0)⟩)

def getData (s : ProtobufSerializer) : List Byte := s.buffer

def reset (_s : ProtobufSerializer) : ProtobufSerializer := ⟨[]⟩

def writeReused : ProtobufSerializer → List V → List (Result Unit × List Byte)
  | _, [] => []
  | s, message :: rest =>
    let done := s.serializeMessage m message
    (done.1,done.2.getData) :: writeReused done.2 rest

def writeFresh (messages : List V) : List (Result Unit × List Byte) :=
  messages.map fun message =>
    let done := new.serializeMessage m message
    (done.1,done.2.getData)

end ProtobufSerializer

namespace ProtobufDeserializer

def new (data : Span) : ProtobufDeserializer := ⟨data,0⟩

def remaining (d : ProtobufDeserializer) : Nat := (d.data.bytes.length+2^64-d.position) % 2^64

/-- The size of a frame is a sum of 32 bits. -/
def deserializeMessage (d : ProtobufDeserializer) : Result V × ProtobufDeserializer :=
  if d.remaining < 4 then (fail .kInvalidArgument 0,d)
  else
    let messageSize := ntohl ((d.data.bytes.drop d.position).take 4)
    if d.remaining < (4+messageSize) % 2^32 then (fail .kInvalidArgument 0,d)
    else match m.parseFromArray (d.data.bytes.drop (d.position+4)) (asInt messageSize) with
      | none => (fail .kDeserializationError 0,d)
      | some message =>
        (.ok message,{ d with position := (d.position+(4+messageSize) % 2^32) % 2^64 })

def hasMoreData (d : ProtobufDeserializer) : Bool := d.position < d.data.bytes.length

def reset (d : ProtobufDeserializer) : ProtobufDeserializer := { d with position := 0 }

/-- Calls of `DeserializeMessage`, each after one of `HasMoreData`. -/
def readEach : Nat → ProtobufDeserializer → List (Bool × Result V) × ProtobufDeserializer
  | 0, d => ([],d)
  | n+1, d =>
    let done := d.deserializeMessage m
    let rest := readEach n done.2
    ((d.hasMoreData,done.1) :: rest.1,rest.2)

end ProtobufDeserializer

/-- The messages come out of the data, one for each call, and nothing is left behind the last. -/
structure Decodes (data : Span) (messages : List V) : Prop where
  decoded : (ProtobufDeserializer.readEach m messages.length (.new data)).1 =
    messages.map fun message => (true,.ok message)
  exhausted :
    (ProtobufDeserializer.readEach m messages.length (.new data)).2.hasMoreData = false

variable {m}

/-- Whatever the serializer has written before, it writes the frame. -/
theorem ProtobufSerializer.serializeMessage_of_lt {message : V}
    (h : (m.serialize message).length < 2^31) (s : ProtobufSerializer) :
    s.serializeMessage m message =
      (.ok (),⟨htonl (m.serialize message).length++m.serialize message⟩) := by
  rw [serializeMessage,m.byteSizeLong_eq]
  simp only [m.serializeToArray_eq message h]
  rw [if_neg (by omega),Nat.sub_self,List.replicate_zero,List.append_nil]

/-- The serializer writes what the responder and the caller send. -/
theorem ProtobufSerializer.serializeMessage_frame {message : V}
    (h : (m.serialize message).length < 2^31) (s : ProtobufSerializer) :
    Socket.serializeMessage m.toProtobuf message =
      .ok (s.serializeMessage m message).2.getData := by
  rw [serializeMessage_of_lt h s,Socket.serializeMessage_of_lt h]
  rfl

theorem ProtobufSerializer.writeReused_eq {messages : List V}
    (h : ∀ v, v ∈ messages → (m.serialize v).length < 2^31) (s : ProtobufSerializer) :
    s.writeReused m messages =
      messages.map fun v => (.ok (),htonl (m.serialize v).length++m.serialize v) := by
  induction messages generalizing s with
  | nil => rfl
  | cons v vs ih =>
    rw [writeReused,serializeMessage_of_lt (h v List.mem_cons_self) s,List.map_cons,
      ih fun w hw => h w (List.mem_cons_of_mem _ hw)]
    rfl

/-- A `Reset` changes nothing of what is written after it. -/
theorem ProtobufSerializer.writeReused_reset {messages : List V}
    (h : ∀ v, v ∈ messages → (m.serialize v).length < 2^31) (s : ProtobufSerializer) :
    s.reset.writeReused m messages = s.writeReused m messages := by
  rw [writeReused_eq h,writeReused_eq h]

theorem ProtobufSerializer.writeFresh_eq {messages : List V}
    (h : ∀ v, v ∈ messages → (m.serialize v).length < 2^31) :
    writeFresh m messages =
      messages.map fun v => (.ok (),htonl (m.serialize v).length++m.serialize v) := by
  apply List.map_congr_left
  intro v hv
  rw [serializeMessage_of_lt (h v hv) new]
  rfl

namespace ProtobufDeserializer
variable {d : ProtobufDeserializer}

theorem remaining_eq (h : d.position ≤ d.data.bytes.length) :
    d.remaining = d.data.bytes.length-d.position := by
  have hlt := d.data.size_lt
  rw [remaining]
  omega

/-- A first call reads what the responder and the caller read. -/
theorem deserializeMessage_new (data : Span) :
    ((new data).deserializeMessage m).1 = Socket.deserializeMessage m.toProtobuf data.bytes := by
  have hremaining : (new data).remaining = data.bytes.length := remaining_eq (Nat.zero_le _)
  rw [deserializeMessage,Socket.deserializeMessage,hremaining]
  simp only [new,List.drop_zero,Nat.zero_add]
  split_ifs
  · rfl
  · rfl
  · cases m.parseFromArray (data.bytes.drop 4) (asInt (ntohl (data.bytes.take 4))) with
    | none => rfl
    | some v => rfl

/-- A call at the start of a frame reads it, and stops behind it. -/
theorem deserializeMessage_frame {v : V} {before after : List Byte}
    (hdata : d.data.bytes = before++(htonl (m.serialize v).length++m.serialize v)++after)
    (hposition : d.position = before.length) (hlt : (m.serialize v).length < 2^31) :
    d.deserializeMessage m =
      (.ok v,{ d with position := before.length+(4+(m.serialize v).length) }) := by
  have hlength : d.data.bytes.length = before.length+(4+(m.serialize v).length)+after.length := by
    rw [hdata,List.length_append,List.length_append,List.length_append,htonl_length]
  have hremaining := remaining_eq (d := d) (by omega)
  have hsize := d.data.size_lt
  have hheader : (d.data.bytes.drop d.position).take 4 = htonl (m.serialize v).length := by
    rw [hdata,hposition]
    simp [List.append_assoc]
  have hbody : (d.data.bytes.drop (d.position+4)).take (m.serialize v).length =
      m.serialize v := by
    rw [← List.drop_drop,hdata,hposition]
    simp [List.append_assoc]
  rw [deserializeMessage,if_neg (by omega)]
  simp only [hheader,ntohl_htonl_of_size hlt,
    Protobuf.parseFromArray_of_lt hlt,hbody,m.parse_serialize]
  rw [if_neg (by omega),hposition,Nat.mod_eq_of_lt (by omega),Nat.mod_eq_of_lt (by omega)]

/-- The induction is on the messages that are still to come. -/
theorem readEach_wire {messages : List V}
    (h : ∀ v, v ∈ messages → (m.serialize v).length < 2^31) {before : List Byte}
    (hdata : d.data.bytes = before++wire m.toProtobuf messages)
    (hposition : d.position = before.length) :
    (d.readEach m messages.length).1 = messages.map (fun v => (true,.ok v)) ∧
      (d.readEach m messages.length).2.hasMoreData = false := by
  induction messages generalizing d before with
  | nil =>
    refine ⟨rfl,?_⟩
    have hend : d.data.bytes.length = before.length := by simp [hdata,wire]
    simp [readEach,hasMoreData,hposition,hend]
  | cons v vs ih =>
    have hframe : d.data.bytes =
        before++(htonl (m.serialize v).length++m.serialize v)++wire m.toProtobuf vs := by
      rw [hdata]
      simp [wire]
    have hstep := deserializeMessage_frame hframe hposition (h v List.mem_cons_self)
    have hmore : d.hasMoreData = true := by
      simp [hasMoreData,hframe,hposition]
    obtain ⟨hdecoded,hexhausted⟩ := ih (fun w hw => h w (List.mem_cons_of_mem _ hw))
      (d := { d with position := before.length+(4+(m.serialize v).length) }) hframe (by simp)
    rw [List.length_cons,readEach,hstep]
    refine ⟨?_,hexhausted⟩
    rw [List.map_cons,hmore]
    exact congrArg _ hdecoded

theorem readEach_data (n : Nat) (d : ProtobufDeserializer) :
    (d.readEach m n).2.data = d.data := by
  induction n generalizing d with
  | zero => rfl
  | succ n ih =>
    rw [readEach]
    refine (ih _).trans ?_
    simp only [deserializeMessage]
    split_ifs
    · rfl
    · rfl
    · split
      · rfl
      · rfl

theorem readEach_reset (n : Nat) (data : Span) :
    ((new data).readEach m n).2.reset = new data := by
  rw [reset,readEach_data]
  rfl

end ProtobufDeserializer

/-- Both ways of writing the messages succeed, and their frames decode. -/
theorem frames_decode {messages : List V}
    (h : ∀ v, v ∈ messages → (m.serialize v).length < 2^31) (s : ProtobufSerializer)
    {written : List (Result Unit × List Byte)}
    (hwritten : written = s.writeReused m messages ∨
      written = ProtobufSerializer.writeFresh m messages) :
    (∀ r, r ∈ written → r.1 = .ok ()) ∧
      ∀ data : Span, data.bytes = (written.map Prod.snd).flatten → Decodes m data messages := by
  have heq : written =
      messages.map fun v => (.ok (),htonl (m.serialize v).length++m.serialize v) := by
    rcases hwritten with hreused | hfresh
    · exact hreused.trans (ProtobufSerializer.writeReused_eq h s)
    · exact hfresh.trans (ProtobufSerializer.writeFresh_eq h)
  subst heq
  refine ⟨fun r hr => ?_,fun data hdata => ?_⟩
  · obtain ⟨v,-,rfl⟩ := List.mem_map.mp hr
    rfl
  · have hwire : data.bytes = []++wire m.toProtobuf messages := by
      rw [hdata,List.map_map]
      rfl
    obtain ⟨hdecoded,hexhausted⟩ := ProtobufDeserializer.readEach_wire
      (d := .new data) h hwire rfl
    exact ⟨hdecoded,hexhausted⟩

end Serializer

def valueIntMessage : MessageLite (BitVec 7) :=
  { valueInt with
    byteSizeLong := fun v => if v = 0 then 0 else 2
    serializeToArray := fun v size =>
      if size < (valueInt.serialize v).length then none else some (valueInt.serialize v)
    byteSizeLong_eq := by decide
    serializeToArray_eq := by decide }

/-- The first and the last message have no bytes. -/
theorem frames_decode_valueInt :
    Decodes valueIntMessage ⟨[0,0,0,0,0,0,0,2,8,5,0,0,0,0],by decide⟩ [0,5,0] :=
  (frames_decode (by decide) .new (.inl rfl)).2 _ (by decide)

end LapCom.Socket
