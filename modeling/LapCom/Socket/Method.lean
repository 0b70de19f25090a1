import LapCom.Socket.Frame
import LapCom.Stream.Exact

set_option autoImplicit false

namespace LapCom.Socket.Method
open LapCom.Bytes LapCom.Serialization LapCom.Stream

/-- What a method call does to its buffers and to its connection. An access goes to `count`
bytes from `offset` in a buffer of `size` bytes, and `ParseFromArray` is handed an `int`. -/
inductive Act (M : Type) where
  | access (size offset count : Nat)
  | parse (size offset : Nat) (count : Int)
  | handle (request : M)
  | write (data : List Byte)
  | close
  deriving DecidableEq

section Buffers
variable {M V : Type}

/-- The call for the rest of `len` bytes at `base` in a buffer, again and again. -/
def recvExact (size base len : Nat) (peer : Incoming Byte) :
    List (Act M) × Except Lost (List Byte × Incoming Byte) :=
  ((receiveStarts len peer len 0).map fun off => .access size (base+off) (len-off),
    receiveAll len peer len [])

def sendExact (buffer : List Byte) (base len : Nat) (calls : Calls) : List (Act M) :=
  ((sendStarts len calls len 0).map fun off => .access buffer.length (base+off) (len-off))++
    [.write (sendAll len calls ((buffer.drop base).take len) []).1]

def serializeActs (c : Protobuf V) (message : V) : List (Act M) :=
  let messageSize := (c.serialize message).length
  if 2^32-1 < messageSize then []
  else .access (4+messageSize) 0 4 ::
    match c.serializeToArray message (asInt messageSize) with
    | none => []
    | some data => [.access (4+messageSize) 4 data.length]

def deserializeActs (data : List Byte) : List (Act M) :=
  if data.length < 4 then []
  else
    let messageSize := ntohl (data.take 4)
    .access data.length 0 4 ::
      if data.length < (4+messageSize) % 2^32 then []
      else [.parse data.length 4 (asInt messageSize)]

end Buffers

section Responder
variable {Q R : Type} (d : Protobuf R)

def sendStatus (status : BitVec 32) (calls : Nat → Calls) : List (Act Q) :=
  sendExact (htonl 4) 0 4 (calls 0)++sendExact (htonl status.toNat) 0 4 (calls 1)

/-- The envelope is sent in two or three parts. `calls k` is what the calls for the `k`-th do. -/
def respond (calls : Nat → Calls) : Except (BitVec 32) R → List (Act Q)
  | .error code => sendStatus code calls
  | .ok response =>
    serializeActs d response++
      match serializeMessage d response with
      | .error _ => sendStatus ComErrc.kSerializationError.value calls
      | .ok frame =>
        let payloadLen := (frame.length-4) % 2^32
        sendExact (htonl (4+payloadLen)) 0 4 (calls 0)++sendExact (htonl 0) 0 4 (calls 1)++
          sendExact frame 4 payloadLen (calls 2)

variable (maxMessageSize : BitVec 32) (c : Protobuf Q)
  (handler : Q → Except (BitVec 32) R)

/-- The size of the request buffer is a sum of 32 bits. -/
def serve (peer : Incoming Byte) (calls : Nat → Calls) : List (Act Q) :=
  let header := recvExact 4 0 4 peer
  header.1++
    match header.2 with
    | .error _ => []
    | .ok (networkSize,peer) =>
      let requestSize := ntohl networkSize
      if maxMessageSize.toNat < requestSize then []
      else
        let bufferSize := (4+requestSize) % 2^32
        let body := recvExact bufferSize 4 requestSize peer
        .access bufferSize 0 4 :: (body.1++
          match body.2 with
          | .error _ => []
          | .ok (payload,_) =>
            let requestBuffer := (networkSize++payload).take bufferSize
            deserializeActs requestBuffer++
              match deserializeMessage c requestBuffer with
              | .error _ => []
              | .ok request => .handle request :: respond d calls (handler request))

def handleClient (peer : Incoming Byte) (calls : Nat → Calls) : List (Act Q) :=
  serve d maxMessageSize c handler peer calls++[.close]

end Responder

/-- What the calls of one `call` do. `failure` is the code of the send or receive that fails. -/
structure Exchange where
  connect : Except (BitVec 32) Unit
  sends : Calls
  peer : Incoming Byte
  failure : BitVec 32

def lostCode (failure : BitVec 32) : Lost → BitVec 32
  | .failed => failure
  | .closed => ComErrc.kNetworkBindingFailure.value

section Caller
variable {Q R : Type} (maxMessageSize : BitVec 32) (c : Protobuf Q) (d : Protobuf R)

/-- The payload of an envelope gets a prefix of its own before it is parsed. -/
def readPayload (envelopeBuf : List Byte) : Except (BitVec 32) R × List (Act Q) :=
  let payloadLen := envelopeBuf.length-4
  let frameBuf := htonl payloadLen++envelopeBuf.drop 4
  let copies : List (Act Q) := .access frameBuf.length 0 4 ::
    if 0 < payloadLen then
      [.access envelopeBuf.length 4 payloadLen,.access frameBuf.length 4 payloadLen]
    else []
  (match deserializeMessage d frameBuf with
    | .error e => .error e.code.value
    | .ok response => .ok response,
    copies++deserializeActs frameBuf)

/-- The bound on the envelope is a sum of 32 bits. -/
def receiveResponse (peer : Incoming Byte) (failure : BitVec 32) :
    Except (BitVec 32) R × List (Act Q) :=
  let header := recvExact 4 0 4 peer
  match header.2 with
  | .error e => (.error (lostCode failure e),header.1)
  | .ok (envelopeLenNetwork,peer) =>
    let envelopeLen := ntohl envelopeLenNetwork
    if envelopeLen < 4 ∨ (maxMessageSize+4).toNat < envelopeLen then
      (.error ComErrc.kMessageTooLarge.value,header.1)
    else
      let envelope := recvExact envelopeLen 0 envelopeLen peer
      match envelope.2 with
      | .error e => (.error (lostCode failure e),header.1++envelope.1)
      | .ok (envelopeBuf,_) =>
        let acts := header.1++envelope.1++[.access envelopeLen 0 4]
        let status := BitVec.ofNat 32 (ntohl (envelopeBuf.take 4))
        if status ≠ 0 then (.error status,acts)
        else
          let read := readPayload d envelopeBuf
          (read.1,acts++read.2)

def exchange (request : Q) (x : Exchange) : Except (BitVec 32) R × List (Act Q) :=
  match serializeMessage c request with
  | .error e => (.error e.code.value,serializeActs c request)
  | .ok sendData =>
    let acts := serializeActs c request++sendExact sendData 0 sendData.length x.sends
    if (sendAll sendData.length x.sends sendData []).2 then
      let response := receiveResponse maxMessageSize d x.peer x.failure
      (response.1,acts++response.2)
    else (.error x.failure,acts)

def call (request : Q) (x : Exchange) : Except (BitVec 32) R × List (Act Q) :=
  match x.connect with
  | .error e => (.error e,[])
  | .ok () =>
    let done := exchange maxMessageSize c d request x
    (done.1,done.2++[.close])

end Caller

theorem ntohl_lt (data : List Byte) : ntohl data < 2^32 := BitVec.isLt _

theorem deserializeMessage_append {V : Type} {c : Protobuf V} {header body : List Byte}
    (hheader : header.length = 4) (hsize : ntohl header = body.length)
    (hlt : body.length < 2^31) :
    deserializeMessage c (header++body) =
      match c.parse body with
      | none => fail .kDeserializationError 0
      | some message => .ok message :=
  @deserializeMessage_frame V c ⟨header,body,hheader,hsize⟩ hlt

theorem readPayload_ok {Q R : Type} {d : Protobuf R} {envelopeBuf : List Byte}
    (h : 4 ≤ envelopeBuf.length) (hlt : envelopeBuf.length < 2^32) {v : R} :
    (readPayload (Q := Q) d envelopeBuf).1 = .ok v ↔
      envelopeBuf.length-4 < 2^31 ∧ d.parse (envelopeBuf.drop 4) = some v := by
  have hbody : (envelopeBuf.drop 4).length = envelopeBuf.length-4 := List.length_drop
  have hsize : ntohl (htonl (envelopeBuf.length-4)) = (envelopeBuf.drop 4).length := by
    rw [hbody]
    exact ntohl_htonl (by omega)
  have hread : deserializeMessage d (htonl (envelopeBuf.length-4)++envelopeBuf.drop 4) = _ :=
    @deserializeMessage_bytes R d ⟨_,_,htonl_length _,hsize⟩
      (show 4+(envelopeBuf.drop 4).length < 2^32 by omega)
  rw [← hbody,← Protobuf.parseFromArray_eq_some (by omega)]
  simp only [readPayload,hread]
  cases d.parseFromArray (envelopeBuf.drop 4) (asInt (envelopeBuf.drop 4).length) with
  | none => simp [fail]
  | some v' => simp

end LapCom.Socket.Method
