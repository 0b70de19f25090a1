import LapCom.Socket.Frame
import LapCom.Socket.Network

set_option autoImplicit false

namespace LapCom.Socket
open LapCom.Stream

inductive Request (V : Type) where
  | get
  | set (v : V)
  | subscribe
  | unsubscribe
  deriving DecidableEq

structure SocketFieldServer (V : Type) where
  value : V
  subscribers : FdSet
  net : Network

/-- What `clientLoop` has done: the requests it executed, and the server after them. -/
structure ClientLoop (V : Type) where
  server : SocketFieldServer V
  executed : List (Request V)

section Server
variable {V : Type} (c : Protobuf V)

namespace SocketFieldServer

def sendValue (s : SocketFieldServer V) (fd : Nat) : SocketFieldServer V :=
  match serializeMessage c s.value with
  | .error _ => s
  | .ok data => { s with net := (s.net.send fd data).1 }

/-- The loop copies the value anew for each subscriber; here nobody changes it meanwhile. -/
def notifySubscribers (s : SocketFieldServer V) : SocketFieldServer V :=
  match serializeMessage c s.value with
  | .error _ => { s with subscribers := s.subscribers.fds.foldl FdSet.erase s.subscribers }
  | .ok data =>
    let sent := sendTo data s.subscribers.fds s.net []
    { s with subscribers := sent.2.foldl FdSet.erase s.subscribers, net := sent.1 }

def setLocal (s : SocketFieldServer V) (v : V) : SocketFieldServer V :=
  ({ s with value := v } : SocketFieldServer V).notifySubscribers c

def execute (fd : Nat) (s : SocketFieldServer V) : Request V → SocketFieldServer V
  | .get => s.sendValue c fd
  | .set v => (({ s with value := v } : SocketFieldServer V).sendValue c fd).notifySubscribers c
  | .subscribe =>
    ({ s with subscribers := s.subscribers.insert fd } : SocketFieldServer V).sendValue c fd
  | .unsubscribe => { s with subscribers := s.subscribers.erase fd }

end SocketFieldServer

/-- The request switch. An empty or malformed SET and an unknown operation are ignored. -/
def requestOf (op : Byte) (payload : List Byte) : Option (Request V) :=
  match op.toNat with
  | 0 => some .get
  | 1 => if payload.length > 0 then (c.parse payload).map Request.set else none
  | 2 => some .subscribe
  | 3 => some .unsubscribe
  | _ => none

def ClientLoop.onFrame (fd : Nat) (l : ClientLoop V) (buf : List Byte) : ClientLoop V :=
  match buf.drop 4 with
  | [] => l
  | op :: payload =>
    match requestOf c op payload with
    | none => l
    | some q => { server := l.server.execute c fd q, executed := l.executed++[q] }

def clientLoop (fd : Nat) (l : Loop Byte (ClientLoop V)) (r : Reader Byte) :
    Loop Byte (ClientLoop V) :=
  l.drain format (ClientLoop.onFrame c fd) r

end Server

def buildRequestFrame (op : Byte) (payload : List Byte) : Result (List Byte) :=
  if 1 <<< 30 < payload.length then fail .kInvalidArgument 0
  else .ok (htonl (1+payload.length)++op :: payload)

/-- Arguments that `buildRequestFrame` takes. -/
structure RequestFrame where
  op : Byte
  payload : List Byte
  h : payload.length ≤ 1 <<< 30

namespace RequestFrame
variable {V : Type} (c : Protobuf V)

def bytes (q : RequestFrame) : List Byte := htonl (1+q.payload.length)++q.op :: q.payload

theorem buildRequestFrame_eq (q : RequestFrame) :
    buildRequestFrame q.op q.payload = .ok q.bytes :=
  if_neg (Nat.not_lt.mpr q.h)

def size (q : RequestFrame) : Nat := 4+(1+q.payload.length)

def accepted (q : RequestFrame) : Option (Request V) :=
  if maxLength < 1+q.payload.length then none else requestOf c q.op q.payload

def frame (q : RequestFrame) : Frame format :=
  frameOf (q.op :: q.payload) (by
    have := q.h
    rw [List.length_cons]
    omega)

theorem frame_bytes (q : RequestFrame) : q.frame.bytes = q.bytes := by
  exact congrArg (fun n => htonl n++q.op :: q.payload) (Nat.add_comm q.payload.length 1)

theorem frame_body_length (q : RequestFrame) : q.frame.body.length = 1+q.payload.length := by
  rw [Nat.add_comm]
  rfl

end RequestFrame

def requestBytes (qs : List RequestFrame) : List Byte := (qs.map RequestFrame.bytes).flatten

section Requests
variable {V : Type} {c : Protobuf V} {fd : Nat}

theorem stream_frames (qs : List RequestFrame) :
    stream (qs.map RequestFrame.frame) = requestBytes qs := by
  rw [stream,List.map_map,requestBytes]
  exact congrArg _ (List.map_congr_left fun q _ => q.frame_bytes)

theorem sizes_frames (qs : List RequestFrame) :
    sizes (qs.map RequestFrame.frame) = qs.map RequestFrame.size := by
  rw [sizes,List.map_map]
  exact List.map_congr_left fun q _ => congrArg (4+·) q.frame_body_length

theorem ClientLoop.onFrame_frame (l : ClientLoop V) (q : RequestFrame) :
    l.onFrame c fd q.frame.bytes =
      match requestOf c q.op q.payload with
      | none => l
      | some r => { server := l.server.execute c fd r, executed := l.executed++[r] } := by
  have hdrop : q.frame.bytes.drop 4 = q.op :: q.payload := by
    have := q.frame.drop_header []
    rwa [List.append_nil,List.append_nil] at this
  simp only [onFrame,hdrop]

def Request.payload (c : Protobuf V) : Request V → List Byte
  | .set v => c.serialize v
  | _ => []

def ClientLoop.weigh (c : Protobuf V) (l : ClientLoop V) : Nat :=
  (l.executed.map fun q => 5+(q.payload c).length).sum

theorem requestOf_payload (hshort : c.Shortest) {op : Byte} {payload : List Byte} {q : Request V}
    (h : requestOf c op payload = some q) : (q.payload c).length ≤ payload.length := by
  rw [requestOf] at h
  split at h
  · cases h
    exact Nat.zero_le _
  · split at h
    · obtain ⟨v,hparse,rfl⟩ := Option.map_eq_some_iff.mp h
      exact hshort _ _ hparse
    · cases h
  · cases h
    exact Nat.zero_le _
  · cases h
    exact Nat.zero_le _
  · cases h

theorem ClientLoop.weigh_onFrame (hshort : c.Shortest) (l : ClientLoop V) (buf : List Byte) :
    (l.onFrame c fd buf).weigh c ≤ l.weigh c+buf.length := by
  rw [onFrame]
  split
  · exact Nat.le_add_right _ _
  · next op payload hdrop =>
    have hlen := congrArg List.length hdrop
    rw [List.length_drop,List.length_cons] at hlen
    split
    · exact Nat.le_add_right _ _
    · next q hq =>
      have hpayload := requestOf_payload hshort hq
      simp only [weigh,List.map_append,List.map_cons,List.map_nil,List.sum_append,List.sum_cons,
        List.sum_nil]
      omega

theorem ClientLoop.onFrame_requests {qs : List RequestFrame}
    (hsize : ∀ q, q ∈ qs → 1+q.payload.length ≤ maxLength) (l : ClientLoop V) :
    (((qs.map RequestFrame.frame).filter fun fr => decide fr.Read).map Frame.bytes).foldl
        (onFrame c fd) l =
      { server := (qs.filterMap (RequestFrame.accepted c)).foldl
          (SocketFieldServer.execute c fd) l.server
        executed := l.executed++qs.filterMap (RequestFrame.accepted c) } := by
  induction qs generalizing l with
  | nil => simp
  | cons q qs ih =>
    have hlen : 1+q.payload.length ≤ maxLength := hsize q List.mem_cons_self
    have hread : q.frame.Read := by
      refine ⟨List.cons_ne_nil _ _,?_⟩
      rw [q.frame_body_length]
      exact hlen
    have hacc : q.accepted c = requestOf c q.op q.payload := if_neg (by omega)
    rw [List.map_cons,List.filter_cons_of_pos (by simpa using hread),List.map_cons,
      List.foldl_cons,ih fun q h => hsize q (List.mem_cons_of_mem _ h),onFrame_frame]
    cases hq : requestOf c q.op q.payload with
    | none => rw [List.filterMap_cons_none (hacc.trans hq)]
    | some r =>
      rw [List.filterMap_cons_some (hacc.trans hq)]
      simp

/-- A frame whose payload is no longer than what the operation needs. -/
def RequestFrame.Tight (c : Protobuf V) (q : RequestFrame) : Prop :=
  ∃ r, q.accepted c = some r ∧ q.payload.length ≤ (r.payload c).length

theorem sum_size_le_weigh {qs : List RequestFrame} (htight : ∀ q, q ∈ qs → q.Tight c) :
    (qs.map RequestFrame.size).sum ≤
      ((qs.filterMap (RequestFrame.accepted c)).map fun q => 5+(q.payload c).length).sum := by
  induction qs with
  | nil => exact Nat.le_refl _
  | cons q qs ih =>
    obtain ⟨r,hr,hlen⟩ := htight q List.mem_cons_self
    have hrest := ih fun q h => htight q (List.mem_cons_of_mem _ h)
    rw [List.filterMap_cons_some hr]
    simp only [List.map_cons,List.sum_cons,RequestFrame.size]
    omega

theorem requestBytes_length (qs : List RequestFrame) :
    (requestBytes qs).length = (qs.map RequestFrame.size).sum := by
  rw [requestBytes,List.length_flatten,List.map_map]
  refine congrArg List.sum (List.map_congr_left fun q _ => ?_)
  show (q.bytes).length = q.size
  rw [RequestFrame.bytes,List.length_append,htonl_length,List.length_cons,RequestFrame.size,
    Nat.add_comm 1]

/-- Where no prefix is split and no frame is too long the loop executes just the accepted
requests. Of requests that fill their frames it executes all only if no prefix is split. -/
theorem requests_executed (c : Protobuf V) (s : SocketFieldServer V) (fd : Nat)
    (qs : List RequestFrame) (cut : Nat → Bool) :
    let done := clientLoop c fd ⟨.header,⟨s,[]⟩⟩ ⟨requestBytes qs,cut⟩
    let accepted := qs.filterMap (RequestFrame.accepted c)
    (WholeHeaders 4 cut (qs.map RequestFrame.size) →
      (∀ q, q ∈ qs → 1+q.payload.length ≤ maxLength) →
      done = ⟨.header,⟨accepted.foldl (SocketFieldServer.execute c fd) s,accepted⟩⟩) ∧
    (c.Shortest → (∀ q, q ∈ qs → q.Tight c) →
      (done.state.executed = accepted ↔ WholeHeaders 4 cut (qs.map RequestFrame.size))) := by
  intro done accepted
  have hdone : WholeHeaders 4 cut (qs.map RequestFrame.size) →
      (∀ q, q ∈ qs → 1+q.payload.length ≤ maxLength) →
      done = ⟨.header,⟨accepted.foldl (SocketFieldServer.execute c fd) s,accepted⟩⟩ := by
    intro hwhole hsize
    show clientLoop c fd _ _ = _
    rw [clientLoop,← stream_frames,Loop.drain_stream (by rw [sizes_frames]; exact hwhole),
      ClientLoop.onFrame_requests hsize]
    · rfl
    · intro fr hfr
      obtain ⟨q,hq,rfl⟩ := List.mem_map.mp hfr
      rw [q.frame_body_length]
      exact hsize q hq
  refine ⟨hdone,fun hshort htight => ?_⟩
  have hsize : ∀ q, q ∈ qs → 1+q.payload.length ≤ maxLength := by
    intro q hq
    obtain ⟨r,hr,_⟩ := htight q hq
    rw [RequestFrame.accepted] at hr
    split at hr
    · cases hr
    · omega
  constructor
  · intro h
    have hlimit : ∀ fr, fr ∈ qs.map RequestFrame.frame → fr.body.length ≤ format.limit := by
      intro fr hfr
      obtain ⟨q,hq,rfl⟩ := List.mem_map.mp hfr
      rw [q.frame_body_length]
      exact hsize q hq
    have hweight : ClientLoop.weigh c (⟨s,[]⟩ : ClientLoop V)+
        (stream (qs.map RequestFrame.frame)).length ≤
        ClientLoop.weigh c ((⟨.header,⟨s,[]⟩⟩ : Loop Byte (ClientLoop V)).drain format
          (ClientLoop.onFrame c fd) ⟨stream (qs.map RequestFrame.frame),cut⟩).state := by
      rw [stream_frames,requestBytes_length]
      show 0+_ ≤ ClientLoop.weigh c done.state
      rw [ClientLoop.weigh,h,Nat.zero_add]
      exact sum_size_le_weigh htight
    rw [← sizes_frames]
    exact (Loop.whole_of_weight (ClientLoop.weigh c) (ClientLoop.weigh_onFrame hshort) hlimit
      hweight).1
  · intro h
    rw [hdone h hsize]

end Requests

def fieldServer : SocketFieldServer (BitVec 7) :=
  { value := 1
    subscribers := FdSet.empty.insert 3
    net := { written := fun _ => [], calls := fun _ => ⟨fun _ => false,fun _ => false⟩ } }

theorem requests_executed_two :
    (clientLoop valueInt 3 ⟨.header,⟨fieldServer,[]⟩⟩
        ⟨requestBytes [⟨0,[],by decide⟩,⟨1,[8,5],by decide⟩],fun k => k == 3⟩).state.executed =
      [⟨0,[],by decide⟩,⟨1,[8,5],by decide⟩].filterMap (RequestFrame.accepted valueInt) ↔
    WholeHeaders 4 (fun k => k == 3)
      ([⟨0,[],by decide⟩,⟨1,[8,5],by decide⟩].map RequestFrame.size) := by
  refine (requests_executed valueInt fieldServer 3 [⟨0,[],by decide⟩,⟨1,[8,5],by decide⟩]
    fun k => k == 3).2 valueInt_shortest fun q hq => ?_
  rcases List.mem_cons.mp hq with rfl | hq
  · exact ⟨.get,rfl,Nat.le_refl _⟩
  · obtain rfl := List.mem_singleton.mp hq
    exact ⟨.set 5,by decide +kernel,by decide⟩

def longGet (rest : List Byte) (h : 4+rest.length ≤ 1 <<< 30) : RequestFrame :=
  { op := 0
    payload := ([0,0,1,3] : List Byte)++rest
    h := by
      rw [List.length_append]
      exact h }

theorem longGet_body (rest : List Byte) (h : 4+rest.length ≤ 1 <<< 30) :
    (longGet rest h).frame.body = RequestFrame.bytes ⟨3,[],by decide⟩++rest := by
  have hbytes : RequestFrame.bytes ⟨3,[],by decide⟩ = [0,0,0,1,3] := by decide +kernel
  rw [hbytes]
  rfl

theorem ClientLoop.onFrame_keeps (l : ClientLoop (BitVec 7)) (buf : List Byte)
    (h : l.executed ≠ []) : (l.onFrame valueInt 3 buf).executed ≠ [] := by
  rw [onFrame]
  split
  · exact h
  · split
    · exact h
    · exact List.append_ne_nil_of_right_ne_nil _ (List.cons_ne_nil _ _)

/-- A request that is refused for its length is executed as what its payload says. -/
theorem longGet_executed {rest : List Byte} {h : 4+rest.length ≤ 1 <<< 30}
    (hlong : maxLength < 5+rest.length) :
    (clientLoop valueInt 3 ⟨.header,⟨fieldServer,[]⟩⟩
      ⟨requestBytes [longGet rest h],fun _ => false⟩).state.executed ≠ [] := by
  let q : RequestFrame := ⟨3,[],by decide⟩
  have hlimit : format.limit < (longGet rest h).frame.body.length := by
    rw [longGet_body,List.length_append]
    exact hlong
  have hbody : (longGet rest h).frame.body = q.frame.bytes++rest := by
    rw [longGet_body,q.frame_bytes]
  rw [clientLoop,← stream_frames,List.map_cons,stream_cons,
    Loop.drain_oversize rfl hlimit,hbody,List.append_assoc,
    Loop.drain_frame rfl ⟨List.cons_ne_nil _ _,by decide⟩]
  exact Loop.drain_invariant (I := fun l : ClientLoop (BitVec 7) => l.executed ≠ [])
    ClientLoop.onFrame_keeps (by decide +kernel) _

theorem longGet_refused {rest : List Byte} {h : 4+rest.length ≤ 1 <<< 30}
    (hlong : maxLength < 5+rest.length) : (longGet rest h).accepted valueInt = none := by
  apply if_pos
  rw [longGet,List.length_append]
  show maxLength < 1+(4+rest.length)
  omega

/-- A split prefix loses two GET requests, and a refused frame is executed as another. -/
theorem requests_misread :
    (clientLoop valueInt 3 ⟨.header,⟨fieldServer,[]⟩⟩
        ⟨requestBytes [⟨0,[],by decide⟩,⟨0,[],by decide⟩],fun k => k == 3⟩).state.executed ≠
      [⟨0,[],by decide⟩,⟨0,[],by decide⟩].filterMap (RequestFrame.accepted valueInt) ∧
    ∃ h, (clientLoop valueInt 3 ⟨.header,⟨fieldServer,[]⟩⟩
        ⟨requestBytes [longGet (List.replicate maxLength 0) h],fun _ => false⟩).state.executed ≠
      [longGet (List.replicate maxLength 0) h].filterMap (RequestFrame.accepted valueInt) := by
  have hlong : maxLength < 5+(List.replicate maxLength (0 : Byte)).length := by
    rw [List.length_replicate]
    omega
  refine ⟨by decide +kernel,?_,?_⟩
  · rw [List.length_replicate]
    decide
  · rw [List.filterMap_cons_none (longGet_refused hlong)]
    exact longGet_executed hlong

end LapCom.Socket
