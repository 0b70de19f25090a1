import LapCom.Socket.Method

set_option autoImplicit false

namespace LapCom.Socket.Method
open LapCom.Bytes LapCom.Serialization LapCom.Stream

def Act.written {M : Type} : Act M → List Byte
  | .write data => data
  | _ => []

def written {M : Type} (acts : List (Act M)) : List Byte := acts.flatMap Act.written

/-- No call of the two ends of a connection fails. -/
structure Healthy (x : Exchange) (peer : Incoming Byte) (calls : Nat → Calls) : Prop where
  connect : x.connect = .ok ()
  sends : ∀ k, x.sends.fail k = false
  answers : ∀ k, x.peer.calls.fail k = false
  requests : ∀ k, peer.calls.fail k = false
  responses : ∀ i k, (calls i).fail k = false

section Written
variable {M V : Type}

@[simp] theorem written_append (acts acts' : List (Act M)) :
    written (acts++acts') = written acts++written acts' := by
  simp [written]

@[simp] theorem written_cons (a : Act M) (acts : List (Act M)) :
    written (a :: acts) = a.written++written acts := by
  simp [written]

@[simp] theorem written_nil : written ([] : List (Act M)) = [] := rfl

@[simp] theorem written_recvExact (size base len : Nat) (peer : Incoming Byte) :
    written (recvExact (M := M) size base len peer).1 = [] := by
  simp [written,recvExact,List.flatMap_map,Act.written]

@[simp] theorem written_serializeActs (c : Protobuf V) (message : V) :
    written (serializeActs (M := M) c message) = [] := by
  simp only [serializeActs]
  split
  · rfl
  · split <;> simp [Act.written]

@[simp] theorem written_deserializeActs (data : List Byte) :
    written (deserializeActs (M := M) data) = [] := by
  simp only [deserializeActs]
  split
  · simp
  · split <;> simp [Act.written]

theorem written_sendExact {calls : Calls} (hfail : ∀ k, calls.fail k = false)
    (buffer : List Byte) (base len : Nat) :
    written (sendExact (M := M) buffer base len calls) = (buffer.drop base).take len := by
  have hlen : ((buffer.drop base).take len).length ≤ len := by
    rw [List.length_take]
    exact Nat.min_le_left _ _
  simp only [sendExact,written_append,written_cons,written_nil,sendAll_of_not_fail hfail hlen]
  simp [written,List.flatMap_map,Act.written]

theorem recvExact_whole {size base len : Nat} {peer : Incoming Byte}
    (hfail : ∀ k, peer.calls.fail k = false) (h : len ≤ peer.input.length) :
    (recvExact (M := M) size base len peer).2 = .ok (peer.input.take len,peer.skip len) := by
  rw [recvExact,receiveAll_of_not_fail hfail h (Nat.le_refl len),List.nil_append]

theorem recvExact_framed {peer : Incoming Byte} {body : List Byte}
    (hfail : ∀ k, peer.calls.fail k = false) (hinput : peer.input = htonl body.length++body)
    (size base : Nat) :
    (recvExact (M := M) 4 0 4 peer).2 = .ok (htonl body.length,peer.skip 4) ∧
      (recvExact (M := M) size base body.length (peer.skip 4)).2 =
        .ok (body,(peer.skip 4).skip body.length) := by
  have hlen : peer.input.length = 4+body.length := by
    rw [hinput,List.length_append,htonl_length]
  have htake : peer.input.take 4 = htonl body.length := by
    rw [hinput,List.take_left' (htonl_length _)]
  have hrest : (peer.skip 4).input = body := by
    rw [Incoming.skip,hinput]
    exact List.drop_left' (htonl_length _)
  have hfail' : ∀ k, (peer.skip 4).calls.fail k = false := fun k => hfail _
  constructor
  · rw [recvExact_whole hfail (by omega),htake]
  · rw [recvExact_whole hfail' (Nat.le_of_eq (by rw [hrest])),hrest,List.take_length]

end Written

section Responder
variable {Q R : Type} {d : Protobuf R} {c : Protobuf Q}

/-- The length, the status and the payload of a response. -/
def envelope (d : Protobuf R) : Except (BitVec 32) R → List Byte
  | .error code => htonl 4++htonl code.toNat
  | .ok response => htonl (4+(d.serialize response).length)++(htonl 0++d.serialize response)

theorem written_sendStatus {calls : Nat → Calls} (hfail : ∀ i k, (calls i).fail k = false)
    (status : BitVec 32) :
    written (sendStatus (Q := Q) status calls) = htonl 4++htonl status.toNat := by
  have htake (n : Nat) : (htonl n).take 4 = htonl n := List.take_of_length_le (by simp)
  simp only [sendStatus,written_append,written_sendExact (hfail _),List.drop_zero,htake]

theorem written_respond {calls : Nat → Calls} (hfail : ∀ i k, (calls i).fail k = false)
    {outcome : Except (BitVec 32) R}
    (hsize : ∀ v, outcome = .ok v → (d.serialize v).length < 2^31) :
    written (respond (Q := Q) d calls outcome) = envelope d outcome := by
  cases outcome with
  | error code => exact written_sendStatus hfail code
  | ok response =>
    have hlt := hsize response rfl
    have htake (n : Nat) : (htonl n).take 4 = htonl n := List.take_of_length_le (by simp)
    have hpayload : (htonl (d.serialize response).length++d.serialize response).length-4 =
        (d.serialize response).length := by
      rw [List.length_append,htonl_length]
      omega
    have hdrop : (htonl (d.serialize response).length++d.serialize response).drop 4 =
        d.serialize response := List.drop_left' (htonl_length _)
    simp only [respond,serializeMessage_of_lt hlt,hpayload,
      Nat.mod_eq_of_lt (show (d.serialize response).length < 2^32 by omega),
      written_append,written_serializeActs,written_sendExact (hfail _),List.drop_zero,htake,hdrop,
      List.take_length,List.nil_append,List.append_assoc,envelope]

theorem written_respond_of_le {calls : Nat → Calls} (hfail : ∀ i k, (calls i).fail k = false)
    {response : R} (hsize : 2^31 ≤ (d.serialize response).length) :
    written (respond (Q := Q) d calls (.ok response)) =
      envelope d (.error ComErrc.kSerializationError.value) := by
  obtain ⟨e,he⟩ := serializeMessage_of_le hsize
  rw [respond,written_append,written_serializeActs,he,List.nil_append]
  exact written_sendStatus hfail _

/-- A request that arrives whole reaches the handler, and nothing is written before. -/
theorem serve_whole (maxMessageSize : BitVec 32) (handler : Q → Except (BitVec 32) R)
    (request : Q) {peer : Incoming Byte} (hfail : ∀ k, peer.calls.fail k = false)
    (hinput : peer.input = htonl (c.serialize request).length++c.serialize request)
    (hsize : (c.serialize request).length ≤ maxMessageSize.toNat)
    (hint : (c.serialize request).length < 2^31) (calls : Nat → Calls) :
    ∃ acts, serve d maxMessageSize c handler peer calls =
        acts++.handle request :: respond d calls (handler request) ∧ written acts = [] := by
  have hnet : ntohl (htonl (c.serialize request).length) = (c.serialize request).length :=
    ntohl_htonl_of_size hint
  have hmod : (4+(c.serialize request).length) % 2^32 = 4+(c.serialize request).length :=
    Nat.mod_eq_of_lt (by omega)
  have hbuffer : (htonl (c.serialize request).length++c.serialize request).take
      (4+(c.serialize request).length) =
        htonl (c.serialize request).length++c.serialize request :=
    List.take_of_length_le (by simp)
  obtain ⟨hheader,hbody⟩ := recvExact_framed (M := Q) hfail hinput
    (4+(c.serialize request).length) 4
  simp only [serve,hheader,hnet,
    if_neg (show ¬ maxMessageSize.toNat < (c.serialize request).length by omega),hmod,hbody,
    hbuffer,deserializeMessage_append (htonl_length _) hnet hint,c.parse_serialize]
  refine ⟨(recvExact 4 0 4 peer).1++.access (4+(c.serialize request).length) 0 4 ::
    ((recvExact (4+(c.serialize request).length) 4 (c.serialize request).length
      (peer.skip 4)).1++deserializeActs
        (htonl (c.serialize request).length++c.serialize request)),?_,?_⟩
  · simp
  · simp [Act.written]

end Responder

section Caller
variable {Q R : Type} {c : Protobuf Q} {d : Protobuf R}

theorem written_readPayload (envelopeBuf : List Byte) :
    written (readPayload (Q := Q) d envelopeBuf).2 = [] := by
  simp only [readPayload,written_append,written_cons,written_deserializeActs,Act.written]
  split <;> simp [Act.written]

theorem written_receiveResponse (maxMessageSize : BitVec 32) (peer : Incoming Byte)
    (failure : BitVec 32) :
    written (receiveResponse (Q := Q) maxMessageSize d peer failure).2 = [] := by
  simp only [receiveResponse]
  split
  · simp
  · split
    · simp
    · split
      · simp
      · split
        · simp [Act.written]
        · simp [Act.written,written_readPayload]

theorem exchange_whole (maxMessageSize : BitVec 32) (request : Q) {x : Exchange}
    (hfail : ∀ k, x.sends.fail k = false) (hsize : (c.serialize request).length < 2^31) :
    (exchange maxMessageSize c d request x).1 =
        (receiveResponse (Q := Q) maxMessageSize d x.peer x.failure).1 ∧
      written (exchange maxMessageSize c d request x).2 =
        htonl (c.serialize request).length++c.serialize request := by
  simp only [exchange,serializeMessage_of_lt hsize,
    sendAll_of_not_fail hfail (Nat.le_refl _),if_true,written_append,written_serializeActs,
    written_sendExact hfail,written_receiveResponse,List.drop_zero,List.take_length,
    List.nil_append,List.append_nil,and_self]

theorem receiveResponse_whole {maxMessageSize : BitVec 32} {peer : Incoming Byte}
    {body : List Byte} (hfail : ∀ k, peer.calls.fail k = false)
    (hinput : peer.input = htonl body.length++body) (hbody : 4 ≤ body.length)
    (hsize : body.length ≤ maxMessageSize.toNat+4) (hmax : maxMessageSize.toNat+4 < 2^32)
    (failure : BitVec 32) :
    (receiveResponse (Q := Q) maxMessageSize d peer failure).1 =
      if BitVec.ofNat 32 (ntohl (body.take 4)) ≠ 0 then
        .error (BitVec.ofNat 32 (ntohl (body.take 4)))
      else (readPayload (Q := Q) d body).1 := by
  have hnet : ntohl (htonl body.length) = body.length := ntohl_htonl (by omega)
  have hsum : (maxMessageSize+4).toNat = maxMessageSize.toNat+4 := by
    rw [BitVec.toNat_add]
    exact Nat.mod_eq_of_lt hmax
  obtain ⟨hheader,henvelope⟩ := recvExact_framed (M := Q) hfail hinput body.length 0
  simp only [receiveResponse,hheader,hnet,hsum,
    if_neg (show ¬ (body.length < 4 ∨ maxMessageSize.toNat+4 < body.length) by omega),henvelope]
  split <;> rfl

/-- An outcome that arrives whole is the result, unless it is an error that says success. -/
theorem receiveResponse_envelope {maxMessageSize : BitVec 32} {peer : Incoming Byte}
    {outcome : Except (BitVec 32) R} (hfail : ∀ k, peer.calls.fail k = false)
    (hinput : peer.input = envelope d outcome) (hcode : outcome ≠ .error 0)
    (hsize : ∀ v, outcome = .ok v → (d.serialize v).length ≤ maxMessageSize.toNat)
    (hint : ∀ v, outcome = .ok v → (d.serialize v).length < 2^31)
    (hmax : maxMessageSize.toNat+4 < 2^32) (failure : BitVec 32) :
    (receiveResponse (Q := Q) maxMessageSize d peer failure).1 = outcome := by
  cases outcome with
  | error code =>
    have htake : (htonl code.toNat).take 4 = htonl code.toNat := List.take_of_length_le (by simp)
    have hstatus : BitVec.ofNat 32 (ntohl (htonl code.toNat)) = code := by
      rw [ntohl_htonl code.isLt,BitVec.ofNat_toNat,BitVec.setWidth_eq]
    have hne : code ≠ 0 := fun hzero => hcode (by rw [hzero])
    have harrived : peer.input = htonl (htonl code.toNat).length++htonl code.toNat := by
      rw [hinput,htonl_length]
      rfl
    rw [receiveResponse_whole hfail harrived (by simp) (by simp) hmax,htake,hstatus,if_pos hne]
  | ok response =>
    have hlen : (htonl 0++d.serialize response).length = 4+(d.serialize response).length := by
      rw [List.length_append,htonl_length]
    have hle := hsize response rfl
    have hstatus : BitVec.ofNat 32 (ntohl ((htonl 0++d.serialize response).take 4)) = 0 := by
      rw [List.take_left' (htonl_length _),ntohl_htonl (by decide)]
      rfl
    have harrived : peer.input = htonl (htonl 0++d.serialize response).length++
        (htonl 0++d.serialize response) := by
      rw [hinput,hlen]
      rfl
    rw [receiveResponse_whole hfail harrived (by omega) (by omega) hmax,hstatus,
      if_neg (by simp)]
    have hlt := hint response rfl
    refine (readPayload_ok (by omega) (by omega)).mpr ⟨by omega,?_⟩
    rw [List.drop_left' (htonl_length _),d.parse_serialize]

end Caller

/-- Each end reads what the other one writes. -/
structure Joined {Q R : Type} (c : Protobuf Q) (d : Protobuf R)
    (handler : Q → Except (BitVec 32) R) (callerMax responderMax : BitVec 32) (request : Q)
    (x : Exchange) (peer : Incoming Byte) (calls : Nat → Calls) : Prop where
  requests : peer.input = written (call callerMax c d request x).2
  responses : x.peer.input = written (handleClient d responderMax c handler peer calls)

section Call
variable {Q R : Type} {c : Protobuf Q} {d : Protobuf R} {handler : Q → Except (BitVec 32) R}
  {callerMax responderMax : BitVec 32} {request : Q} {x : Exchange} {peer : Incoming Byte}
  {calls : Nat → Calls}

/-- The caller gets the outcome that the responder has put on the wire. -/
theorem call_of_envelope {outcome : Except (BitVec 32) R} (hhealthy : Healthy x peer calls)
    (hjoined : Joined c d handler callerMax responderMax request x peer calls)
    (hcaller : callerMax.toNat+4 < 2^32)
    (hrequest : (c.serialize request).length ≤ responderMax.toNat)
    (hint : (c.serialize request).length < 2^31)
    (hsent : written (respond (Q := Q) d calls (handler request)) = envelope d outcome)
    (hsize : ∀ v, outcome = .ok v → (d.serialize v).length ≤ callerMax.toNat)
    (houtcome : ∀ v, outcome = .ok v → (d.serialize v).length < 2^31)
    (hcode : outcome ≠ .error 0) :
    (call callerMax c d request x).1 = outcome := by
  obtain ⟨hresult,hwritten⟩ :=
    exchange_whole (d := d) callerMax request (x := x) hhealthy.sends hint
  have hrequests : peer.input = htonl (c.serialize request).length++c.serialize request := by
    rw [hjoined.requests,call,hhealthy.connect]
    simp [hwritten,Act.written]
  obtain ⟨acts,hserve,hquiet⟩ := serve_whole (d := d) responderMax handler request
    hhealthy.requests hrequests hrequest hint calls
  have hresponses : x.peer.input = envelope d outcome := by
    rw [hjoined.responses,handleClient,hserve]
    simp [hquiet,hsent,Act.written]
  rw [call,hhealthy.connect]
  exact hresult.trans (receiveResponse_envelope hhealthy.answers hresponses hcode hsize
    houtcome hcaller x.failure)

/-- A remote call is a call of the handler, however both directions are divided. -/
theorem call_eq_handler (hhealthy : Healthy x peer calls)
    (hjoined : Joined c d handler callerMax responderMax request x peer calls)
    (hcaller : callerMax.toNat+4 < 2^32)
    (hrequest : (c.serialize request).length ≤ callerMax.toNat ∧
      (c.serialize request).length ≤ responderMax.toNat ∧ (c.serialize request).length < 2^31)
    (hresponse : ∀ v, handler request = .ok v → (d.serialize v).length ≤ callerMax.toNat ∧
      (d.serialize v).length ≤ responderMax.toNat ∧ (d.serialize v).length < 2^31)
    (hcode : handler request ≠ .error 0) :
    (call callerMax c d request x).1 = handler request :=
  call_of_envelope hhealthy hjoined hcaller hrequest.2.1 hrequest.2.2
    (written_respond hhealthy.responses fun v hv => (hresponse v hv).2.2)
    (fun v hv => (hresponse v hv).1) (fun v hv => (hresponse v hv).2.2) hcode

/-- A response of 2 GiB or more is lost, and the caller gets an error. -/
theorem call_of_le (hhealthy : Healthy x peer calls)
    (hjoined : Joined c d handler callerMax responderMax request x peer calls)
    (hcaller : callerMax.toNat+4 < 2^32)
    (hrequest : (c.serialize request).length ≤ responderMax.toNat)
    (hint : (c.serialize request).length < 2^31) {v : R} (hv : handler request = .ok v)
    (hresponse : 2^31 ≤ (d.serialize v).length) :
    (call callerMax c d request x).1 = .error ComErrc.kSerializationError.value := by
  have hsent : written (respond (Q := Q) d calls (handler request)) =
      envelope d (.error ComErrc.kSerializationError.value) := by
    rw [hv,written_respond_of_le hhealthy.responses hresponse]
  exact call_of_envelope hhealthy hjoined hcaller hrequest hint hsent (fun w hw => (by cases hw))
    (fun w hw => (by cases hw)) fun h => absurd (Except.error.inj h) (by decide)

end Call

def steady : Calls := ⟨fun _ => true,fun _ => false⟩

def steadyExchange (response : List Byte) : Exchange := ⟨.ok (),steady,⟨response,steady⟩,0⟩

theorem steady_healthy (request response : List Byte) :
    Healthy (steadyExchange response) ⟨request,steady⟩ fun _ => steady :=
  ⟨rfl,fun _ => rfl,fun _ => rfl,fun _ => rfl,fun _ _ => rfl⟩

theorem call_eq_handler_steady :
    (call 1024 valueInt valueInt 5 (steadyExchange [0,0,0,6,0,0,0,0,8,5])).1 = .ok 5 := by
  have hjoined : Joined valueInt valueInt .ok 1024 1024 5
      (steadyExchange [0,0,0,6,0,0,0,0,8,5]) ⟨[0,0,0,2,8,5],steady⟩ fun _ => steady :=
    ⟨by decide +kernel,by decide +kernel⟩
  refine call_eq_handler (steady_healthy _ _) hjoined (by decide) (by decide) ?_ nofun
  intro v hv
  cases hv
  decide

def zeroError : BitVec 7 → Except (BitVec 32) (BitVec 7) := fun _ => .error 0

/-- An error of code 0 comes back as the value that has no bytes. -/
theorem call_zero_error :
    Healthy (steadyExchange [0,0,0,4,0,0,0,0]) ⟨[0,0,0,2,8,5],steady⟩ (fun _ => steady) ∧
    Joined valueInt valueInt zeroError 1024 1024 5 (steadyExchange [0,0,0,4,0,0,0,0])
      ⟨[0,0,0,2,8,5],steady⟩ (fun _ => steady) ∧
    (call 1024 valueInt valueInt 5 (steadyExchange [0,0,0,4,0,0,0,0])).1 = .ok 0 ∧
    zeroError 5 ≠ .ok 0 := by
  refine ⟨steady_healthy _ _,⟨?_,?_⟩,?_,nofun⟩
  · decide +kernel
  · decide +kernel
  · have hresult : (call 1024 valueInt valueInt 5
        (steadyExchange [0,0,0,4,0,0,0,0])).1.toOption = some 0 := by decide +kernel
    cases hcall : (call 1024 valueInt valueInt 5 (steadyExchange [0,0,0,4,0,0,0,0])).1 with
    | error e =>
      rw [hcall] at hresult
      cases hresult
    | ok v =>
      rw [hcall] at hresult
      cases hresult
      rfl

def twoSizes (n : Nat) (h : n ≠ 0) : Protobuf Bool :=
  { serialize := fun large => if large then List.replicate n 0 else []
    parse := fun data => some !data.isEmpty
    parse_serialize := fun large => (by cases large <;> simp [h]) }

theorem twoSizes_length (n : Nat) (h : n ≠ 0) : ((twoSizes n h).serialize true).length = n :=
  List.length_replicate

def answerLarge : BitVec 7 → Except (BitVec 32) Bool := fun _ => .ok true

/-- The bounds on the messages are as large as they may be. -/
theorem call_large_response {n : Nat} (hn : n ≠ 0) (h : 2^31 ≤ n) :
    Healthy (steadyExchange [0,0,0,4,0,0,0,21]) ⟨[0,0,0,2,8,5],steady⟩ (fun _ => steady) ∧
    Joined valueInt (twoSizes n hn) answerLarge 4294967291 4294967291 5
      (steadyExchange [0,0,0,4,0,0,0,21]) ⟨[0,0,0,2,8,5],steady⟩ (fun _ => steady) ∧
    (call 4294967291 valueInt (twoSizes n hn) 5 (steadyExchange [0,0,0,4,0,0,0,21])).1 =
      .error ComErrc.kSerializationError.value := by
  have hhealthy := steady_healthy [0,0,0,2,8,5] [0,0,0,4,0,0,0,21]
  have hlarge : 2^31 ≤ ((twoSizes n hn).serialize true).length := by rwa [twoSizes_length]
  have hexchange := (exchange_whole (c := valueInt) (d := twoSizes n hn) 4294967291 5
    hhealthy.sends (by decide)).2
  obtain ⟨acts,hserve,hquiet⟩ := serve_whole (c := valueInt) (d := twoSizes n hn) 4294967291
    answerLarge 5 hhealthy.requests (by decide +kernel) (by decide) (by decide)
    fun _ => steady
  have hjoined : Joined valueInt (twoSizes n hn) answerLarge 4294967291 4294967291 5
      (steadyExchange [0,0,0,4,0,0,0,21]) ⟨[0,0,0,2,8,5],steady⟩ (fun _ => steady) := by
    refine ⟨?_,?_⟩
    · rw [call,hhealthy.connect]
      simp only [written_append,hexchange]
      decide +kernel
    · have hsent := written_respond_of_le (Q := BitVec 7) hhealthy.responses hlarge
      rw [handleClient,hserve,written_append,written_append,hquiet,written_cons,answerLarge,hsent,
        envelope]
      decide +kernel
  exact ⟨hhealthy,hjoined,call_of_le hhealthy hjoined (by decide) (by decide) (by decide) rfl
    hlarge⟩

/-- Where a response says success with an error, or is larger than an `int`, a call is something
else than the handler. -/
theorem call_ne_handler :
    (Healthy (steadyExchange [0,0,0,4,0,0,0,0]) ⟨[0,0,0,2,8,5],steady⟩ (fun _ => steady) ∧
      Joined valueInt valueInt zeroError 1024 1024 5 (steadyExchange [0,0,0,4,0,0,0,0])
        ⟨[0,0,0,2,8,5],steady⟩ (fun _ => steady) ∧
      (call 1024 valueInt valueInt 5 (steadyExchange [0,0,0,4,0,0,0,0])).1 = .ok 0 ∧
      zeroError 5 ≠ .ok 0) ∧
    Healthy (steadyExchange [0,0,0,4,0,0,0,21]) ⟨[0,0,0,2,8,5],steady⟩ (fun _ => steady) ∧
    Joined valueInt (twoSizes 2147483648 (by decide)) answerLarge 4294967291 4294967291 5
      (steadyExchange [0,0,0,4,0,0,0,21]) ⟨[0,0,0,2,8,5],steady⟩ (fun _ => steady) ∧
    ((twoSizes 2147483648 (by decide)).serialize true).length = 2147483648 ∧
    (call 4294967291 valueInt (twoSizes 2147483648 (by decide)) 5
      (steadyExchange [0,0,0,4,0,0,0,21])).1 = .error ComErrc.kSerializationError.value ∧
    answerLarge 5 = .ok true := by
  obtain ⟨hhealthy,hjoined,hresult⟩ := call_large_response (n := 2147483648) (by decide) (by decide)
  exact ⟨call_zero_error,hhealthy,hjoined,twoSizes_length _ _,hresult,rfl⟩

end LapCom.Socket.Method
