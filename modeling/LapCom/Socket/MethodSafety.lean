import LapCom.Socket.Method

set_option autoImplicit false

namespace LapCom.Socket.Method
open LapCom.Bytes LapCom.Serialization LapCom.Stream

namespace Act
variable {M : Type}

def Within : Act M → Prop
  | .access size offset count => offset+count ≤ size
  | .parse size offset count => 0 ≤ count → offset+count ≤ size
  | _ => True

def isClose : Act M → Bool
  | .close => true
  | _ => false

def request? : Act M → Option M
  | .handle request => some request
  | _ => none

/-- An act on the buffers, in bounds, or a write. Where `small` holds, no parse is handed a
negative size. -/
def Plain (small : Prop) : Act M → Prop
  | .access size offset count => offset+count ≤ size
  | .parse size offset count => (0 ≤ count → offset+count ≤ size) ∧ (small → 0 ≤ count)
  | .write _ => True
  | _ => False

end Act

section Plain
variable {M V : Type} {small : Prop}

theorem recvExact_plain {size base len : Nat} (h : base+len ≤ size) (peer : Incoming Byte) :
    ∀ a ∈ (recvExact (M := M) size base len peer).1, a.Plain small := by
  intro a ha
  obtain ⟨off,hoff,rfl⟩ := List.mem_map.mp ha
  have hbounds := mem_receiveStarts hoff
  show base+off+(len-off) ≤ size
  omega

theorem sendExact_plain {buffer : List Byte} {base len : Nat} (h : base+len ≤ buffer.length)
    (calls : Calls) : ∀ a ∈ sendExact (M := M) buffer base len calls, a.Plain small := by
  intro a ha
  rcases List.mem_append.mp ha with ha | ha
  · obtain ⟨off,hoff,rfl⟩ := List.mem_map.mp ha
    have hbounds := mem_sendStarts hoff
    show base+off+(len-off) ≤ buffer.length
    omega
  · obtain rfl := List.mem_singleton.mp ha
    trivial

theorem serializeActs_plain (c : Protobuf V) (message : V) :
    ∀ a ∈ serializeActs (M := M) c message, a.Plain small := by
  intro a ha
  simp only [serializeActs] at ha
  split at ha
  · simp at ha
  · rcases List.mem_cons.mp ha with rfl | ha
    · show 0+4 ≤ 4+_
      omega
    · split at ha
      · simp at ha
      · next data hdata =>
        obtain rfl := List.mem_singleton.mp ha
        rw [Protobuf.serializeToArray] at hdata
        split at hdata
        · cases hdata
        · cases hdata
          exact Nat.le_refl _

/-- The sum in the check is exact where the prefix leaves room for it. -/
theorem deserializeActs_plain {data : List Byte} (h : 4+ntohl (data.take 4) < 2^32)
    (hsmall : small → ntohl (data.take 4) < 2^31) :
    ∀ a ∈ deserializeActs (M := M) data, a.Plain small := by
  intro a ha
  simp only [deserializeActs,Nat.mod_eq_of_lt h] at ha
  split at ha
  · simp at ha
  · rcases List.mem_cons.mp ha with rfl | ha
    · show 0+4 ≤ data.length
      omega
    · split at ha
      · simp at ha
      · obtain rfl := List.mem_singleton.mp ha
        by_cases hint : ntohl (data.take 4) < 2^31
        · refine ⟨fun _ => ?_,fun _ => ?_⟩
          · rw [asInt_of_lt hint]
            omega
          · rw [asInt_of_lt hint]
            omega
        · have hneg := asInt_of_le (n := ntohl (data.take 4)) (by omega) (by omega)
          exact ⟨fun hnonneg => absurd hneg (by omega),fun hholds => absurd (hsmall hholds) hint⟩

end Plain

theorem recvExact_ok {M : Type} {size base len : Nat} {peer rest : Incoming Byte}
    {data : List Byte} (h : (recvExact (M := M) size base len peer).2 = .ok (data,rest)) :
    len ≤ peer.input.length ∧ data = peer.input.take len ∧ rest = peer.skip len := by
  obtain ⟨hlen,hdata,hrest⟩ := receiveAll_ok h
  exact ⟨hlen,by rw [hdata,List.nil_append],hrest⟩

section Responder
variable {Q R : Type} (d : Protobuf R) (maxMessageSize : BitVec 32) (c : Protobuf Q)
  (handler : Q → Except (BitVec 32) R)

theorem sendStatus_plain (status : BitVec 32) (calls : Nat → Calls) :
    ∀ a ∈ sendStatus (Q := Q) status calls, a.Plain True := by
  rw [sendStatus,List.forall_mem_append]
  exact ⟨sendExact_plain (by simp) _,sendExact_plain (by simp) _⟩

theorem respond_plain (calls : Nat → Calls) (outcome : Except (BitVec 32) R) :
    ∀ a ∈ respond (Q := Q) d calls outcome, a.Plain True := by
  cases outcome with
  | error code => exact sendStatus_plain code calls
  | ok response =>
    rw [respond,List.forall_mem_append]
    refine ⟨serializeActs_plain d response,?_⟩
    cases hframe : serializeMessage d response with
    | error e => exact sendStatus_plain _ calls
    | ok frame =>
      have hlen : (frame.length-4) % 2^32 ≤ frame.length-4 := Nat.mod_le _ _
      have hfour : 4 ≤ frame.length := by
        rw [(serializeMessage_eq_ok.mp hframe).2]
        simp
      simp only [List.forall_mem_append]
      exact ⟨⟨sendExact_plain (by simp) _,sendExact_plain (by simp) _⟩,
        sendExact_plain (by omega) _⟩

/-- A request of `L` bytes with the prefix `L`, at the beginning of the stream. -/
def Framed (input : List Byte) (request : Q) : Prop :=
  4 ≤ input.length ∧ ntohl (input.take 4) ≤ maxMessageSize.toNat ∧
    4+ntohl (input.take 4) ≤ input.length ∧
    c.parse ((input.drop 4).take (ntohl (input.take 4))) = some request

/-- The run of a responder, cut where it calls the handler. -/
theorem serve_cases (hmax : maxMessageSize.toNat < 2^31) (peer : Incoming Byte)
    (calls : Nat → Calls) :
    (∀ a ∈ serve d maxMessageSize c handler peer calls, a.Plain True) ∨
      ∃ before request after, serve d maxMessageSize c handler peer calls =
          before++.handle request :: after ∧
        (∀ a ∈ before, a.Plain True) ∧ (∀ a ∈ after, a.Plain True) ∧
        Framed maxMessageSize c peer.input request := by
  have hheader : ∀ a ∈ (recvExact (M := Q) 4 0 4 peer).1, a.Plain True :=
    recvExact_plain (by omega) peer
  simp only [serve]
  cases h₁ : (recvExact (M := Q) 4 0 4 peer).2 with
  | error e =>
    left
    simpa using hheader
  | ok result =>
    obtain ⟨networkSize,rest⟩ := result
    obtain ⟨hlen,hnet,rfl⟩ := recvExact_ok h₁
    have hnet4 : networkSize.length = 4 := by
      rw [hnet,List.length_take]
      omega
    by_cases hlarge : maxMessageSize.toNat < ntohl networkSize
    · left
      simpa [hlarge] using hheader
    · have hmod : (4+ntohl networkSize) % 2^32 = 4+ntohl networkSize :=
        Nat.mod_eq_of_lt (by omega)
      simp only [if_neg hlarge,hmod]
      have hbody : ∀ a ∈ (recvExact (M := Q) (4+ntohl networkSize) 4 (ntohl networkSize)
          (peer.skip 4)).1, a.Plain True := recvExact_plain (by omega) _
      have hcopy : (Act.access (M := Q) (4+ntohl networkSize) 0 4).Plain True := by
        show 0+4 ≤ 4+ntohl networkSize
        omega
      cases h₂ : (recvExact (M := Q) (4+ntohl networkSize) 4 (ntohl networkSize)
          (peer.skip 4)).2 with
      | error e =>
        left
        simp only [List.append_nil,List.forall_mem_append,List.forall_mem_cons]
        exact ⟨hheader,hcopy,hbody⟩
      | ok result =>
        obtain ⟨payload,rest⟩ := result
        obtain ⟨hrest,hpayload,_⟩ := recvExact_ok h₂
        rw [Incoming.skip,List.length_drop] at hrest
        have hsize : ntohl networkSize = payload.length := by
          rw [hpayload,Incoming.skip,List.length_take,List.length_drop]
          omega
        have hbuffer : (networkSize++payload).take (4+ntohl networkSize) =
            networkSize++payload := by
          rw [List.take_of_length_le]
          rw [List.length_append]
          omega
        have htake : (networkSize++payload).take 4 = networkSize := by
          rw [← hnet4,List.take_left]
        have hread : ∀ a ∈ deserializeActs (M := Q) (networkSize++payload), a.Plain True := by
          apply deserializeActs_plain
          · rw [htake]
            omega
          · rw [htake]
            exact fun _ => by omega
        simp only [hbuffer,deserializeMessage_append hnet4 hsize (by omega)]
        cases hparse : c.parse payload with
        | none =>
          left
          simp only [fail,List.append_nil,List.forall_mem_append,List.forall_mem_cons]
          exact ⟨hheader,hcopy,hbody,hread⟩
        | some request =>
          right
          refine ⟨(recvExact 4 0 4 peer).1++.access (4+ntohl networkSize) 0 4 ::
            ((recvExact (4+ntohl networkSize) 4 (ntohl networkSize) (peer.skip 4)).1++
              deserializeActs (networkSize++payload)),request,
            respond d calls (handler request),?_,?_,respond_plain d calls _,?_⟩
          · simp
          · simp only [List.forall_mem_append,List.forall_mem_cons]
            exact ⟨hheader,hcopy,hbody,hread⟩
          · rw [Framed,← hnet]
            refine ⟨hlen,by omega,by omega,?_⟩
            rw [← hparse,hpayload]
            rfl

/-- The acts of a responder are safe and its handler is called for a framed request only. -/
structure Served (input : List Byte) (acts : List (Act Q)) : Prop where
  within : ∀ a ∈ acts, a.Within
  sizes : ∀ size offset count, .parse size offset count ∈ acts → 0 ≤ count
  closed : acts.countP Act.isClose = 1
  handled : (acts.filterMap Act.request?).length ≤ 1
  framed : ∀ request, .handle request ∈ acts → Framed maxMessageSize c input request

end Responder

section Caller
variable {Q R : Type} (maxMessageSize : BitVec 32) (c : Protobuf Q) (d : Protobuf R)

theorem readPayload_plain {small : Prop} {envelopeBuf : List Byte} (h : 4 ≤ envelopeBuf.length)
    (hlt : envelopeBuf.length < 2^32) (hsmall : small → envelopeBuf.length-4 < 2^31) :
    ∀ a ∈ (readPayload (Q := Q) d envelopeBuf).2, a.Plain small := by
  have htake : ntohl ((htonl (envelopeBuf.length-4)++envelopeBuf.drop 4).take 4) =
      envelopeBuf.length-4 := by
    rw [List.take_left' (htonl_length _)]
    exact ntohl_htonl (by omega)
  have hframe : (htonl (envelopeBuf.length-4)++envelopeBuf.drop 4).length =
      envelopeBuf.length := by
    rw [List.length_append,htonl_length,List.length_drop]
    omega
  simp only [readPayload,List.forall_mem_append,List.forall_mem_cons,hframe]
  refine ⟨⟨?_,?_⟩,deserializeActs_plain (by omega) (by rwa [htake])⟩
  · show 0+4 ≤ envelopeBuf.length
    omega
  · intro a ha
    split at ha
    · simp only [List.mem_cons,List.not_mem_nil,or_false] at ha
      rcases ha with rfl | rfl
      · show 4+(envelopeBuf.length-4) ≤ envelopeBuf.length
        omega
      · show 4+(envelopeBuf.length-4) ≤ envelopeBuf.length
        omega
    · simp at ha

/-- An envelope of `n` bytes with the prefix `n`, a zero status and the payload of `v`. -/
def Enveloped (input : List Byte) (v : R) : Prop :=
  4 ≤ input.length ∧ 4 ≤ ntohl (input.take 4) ∧
    ntohl (input.take 4) ≤ maxMessageSize.toNat+4 ∧ 4+ntohl (input.take 4) ≤ input.length ∧
    ntohl ((input.drop 4).take 4) = 0 ∧
    d.parse ((input.drop 8).take (ntohl (input.take 4)-4)) = some v

theorem receiveResponse_safe (peer : Incoming Byte) (failure : BitVec 32) :
    (∀ a ∈ (receiveResponse (Q := Q) maxMessageSize d peer failure).2,
      a.Plain (maxMessageSize.toNat < 2^31)) ∧
      ∀ v, (receiveResponse (Q := Q) maxMessageSize d peer failure).1 = .ok v →
        Enveloped maxMessageSize d peer.input v := by
  have hheader : ∀ a ∈ (recvExact (M := Q) 4 0 4 peer).1, a.Plain (maxMessageSize.toNat < 2^31) :=
    recvExact_plain (by omega) peer
  simp only [receiveResponse]
  cases h₁ : (recvExact (M := Q) 4 0 4 peer).2 with
  | error e => exact ⟨hheader,fun v hv => by cases hv⟩
  | ok result =>
    obtain ⟨networkLen,rest⟩ := result
    obtain ⟨hlen,hnet,rfl⟩ := recvExact_ok h₁
    by_cases hbad : ntohl networkLen < 4 ∨ (maxMessageSize+4).toNat < ntohl networkLen
    · simp only [if_pos hbad]
      exact ⟨hheader,fun v hv => by cases hv⟩
    · have hlt := ntohl_lt networkLen
      have hsum : (maxMessageSize+4).toNat ≤ maxMessageSize.toNat+4 := by
        rw [BitVec.toNat_add]
        exact Nat.mod_le _ _
      simp only [if_neg hbad]
      have henvelope : ∀ a ∈ (recvExact (M := Q) (ntohl networkLen) 0 (ntohl networkLen)
          (peer.skip 4)).1, a.Plain (maxMessageSize.toNat < 2^31) := recvExact_plain (by omega) _
      cases h₂ : (recvExact (M := Q) (ntohl networkLen) 0 (ntohl networkLen)
          (peer.skip 4)).2 with
      | error e =>
        simp only [List.forall_mem_append]
        exact ⟨⟨hheader,henvelope⟩,fun v hv => by cases hv⟩
      | ok result =>
        obtain ⟨envelopeBuf,rest⟩ := result
        obtain ⟨hrest,hbuf,_⟩ := recvExact_ok h₂
        rw [Incoming.skip,List.length_drop] at hrest
        have hsize : envelopeBuf.length = ntohl networkLen := by
          rw [hbuf,Incoming.skip,List.length_take,List.length_drop]
          omega
        have hstatus : ∀ a ∈ [Act.access (M := Q) (ntohl networkLen) 0 4],
            a.Plain (maxMessageSize.toNat < 2^31) := by
          intro a ha
          obtain rfl := List.mem_singleton.mp ha
          show 0+4 ≤ ntohl networkLen
          omega
        by_cases hzero : BitVec.ofNat 32 (ntohl (envelopeBuf.take 4)) = 0
        · simp only [hzero,ne_eq,not_true_eq_false,if_false,List.forall_mem_append]
          refine ⟨⟨⟨⟨hheader,henvelope⟩,hstatus⟩,
            readPayload_plain d (by omega) (by omega) fun hmax => (by omega)⟩,?_⟩
          intro v hv
          have hparse := ((readPayload_ok (by omega) (by omega)).mp hv).2
          rw [Enveloped,← hnet]
          refine ⟨hlen,by omega,by omega,by omega,?_,?_⟩
          · have htake : envelopeBuf.take 4 = (peer.input.drop 4).take 4 := by
              rw [hbuf,Incoming.skip,List.take_take]
              congr 1
              omega
            have hvalue := congrArg BitVec.toNat hzero
            rw [BitVec.toNat_ofNat,Nat.mod_eq_of_lt (ntohl_lt _),htake] at hvalue
            exact hvalue
          · rw [← hparse,hbuf,Incoming.skip,List.drop_take,List.drop_drop]
        · simp only [ne_eq,hzero,not_false_eq_true,if_true,List.forall_mem_append]
          exact ⟨⟨⟨hheader,henvelope⟩,hstatus⟩,fun v hv => by cases hv⟩

theorem exchange_safe (request : Q) (x : Exchange) :
    (∀ a ∈ (exchange maxMessageSize c d request x).2, a.Plain (maxMessageSize.toNat < 2^31)) ∧
      ∀ v, (exchange maxMessageSize c d request x).1 = .ok v →
        Enveloped maxMessageSize d x.peer.input v := by
  have hserialize : ∀ a ∈ serializeActs (M := Q) c request, a.Plain (maxMessageSize.toNat < 2^31) :=
    serializeActs_plain c request
  simp only [exchange]
  cases serializeMessage c request with
  | error e => exact ⟨hserialize,fun v hv => by cases hv⟩
  | ok sendData =>
    have hsend : ∀ a ∈ sendExact (M := Q) sendData 0 sendData.length x.sends,
        a.Plain (maxMessageSize.toNat < 2^31) := sendExact_plain (by omega) _
    obtain ⟨hresponse,hvalue⟩ := receiveResponse_safe (Q := Q) maxMessageSize d x.peer x.failure
    by_cases hsent : (sendAll sendData.length x.sends sendData []).2 = true
    · simp only [if_pos hsent,List.forall_mem_append]
      exact ⟨⟨⟨hserialize,hsend⟩,hresponse⟩,hvalue⟩
    · simp only [if_neg hsent,List.forall_mem_append]
      exact ⟨⟨hserialize,hsend⟩,fun v hv => by cases hv⟩

/-- The acts of a caller are safe and it returns only what came in an envelope. -/
structure Answered (x : Exchange) (result : Except (BitVec 32) R) (acts : List (Act Q)) :
    Prop where
  within : ∀ a ∈ acts, a.Within
  sizes : maxMessageSize.toNat < 2^31 →
    ∀ size offset count, .parse size offset count ∈ acts → 0 ≤ count
  closed : x.connect = .ok () → acts.countP Act.isClose = 1
  unopened : ∀ e, x.connect = .error e → acts = []
  enveloped : ∀ v, result = .ok v → Enveloped maxMessageSize d x.peer.input v

end Caller

section Lists
variable {M : Type} {small : Prop} {acts : List (Act M)}

theorem plain_within (h : ∀ a ∈ acts, a.Plain small) : ∀ a ∈ acts, a.Within := by
  intro a ha
  have hplain := h a ha
  cases a with
  | access size offset count => exact hplain
  | parse size offset count => exact hplain.1
  | handle request => trivial
  | write data => trivial
  | close => trivial

theorem plain_closes (h : ∀ a ∈ acts, a.Plain small) : acts.countP Act.isClose = 0 := by
  rw [List.countP_eq_zero]
  intro a ha
  have hplain := h a ha
  cases a with
  | close => exact hplain.elim
  | _ => simp [Act.isClose]

theorem plain_requests (h : ∀ a ∈ acts, a.Plain small) : acts.filterMap Act.request? = [] := by
  rw [List.filterMap_eq_nil_iff]
  intro a ha
  have hplain := h a ha
  cases a with
  | handle request => exact hplain.elim
  | _ => rfl

/-- Plain acts, and the end of the connection. -/
theorem plain_closing (h : ∀ a ∈ acts, a.Plain small) :
    (∀ a ∈ acts++[Act.close], a.Within) ∧ (acts++[Act.close]).countP Act.isClose = 1 ∧
      (small → ∀ size offset count, .parse size offset count ∈ acts++[Act.close] →
        0 ≤ count) := by
  refine ⟨?_,?_,fun hsmall size offset count hmem => ?_⟩
  · rw [List.forall_mem_append]
    exact ⟨plain_within h,by simp [Act.Within]⟩
  · rw [List.countP_append,plain_closes h]
    rfl
  · rcases List.mem_append.mp hmem with hmem | hmem
    · exact (h _ hmem).2 hsmall
    · simp at hmem

end Lists

section Safety
variable {Q R : Type} (d : Protobuf R) (maxMessageSize : BitVec 32) (c : Protobuf Q)
  (handler : Q → Except (BitVec 32) R)

theorem handleClient_served (hmax : maxMessageSize.toNat < 2^31) (peer : Incoming Byte)
    (calls : Nat → Calls) :
    Served maxMessageSize c peer.input
      (handleClient d maxMessageSize c handler peer calls) := by
  rw [handleClient]
  rcases serve_cases d maxMessageSize c handler hmax peer calls with
    hplain | ⟨before,request,after,hserve,hbefore,hafter,hframed⟩
  · generalize serve d maxMessageSize c handler peer calls = acts at hplain
    obtain ⟨hwithin,hclosed,hsizes⟩ := plain_closing hplain
    refine ⟨hwithin,hsizes trivial,hclosed,?_,?_⟩
    · rw [List.filterMap_append,plain_requests hplain]
      exact Nat.zero_le 1
    · intro request hmem
      rcases List.mem_append.mp hmem with hmem | hmem
      · exact (hplain _ hmem).elim
      · simp at hmem
  · rw [hserve]
    refine ⟨?_,?_,?_,?_,?_⟩
    · simp only [List.forall_mem_append,List.forall_mem_cons]
      exact ⟨⟨plain_within hbefore,trivial,plain_within hafter⟩,by simp [Act.Within]⟩
    · intro size offset count hmem
      simp only [List.mem_append,List.mem_cons,reduceCtorEq,false_or,List.not_mem_nil,
        or_false] at hmem
      rcases hmem with hmem | hmem
      · exact (hbefore _ hmem).2 trivial
      · exact (hafter _ hmem).2 trivial
    · simp [List.countP_append,List.countP_cons,plain_closes hbefore,plain_closes hafter,
        Act.isClose]
    · simp [List.filterMap_append,List.filterMap_cons,plain_requests hbefore,
        plain_requests hafter,Act.request?]
    · intro other hmem
      simp only [List.mem_append,List.mem_cons,Act.handle.injEq,reduceCtorEq,List.not_mem_nil,
        or_false] at hmem
      rcases hmem with hmem | rfl | hmem
      · exact (hbefore _ hmem).elim
      · exact hframed
      · exact (hafter _ hmem).elim

theorem call_answered (request : Q) (x : Exchange) :
    Answered maxMessageSize d x (call maxMessageSize c d request x).1
      (call maxMessageSize c d request x).2 := by
  cases hconnect : x.connect with
  | error e =>
    simp only [call,hconnect]
    refine ⟨nofun,fun _ _ _ _ => nofun,?_,fun _ _ => rfl,nofun⟩
    rw [hconnect]
    exact nofun
  | ok opened =>
    simp only [call,hconnect]
    obtain ⟨hplain,hvalue⟩ := exchange_safe maxMessageSize c d request x
    obtain ⟨hwithin,hclosed,hsizes⟩ := plain_closing hplain
    refine ⟨hwithin,hsizes,fun _ => hclosed,?_,hvalue⟩
    rw [hconnect]
    exact nofun

end Safety

/-- Both ends are safe whatever the other one sends and however the calls go. -/
theorem protocol_safe {Q R : Type} (c : Protobuf Q) (d : Protobuf R)
    (handler : Q → Except (BitVec 32) R) :
    (∀ (maxMessageSize : BitVec 32) (peer : Incoming Byte) (calls : Nat → Calls),
      maxMessageSize.toNat < 2^31 →
        Served maxMessageSize c peer.input
          (handleClient d maxMessageSize c handler peer calls)) ∧
    ∀ (maxMessageSize : BitVec 32) (request : Q) (x : Exchange),
      Answered maxMessageSize d x (call maxMessageSize c d request x).1
        (call maxMessageSize c d request x).2 :=
  ⟨fun maxMessageSize peer calls hmax =>
      handleClient_served d maxMessageSize c handler hmax peer calls,
    fun maxMessageSize request x => call_answered d maxMessageSize c request x⟩

/-- Calls that stop after each unit, of which those from the `n`-th unit on fail. -/
def single (n : Nat) : Calls := ⟨fun _ => true,fun k => n ≤ k⟩

theorem protocol_safe_single :
    Served 1024 valueInt [0,0,0,2,8,5]
      (handleClient valueInt 1024 valueInt .ok ⟨[0,0,0,2,8,5],single 6⟩ fun _ => single 2) :=
  (protocol_safe valueInt valueInt .ok).1 1024 ⟨[0,0,0,2,8,5],single 6⟩ (fun _ => single 2)
    (by decide)

example : (handleClient valueInt 1024 valueInt .ok ⟨[0,0,0,2,8,5],single 6⟩
    fun _ => single 2).filterMap Act.request? = [5] := by decide +kernel

end LapCom.Socket.Method
