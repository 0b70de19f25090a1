import LapCom.Socket.MethodRemote
import LapCom.Socket.MethodSafety
import LapCom.Stream.Parts

set_option autoImplicit false

namespace LapCom.Socket.Method
open LapCom.Bytes LapCom.Serialization LapCom.Stream

/-- What the handler and the serializer leave to send. -/
inductive Response where
  | error (code : BitVec 32)
  | unserializable
  | payload (data : List Byte)
  deriving DecidableEq

namespace Response

def status : Response → BitVec 32
  | .error code => code
  | .unserializable => ComErrc.kSerializationError.value
  | .payload _ => 0

def body : Response → List Byte
  | .payload data => data
  | _ => []

/-- One loop sends the length, one the status and one the payload. -/
def parts (r : Response) : List (List Byte) :=
  match r with
  | .payload data => [htonl (4+data.length),htonl 0,data]
  | r => [htonl 4,htonl r.status.toNat]

structure Envelope (r : Response) (bytes : List Byte) : Prop where
  fits : 4+r.body.length < 4294967296
  bytes_eq : bytes = htonl (4+r.body.length)++(htonl r.status.toNat++r.body)

/-- The bytes are the beginning of an envelope of the response. -/
def Begins (r : Response) (bytes : List Byte) : Prop :=
  ∃ envelope, r.Envelope envelope ∧ bytes <+: envelope

theorem flatten_parts (r : Response) :
    r.parts.flatten = htonl (4+r.body.length)++(htonl r.status.toNat++r.body) := by
  cases r <;> simp [parts,body,status]

theorem begins_of_stops {r : Response} {calls : Nat → Calls}
    (hfits : 4+r.body.length < 4294967296) (hstops : Stops r.parts calls) :
    r.Begins (sendParts r.parts calls) := by
  refine ⟨_,⟨hfits,rfl⟩,?_⟩
  rw [← flatten_parts]
  exact hstops.sendParts_flatten

theorem not_begins_cut {a b : Nat} (ha : a < 4) (hb : b ≠ 0) :
    ¬ (htonl 4).take a++(htonl 4294967295).take b <+: htonl 4++htonl 4294967295 := by
  have hlength : htonl 4 = [0,0,0,4] := by decide
  have hstatus : htonl 4294967295 = [255,255,255,255] := by decide
  obtain ⟨b,rfl⟩ := Nat.exists_eq_succ_of_ne_zero hb
  rw [hlength,hstatus]
  obtain rfl | rfl | rfl | rfl : a = 0 ∨ a = 1 ∨ a = 2 ∨ a = 3 := by omega
  all_goals simp

/-- Whatever part of the status comes behind a length that is cut short, it garbles the response
for one of the codes. -/
theorem stops_of_begins {calls : Nat → Calls}
    (h : ∀ code, (error code).Begins (sendParts (error code).parts calls)) (code : BitVec 32) :
    Stops (error code).parts calls := by
  obtain ⟨envelope,⟨-,rfl⟩,hbegins⟩ := h 4294967295
  have hle := progress_le 4 (calls 0) 4
  simp only [parts,body,status,sendParts,htonl_length,List.append_nil,List.length_nil] at hbegins
  simp only [parts,Stops,Silent,htonl_length]
  split
  · split <;> trivial
  · next hcut =>
    refine ⟨?_,trivial⟩
    by_contra hsome
    exact not_begins_cut (Nat.lt_of_le_of_ne hle hcut) hsome hbegins

end Response

section Respond
variable {Q R : Type} {d : Protobuf R}

def responseOf (d : Protobuf R) : Except (BitVec 32) R → Response
  | .error code => .error code
  | .ok response =>
    match serializeMessage d response with
    | .error _ => .unserializable
    | .ok frame => .payload (frame.drop 4)

theorem written_sendExact_part (buffer : List Byte) (base : Nat) (part : List Byte)
    (calls : Calls) (h : (buffer.drop base).take part.length = part) :
    written (sendExact (M := Q) buffer base part.length calls) =
      part.take (progress part.length calls part.length) := by
  rw [sendExact,written_append,h,written_cons,written_nil,sendAll_fst]
  simp [written,List.flatMap_map,Act.written]

theorem written_header (n : Nat) (calls : Calls) :
    written (sendExact (M := Q) (htonl n) 0 4 calls) =
      (htonl n).take (progress (htonl n).length calls (htonl n).length) := by
  have h := written_sendExact_part (Q := Q) (htonl n) 0 (htonl n) calls (by simp)
  rwa [htonl_length] at h ⊢

theorem written_status (status : BitVec 32) (calls : Nat → Calls) :
    written (sendStatus (Q := Q) status calls) =
      sendParts [htonl 4,htonl status.toNat] calls := by
  rw [sendStatus,written_append,written_header,written_header]
  simp [sendParts]

theorem written_respond_parts (calls : Nat → Calls) (outcome : Except (BitVec 32) R) :
    written (respond (Q := Q) d calls outcome) =
      sendParts (responseOf d outcome).parts calls := by
  cases outcome with
  | error code => exact written_status code calls
  | ok response =>
    rw [respond,responseOf,written_append,written_serializeActs,List.nil_append]
    cases hframe : serializeMessage d response with
    | error e => exact written_status _ calls
    | ok frame =>
      have hlength : (frame.length-4) % 4294967296 = (frame.drop 4).length := by
        obtain ⟨hsize,rfl⟩ := serializeMessage_eq_ok.mp hframe
        simp only [List.length_append,List.length_drop,htonl_length]
        omega
      have hpayload := written_sendExact_part (Q := Q) frame 4 (frame.drop 4) (calls 2)
        List.take_length
      simp only [Nat.reducePow,hlength,written_append,written_header,hpayload,Response.parts,
        sendParts,List.append_nil,List.append_assoc]

def requests (acts : List (Act Q)) : List Q := acts.filterMap Act.request?

@[simp] theorem requests_append (acts acts' : List (Act Q)) :
    requests (acts++acts') = requests acts++requests acts' := by
  simp [requests]

@[simp] theorem requests_cons (a : Act Q) (acts : List (Act Q)) :
    requests (a :: acts) = a.request?.toList++requests acts := by
  cases a <;> rfl

@[simp] theorem requests_nil : requests ([] : List (Act Q)) = [] := rfl

@[simp] theorem requests_recvExact (size base len : Nat) (peer : Incoming Byte) :
    requests (recvExact (M := Q) size base len peer).1 = [] := by
  simp [requests,recvExact,List.filterMap_map,Function.comp_def,Act.request?]

@[simp] theorem requests_sendExact (buffer : List Byte) (base len : Nat) (calls : Calls) :
    requests (sendExact (M := Q) buffer base len calls) = [] := by
  simp [requests,sendExact,List.filterMap_map,Function.comp_def,Act.request?]

@[simp] theorem requests_deserializeActs (data : List Byte) :
    requests (deserializeActs (M := Q) data) = [] := by
  simp only [deserializeActs]
  split
  · simp
  · split <;> simp [Act.request?]

theorem requests_respond (calls : Nat → Calls) (outcome : Except (BitVec 32) R) :
    requests (respond (Q := Q) d calls outcome) = [] := by
  cases outcome with
  | error code => simp [respond,sendStatus]
  | ok response =>
    have hserialize : requests (serializeActs (M := Q) d response) = [] := by
      simp only [serializeActs]
      split
      · rfl
      · split <;> simp [Act.request?]
    rw [respond,requests_append,hserialize,List.nil_append]
    cases serializeMessage d response with
    | error e => simp [sendStatus]
    | ok frame => simp

theorem responseOf_fits (d : Protobuf R) (outcome : Except (BitVec 32) R) :
    4+(responseOf d outcome).body.length < 4294967296 := by
  have hempty : 4+([] : List Byte).length < 4294967296 := by decide
  cases outcome with
  | error code => exact hempty
  | ok response =>
    rw [responseOf]
    cases hframe : serializeMessage d response with
    | error e => exact hempty
    | ok frame =>
      obtain ⟨hsize,rfl⟩ := serializeMessage_eq_ok.mp hframe
      simp only [Response.body,List.length_drop,List.length_append,htonl_length]
      omega

/-- Without a request for the handler nothing is written, and with one the response to it. Which
request it is does not depend on the handler. -/
theorem handleClient_written (maxMessageSize : BitVec 32) (c : Protobuf Q)
    (handler other : Q → Except (BitVec 32) R) (peer : Incoming Byte) (calls : Nat → Calls) :
    (requests (handleClient d maxMessageSize c handler peer calls) = [] ∧
      written (handleClient d maxMessageSize c handler peer calls) = []) ∨
    ∃ request, requests (handleClient d maxMessageSize c handler peer calls) = [request] ∧
      written (handleClient d maxMessageSize c handler peer calls) =
        sendParts (responseOf d (handler request)).parts calls ∧
      written (handleClient d maxMessageSize c other peer calls) =
        sendParts (responseOf d (other request)).parts calls := by
  simp only [handleClient,serve]
  split
  · left
    simp [Act.request?,Act.written]
  · split
    · left
      simp [Act.request?,Act.written]
    · split
      · left
        simp [Act.request?,Act.written]
      · split
        · left
          simp [Act.request?,Act.written]
        · next request _ =>
          right
          refine ⟨request,?_,?_,?_⟩
          · simp [Act.request?,requests_respond]
          · simp [Act.written,written_respond_parts]
          · simp [Act.written,written_respond_parts]

theorem written_of_handle {maxMessageSize : BitVec 32} {c : Protobuf Q}
    {handler : Q → Except (BitVec 32) R} {peer : Incoming Byte} {calls : Nat → Calls} {request : Q}
    (h : .handle request ∈ handleClient d maxMessageSize c handler peer calls)
    (other : Q → Except (BitVec 32) R) :
    written (handleClient d maxMessageSize c other peer calls) =
      sendParts (responseOf d (other request)).parts calls := by
  have hrequest : request ∈ requests (handleClient d maxMessageSize c handler peer calls) :=
    List.mem_filterMap.mpr ⟨_,h,rfl⟩
  rcases handleClient_written (d := d) maxMessageSize c handler other peer calls with
    ⟨hnone,-⟩ | ⟨first,hone,-,hwritten⟩
  · rw [hnone] at hrequest
    cases hrequest
  · rw [hone,List.mem_singleton] at hrequest
    rw [hrequest,hwritten]

/-- The response is not garbled where nothing is sent behind a part that is cut short. For the
errors of the handler nothing else will do for all codes. -/
theorem handleClient_begins {maxMessageSize : BitVec 32} {c : Protobuf Q}
    {handler : Q → Except (BitVec 32) R} {peer : Incoming Byte} {calls : Nat → Calls} {request : Q}
    (h : .handle request ∈ handleClient d maxMessageSize c handler peer calls) :
    (Stops (responseOf d (handler request)).parts calls →
      (responseOf d (handler request)).Begins
        (written (handleClient d maxMessageSize c handler peer calls))) ∧
    ((∀ code, (Response.error code).Begins
        (written (handleClient d maxMessageSize c (fun _ => .error code) peer calls))) →
      ∀ code, Stops (Response.error code).parts calls) := by
  refine ⟨fun hstops => ?_,fun hbegins => ?_⟩
  · rw [written_of_handle h]
    exact Response.begins_of_stops (responseOf_fits d _) hstops
  · refine Response.stops_of_begins fun code => ?_
    have hcode := hbegins code
    rwa [written_of_handle h] at hcode

end Respond

def allOrNone (fails : Bool) : Calls := ⟨fun _ => false,fun _ => fails⟩

/-- A handler that fails with 42, and a connection that takes the parts of `lost` alone not. -/
def answered (lost : Nat → Bool) : List (Act (BitVec 7)) :=
  handleClient valueInt 1024 valueInt (fun _ => .error 42) ⟨[0,0,0,2,8,5],allOrNone false⟩
    fun k => allOrNone (lost k)

theorem handleClient_begins_stalled : .handle 5 ∈ answered (fun _ => true) ∧
    (Response.error 42).Begins (written (answered fun _ => true)) := by
  have h : .handle 5 ∈ answered (fun _ => true) := by decide +kernel
  exact ⟨h,(handleClient_begins h).1 ⟨rfl,trivial⟩⟩

/-- The status goes out where the length was due. -/
theorem answered_garbled : .handle 5 ∈ answered (fun k => k == 0) ∧
    responseOf valueInt (.error 42 : Except (BitVec 32) (BitVec 7)) = .error 42 ∧
    written (answered fun k => k == 0) = [0,0,0,42] ∧
    ¬ (Response.error 42).Begins (written (answered fun k => k == 0)) := by
  have hwritten : written (answered fun k => k == 0) = [0,0,0,42] := by decide +kernel
  refine ⟨by decide +kernel,rfl,hwritten,?_⟩
  rw [hwritten]
  rintro ⟨envelope,⟨-,rfl⟩,hbegins⟩
  revert hbegins
  decide +kernel

end LapCom.Socket.Method
