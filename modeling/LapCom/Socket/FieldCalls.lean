import LapCom.Machine.Run
import LapCom.Socket.FieldClient
import LapCom.Socket.Convergence

set_option autoImplicit false

namespace LapCom.Socket.FieldThreads
open LapCom.Stream LapCom.Machine

/-- The calls of `SocketFieldClient` that wait in `readValue`. -/
inductive Call (V : Type) where
  | get
  | set (v : V)
  | subscribe

inductive App (V : Type) where
  | idle
  | waiting (call : Call V) (p : Reading Byte)
  | joining

/-- `recv` is where the receive thread stands in `readValue`, if it runs. `unread` is what the
server has written and neither thread has received. -/
structure Client (V : Type) where
  connected : Bool
  app : App V
  recv : Option (Reading Byte)
  unread : List Byte

/-- A server and its clients, each by the descriptor of its connection. -/
structure System (V : Type) where
  server : Server V
  clients : Nat → Client V

inductive SystemEvent (V : Type) where
  | server (e : Event V)
  | call (fd : Nat) (call : Call V)
  | unsubscribe (fd : Nat)
  | join (fd : Nat)
  | appReceive (fd n : Nat)
  | recvReceive (fd n : Nat)
  | appTimeout (fd : Nat)
  | recvTimeout (fd : Nat)

variable {V : Type}

def App.getting : App V → Bool
  | .waiting .get _ => true
  | _ => false

theorem App.getting_iff {app : App V} : app.getting = true ↔ ∃ p, app = .waiting .get p := by
  cases app with
  | waiting call p => cases call <;> simp [getting]
  | _ => simp [getting]

def Call.request : Call V → Request V
  | .get => .get
  | .set v => .set v
  | .subscribe => .subscribe

/-- `subscribe` does not look at `connected_`. A second one would end the program where it
starts a receive thread over a running one. -/
def Client.allows (cl : Client V) : Call V → Bool
  | .subscribe => cl.recv.isNone
  | _ => cl.connected

def Client.gives (cl : Client V) (p : Reading Byte) (n : Nat) : Prop :=
  0 < n ∧ n ≤ p.asks format ∧ n ≤ cl.unread.length

instance (cl : Client V) (p : Reading Byte) (n : Nat) : Decidable (cl.gives p n) :=
  inferInstanceAs (Decidable (_ ∧ _ ∧ _))

def Client.again (cl : Client V) : Client V :=
  { cl with recv := if cl.connected then some .header else none }

section Receive
variable (c : Protobuf V)

def Client.appReceive (cl : Client V) (n : Nat) : Client V :=
  match cl.app with
  | .waiting call p =>
    if cl.gives p n then
      let next := p.receive format (cl.unread.take n)
      let cl := { cl with unread := cl.unread.drop n }
      match answer c next.2,call with
      | none,_ => { cl with app := .waiting call next.1 }
      | some (.ok _),.subscribe => { cl with app := .idle, recv := some .header }
      | some _,_ => { cl with app := .idle }
    else cl
  | _ => cl

def Client.recvReceive (cl : Client V) (n : Nat) : Client V :=
  match cl.recv with
  | some p =>
    if cl.gives p n then
      let next := p.receive format (cl.unread.take n)
      let cl := { cl with unread := cl.unread.drop n }
      match answer c next.2 with
      | none => { cl with recv := some next.1 }
      | some _ => cl.again
    else cl
  | none => cl

def Client.appTimeout (cl : Client V) : Client V :=
  match cl.app with
  | .waiting _ _ => { cl with app := .idle }
  | _ => cl

def Client.recvTimeout (cl : Client V) : Client V :=
  match cl.recv with
  | some _ => cl.again
  | none => cl

def Client.join (cl : Client V) : Client V :=
  match cl.app,cl.recv with
  | .joining,none => { cl with app := .idle, connected := true }
  | _,_ => cl

namespace System

def setClient (s : System V) (fd : Nat) (cl : Client V) : System V :=
  { s with clients := Function.update s.clients fd cl }

/-- A step of the server; what it writes is there to be received. -/
def serverStep (s : System V) (e : Event V) : System V :=
  let server := s.server.step c e
  { server := server
    clients := fun fd =>
      { s.clients fd with
        unread := (s.clients fd).unread++
          (server.written fd).drop (s.server.written fd).length } }

/-- Requests arrive by the calls of the clients only. -/
def step (s : System V) : SystemEvent V → System V
  | .server (.arrive _ _) => s
  | .server e => s.serverStep c e
  | .call fd call =>
    match (s.clients fd).app with
    | .idle =>
      if (s.clients fd).allows call then
        (s.serverStep c (.arrive fd call.request)).setClient fd
          { s.clients fd with app := .waiting call .header }
      else s
    | _ => s
  | .unsubscribe fd =>
    match (s.clients fd).app with
    | .idle =>
      (s.serverStep c (.arrive fd .unsubscribe)).setClient fd
        { s.clients fd with connected := false, app := .joining }
    | _ => s
  | .join fd => s.setClient fd (s.clients fd).join
  | .appReceive fd n => s.setClient fd ((s.clients fd).appReceive c n)
  | .recvReceive fd n => s.setClient fd ((s.clients fd).recvReceive c n)
  | .appTimeout fd => s.setClient fd (s.clients fd).appTimeout
  | .recvTimeout fd => s.setClient fd (s.clients fd).recvTimeout

def returned (s : System V) (fd : Nat) : SystemEvent V → Option (Result V)
  | .appReceive a n =>
    if a = fd then
      match (s.clients fd).app with
      | .waiting .get p =>
        if (s.clients fd).gives p n then
          answer c (p.receive format ((s.clients fd).unread.take n)).2
        else none
      | _ => none
    else none
  | _ => none

/-- Whatever is on its way to the client is whole frames of the current value, and no receive
thread takes part of them. -/
structure Current (s : System V) (fd : Nat) : Prop where
  recv : (s.clients fd).recv = none
  copies : ∀ t v total, (s.server.tasks t).writing = some (fd,v,total) →
    v = s.server.value ∧ (c.serialize v).length < 2^31
  unread : ∃ vs, s.server.Carries c fd (s.clients fd).unread vs ∧
    ∀ v, v ∈ vs → v = s.server.value ∧ (c.serialize v).length < 2^31

/-- `get()` is called when only the current value is on its way, and while it waits nothing is
written into the middle of a frame to its client. -/
def Fresh (s : System V) (fd : Nat) : SystemEvent V → Prop
  | .call a .get => a = fd → s.Current c fd
  | .server e => (s.clients fd).app.getting = true → s.server.Clear fd e
  | _ => True

end System

end Receive

variable {c : Protobuf V}

def got : Reading Byte → List Byte
  | .header => []
  | .body buf _ _ => buf

def Headed : Reading Byte → Prop
  | .header => True
  | .body buf size _ => 4 ≤ buf.length ∧ size = ntohl (buf.take 4)+4 ∧
      0 < ntohl (buf.take 4) ∧ ntohl (buf.take 4) ≤ maxLength

theorem receive_more {p p' : Reading Byte} {data : List Byte} (hp : Headed p)
    (h : p.receive format data = (p',.more)) : Headed p' ∧ got p' = got p++data := by
  cases p with
  | header =>
    by_cases hw : data.length = format.width
    · by_cases hl : format.length data = 0 ∨ format.limit < format.length data
      · rw [Reading.receive_refused hw hl] at h
        cases h
      · rw [Reading.receive_header hw hl] at h
        cases h
        have hw : data.length = 4 := hw
        have htake : data.take 4 = data := List.take_of_length_le (by omega)
        have hlen : format.length data = ntohl (data.take 4) := by
          rw [htake]
          rfl
        have hlimit : format.limit = maxLength := rfl
        exact ⟨⟨by omega,by rw [← hlen]; rfl,by omega,by omega⟩,rfl⟩
    · rw [Reading.receive_short hw] at h
      cases h
  | body buf size hb =>
    by_cases hlt : (buf++data).length < size
    · rw [Reading.receive_body hlt] at h
      cases h
      obtain ⟨hfour,hsize,hpos,hlimit⟩ := hp
      have htake : (buf++data).take 4 = buf.take 4 := List.take_append_of_le_length hfour
      refine ⟨⟨?_,?_,?_,?_⟩,rfl⟩
      · rw [List.length_append]
        omega
      · rw [htake]
        exact hsize
      · rw [htake]
        exact hpos
      · rw [htake]
        exact hlimit
    · rw [Reading.receive_last hlt] at h
      cases h

theorem receive_frame {p p' : Reading Byte} {data buf : List Byte} (hp : Headed p)
    (hdata : data.length ≤ p.asks format) (h : p.receive format data = (p',.frame buf)) :
    buf = got p++data ∧ 4 ≤ buf.length ∧ buf.length = ntohl (buf.take 4)+4 ∧
      0 < ntohl (buf.take 4) ∧ ntohl (buf.take 4) ≤ maxLength := by
  cases p with
  | header =>
    by_cases hw : data.length = format.width
    · by_cases hl : format.length data = 0 ∨ format.limit < format.length data
      · rw [Reading.receive_refused hw hl] at h
        cases h
      · rw [Reading.receive_header hw hl] at h
        cases h
    · rw [Reading.receive_short hw] at h
      cases h
  | body got size hb =>
    by_cases hlt : (got++data).length < size
    · rw [Reading.receive_body hlt] at h
      cases h
    · rw [Reading.receive_last hlt] at h
      cases h
      obtain ⟨hfour,hsize,hpos,hlimit⟩ := hp
      have htake : (got++data).take 4 = got.take 4 := List.take_append_of_le_length hfour
      have hdata : data.length ≤ size-got.length := hdata
      rw [htake]
      rw [List.length_append] at hlt ⊢
      exact ⟨rfl,by omega,by omega,hpos,hlimit⟩

theorem answer_eq_none {received : Received Byte} (h : answer c received = none) :
    received = .more := by
  cases received with
  | more => rfl
  | frame buf =>
    simp only [answer] at h
    split at h <;> cases h
  | _ => cases h

theorem valueFrame_take (v : V) : (valueFrame c v).take 4 = htonl (c.serialize v).length := by
  rw [valueFrame,← htonl_length (c.serialize v).length,List.take_left]

theorem valueFrame_length (v : V) : (valueFrame c v).length = 4+(c.serialize v).length := by
  rw [valueFrame,List.length_append,htonl_length]

theorem Server.Carries.first_frame {s : Server V} {fd : Nat} {data : List Byte} {vs : List V}
    (h : s.Carries c fd data vs) (hvs : ∀ v, v ∈ vs → (c.serialize v).length < 2^31)
    (hcopies : ∀ t v total, (s.tasks t).writing = some (fd,v,total) →
      (c.serialize v).length < 2^31) {buf rest : List Byte} (hdata : data = buf++rest)
    (hfour : 4 ≤ buf.length) (hlen : buf.length = ntohl (buf.take 4)+4) :
    ∃ v, v ∈ vs ∧ buf = valueFrame c v := by
  have htake : data.take 4 = buf.take 4 := by
    rw [hdata,List.take_append_of_le_length hfour]
  cases vs with
  | nil =>
    exfalso
    obtain ⟨hnil,_⟩ | ⟨t,v,total,⟨hw,_⟩,hlt,hpart,_⟩ := h
    · have := congrArg List.length (hnil.symm.trans hdata)
      rw [List.length_append] at this
      have hwire : (wire c ([] : List V)).length = 0 := rfl
      omega
    · have hpart : data = (valueFrame c v).take total := hpart
      have hlength := congrArg List.length (hpart.symm.trans hdata)
      rw [List.length_take,List.length_append] at hlength
      have hheader : data.take 4 = htonl (c.serialize v).length := by
        rw [hpart,List.take_take,← valueFrame_take v,Nat.min_eq_left (by omega)]
      rw [← htake,hheader,ntohl_htonl_of_size (hcopies t v total hw)] at hlen
      rw [valueFrame_length] at hlt
      omega
  | cons v vs =>
    refine ⟨v,List.mem_cons_self,?_⟩
    obtain ⟨more,hmore⟩ : ∃ more, data = valueFrame c v++more := by
      obtain ⟨hall,_⟩ | ⟨t,u,total,_,_,hpart,_⟩ := h
      · exact ⟨wire c vs,hall⟩
      · exact ⟨wire c vs++(valueFrame c u).take total,by rw [hpart,← List.append_assoc]; rfl⟩
    have hheader : data.take 4 = htonl (c.serialize v).length := by
      rw [hmore,List.take_append_of_le_length (by rw [valueFrame_length]; omega),valueFrame_take]
    rw [← htake,hheader,ntohl_htonl_of_size (hvs v List.mem_cons_self)] at hlen
    have hsame : buf.length = (valueFrame c v).length := by
      rw [valueFrame_length]
      omega
    exact (List.append_inj (hdata.symm.trans hmore) hsame).1

theorem deserializeMessage_valueFrame {v : V} (h : (c.serialize v).length ≤ maxLength) :
    deserializeMessage c (valueFrame c v) = .ok v := by
  obtain ⟨fr,hbytes,hbody⟩ := exists_frame c (Nat.lt_of_le_of_lt h (by decide))
  have hwire : wire c [v] = valueFrame c v := Server.wire_concat [] v
  have hlt : fr.body.length < 2^31 := by
    rw [hbody]
    exact Nat.lt_of_le_of_lt h (by decide)
  rw [← hwire,← hbytes,deserializeMessage_frame hlt,hbody,c.parse_serialize]

namespace System

/-- A `get()` under way: every frame that can reach it holds a value of `P`. -/
structure Getting (c : Protobuf V) (s : System V) (fd : Nat) (P : V → Prop) : Prop where
  recv : (s.clients fd).recv = none
  copies : ∀ t v total, (s.server.tasks t).writing = some (fd,v,total) →
    P v ∧ (c.serialize v).length < 2^31
  waiting : ∃ p vs, (s.clients fd).app = .waiting .get p ∧ Headed p ∧
    s.server.Carries c fd (got p++(s.clients fd).unread) vs ∧
    ∀ v, v ∈ vs → P v ∧ (c.serialize v).length < 2^31

variable {s : System V} {fd : Nat} {P : V → Prop}

theorem Getting.mono {Q : V → Prop} (h : s.Getting c fd P) (hPQ : ∀ v, P v → Q v) :
    s.Getting c fd Q := by
  obtain ⟨p,vs,happ,hp,hcarries,hvs⟩ := h.waiting
  exact ⟨h.recv,fun t v total hw => (h.copies t v total hw).imp_left (hPQ v),
    p,vs,happ,hp,hcarries,fun v hv => (hvs v hv).imp_left (hPQ v)⟩

theorem Getting.serverStep {e : Event V} (h : s.Getting c fd P) (hP : P s.server.value)
    (hclear : s.server.Clear fd e) : (s.serverStep c e).Getting c fd P := by
  obtain ⟨p,vs,happ,hp,hcarries,hvs⟩ := h.waiting
  obtain heq | hstep := Server.step_cases (c := c) s.server e
  · have hunread : ((s.serverStep c e).clients fd).unread = (s.clients fd).unread := by
      simp only [System.serverStep,heq,List.drop_length,List.append_nil]
    have hserver : (s.serverStep c e).server = s.server := heq
    refine ⟨h.recv,?_,p,vs,happ,hp,?_,hvs⟩
    · rw [hserver]
      exact h.copies
    · rw [hunread,hserver]
      exact hcarries
  · obtain ⟨more,hwritten,hmore⟩ := hstep.carries hclear
    have hunread : ((s.serverStep c e).clients fd).unread = (s.clients fd).unread++more := by
      simp only [System.serverStep,hwritten,List.drop_left]
    refine ⟨h.recv,fun t v total hw => ?_,?_⟩
    · obtain ⟨rfl,hsize⟩ | ⟨n,hw⟩ := hstep.copies hw
      · exact ⟨hP,hsize⟩
      · exact h.copies t v n hw
    · rw [hunread]
      obtain ⟨_,hcarries'⟩ | ⟨v,hcompletes,hcarries'⟩ := hmore _ _ hcarries
      · rw [List.append_assoc] at hcarries'
        exact ⟨p,vs,happ,hp,hcarries',hvs⟩
      · rw [List.append_assoc] at hcarries'
        refine ⟨p,vs++[v],happ,hp,hcarries',fun u hu => ?_⟩
        obtain hu | hu := List.mem_append.mp hu
        · exact hvs u hu
        · obtain rfl := List.mem_singleton.mp hu
          cases e with
          | send t k =>
            obtain ⟨total,hw,_⟩ := hcompletes
            exact h.copies t u total hw
          | _ => exact hcompletes.elim

theorem setClient_self (s : System V) (fd : Nat) : s.setClient fd (s.clients fd) = s := by
  rw [setClient,Function.update_eq_self]

theorem Getting.setClient_of_ne {a : Nat} {cl : Client V} (h : s.Getting c fd P) (hne : fd ≠ a) :
    (s.setClient a cl).Getting c fd P := by
  have hclient : (s.setClient a cl).clients fd = s.clients fd := Function.update_of_ne hne _ _
  refine ⟨hclient ▸ h.recv,h.copies,?_⟩
  rw [hclient]
  exact h.waiting

theorem Getting.appReceive {n : Nat} (h : s.Getting c fd P)
    (hwait : ∃ p, ((s.clients fd).appReceive c n).app = .waiting .get p) :
    (s.setClient fd ((s.clients fd).appReceive c n)).Getting c fd P := by
  obtain ⟨p,vs,happ,hp,hcarries,hvs⟩ := h.waiting
  by_cases hgives : (s.clients fd).gives p n
  · simp only [Client.appReceive,happ,hgives,if_true] at hwait ⊢
    cases hreceived : p.receive format ((s.clients fd).unread.take n) with
    | mk p' received =>
    rw [hreceived] at hwait
    have hmore : received = .more := by
      obtain ⟨q,hq⟩ := hwait
      cases hanswer : answer c received with
      | none => exact answer_eq_none hanswer
      | some result =>
        rw [hanswer] at hq
        cases result <;> cases hq
    subst hmore
    obtain ⟨hp',hgot⟩ := receive_more hp hreceived
    refine ⟨?_,h.copies,p',vs,?_,hp',?_,hvs⟩
    · simp [setClient,answer,h.recv]
    · simp [setClient,answer]
    · have hdata : got p'++(s.clients fd).unread.drop n = got p++(s.clients fd).unread := by
        rw [hgot,List.append_assoc,List.take_append_drop]
      simp only [setClient,Function.update_self,answer,hdata]
      exact hcarries
  · have hsame : (s.clients fd).appReceive c n = s.clients fd := by
      simp only [Client.appReceive,happ,hgives,if_false]
    rw [hsame,setClient_self]
    exact h

theorem Getting.step {e : SystemEvent V} (h : s.Getting c fd P) (hP : P s.server.value)
    (hfresh : s.Fresh c fd e) (hwait : ∃ p, ((s.step c e).clients fd).app = .waiting .get p) :
    (s.step c e).Getting c fd P := by
  obtain ⟨p,_,happ,_⟩ := h.waiting
  cases e with
  | server e =>
    have hclear : s.server.Clear fd e := hfresh (App.getting_iff.mpr ⟨p,happ⟩)
    cases e with
    | arrive a q => exact h
    | _ => exact h.serverStep hP hclear
  | call a call =>
    by_cases ha : fd = a
    · subst ha
      simp only [System.step,happ]
      exact h
    · simp only [System.step]
      split
      · split
        · exact (h.serverStep (e := .arrive a call.request) hP trivial).setClient_of_ne ha
        · exact h
      · exact h
  | unsubscribe a =>
    by_cases ha : fd = a
    · subst ha
      simp only [System.step,happ]
      exact h
    · simp only [System.step]
      split
      · exact (h.serverStep (e := .arrive a .unsubscribe) hP trivial).setClient_of_ne ha
      · exact h
  | join a =>
    by_cases ha : fd = a
    · subst ha
      have hsame : (s.clients fd).join = s.clients fd := by simp only [Client.join,happ]
      simp only [System.step,hsame,setClient_self]
      exact h
    · exact h.setClient_of_ne ha
  | appReceive a n =>
    by_cases ha : fd = a
    · subst ha
      refine h.appReceive ?_
      simpa [System.step,setClient] using hwait
    · exact h.setClient_of_ne ha
  | recvReceive a n =>
    by_cases ha : fd = a
    · subst ha
      have hsame : (s.clients fd).recvReceive c n = s.clients fd := by
        simp only [Client.recvReceive,h.recv]
      simp only [System.step,hsame,setClient_self]
      exact h
    · exact h.setClient_of_ne ha
  | appTimeout a =>
    by_cases ha : fd = a
    · subst ha
      simp [System.step,setClient,Client.appTimeout,happ] at hwait
    · exact h.setClient_of_ne ha
  | recvTimeout a =>
    by_cases ha : fd = a
    · subst ha
      have hsame : (s.clients fd).recvTimeout = s.clients fd := by
        simp only [Client.recvTimeout,h.recv]
      simp only [System.step,hsame,setClient_self]
      exact h
    · exact h.setClient_of_ne ha

theorem Getting.returned {e : SystemEvent V} {v : V} (h : s.Getting c fd P)
    (hreturned : s.returned c fd e = some (.ok v)) : P v := by
  obtain ⟨p,vs,happ,hp,hcarries,hvs⟩ := h.waiting
  cases e with
  | appReceive a n =>
    simp only [System.returned] at hreturned
    split at hreturned
    · simp only [happ] at hreturned
      split at hreturned
      · next hgives =>
        cases hreceived : p.receive format ((s.clients fd).unread.take n) with
        | mk p' received =>
        rw [hreceived] at hreturned
        cases received with
        | frame buf =>
          have hasks : ((s.clients fd).unread.take n).length ≤ p.asks format := by
            rw [List.length_take]
            exact Nat.le_trans (Nat.min_le_left _ _) hgives.2.1
          obtain ⟨hbuf,hfour,hlen,_,hlimit⟩ := receive_frame hp hasks hreceived
          have hdata : got p++(s.clients fd).unread = buf++(s.clients fd).unread.drop n := by
            rw [hbuf,List.append_assoc,List.take_append_drop]
          obtain ⟨u,hu,rfl⟩ := hcarries.first_frame (fun v hv => (hvs v hv).2)
            (fun t v total hw => (h.copies t v total hw).2) hdata hfour hlen
          have hsize : (c.serialize u).length ≤ maxLength := by
            rwa [valueFrame_take,ntohl_htonl_of_size (hvs u hu).2] at hlimit
          simp only [answer,deserializeMessage_valueFrame hsize] at hreturned
          cases hreturned
          exact (hvs v hu).1
        | _ => cases hreturned
      · cases hreturned
    · cases hreturned
  | _ => cases hreturned

theorem Current.getting (h : s.Current c fd) (hidle : (s.clients fd).app = .idle)
    (hwait : ∃ p, ((s.step c (.call fd .get)).clients fd).app = .waiting .get p) :
    (s.step c (.call fd .get)).Getting c fd (· = s.server.value) := by
  obtain ⟨vs,hcarries,hvs⟩ := h.unread
  by_cases hallows : (s.clients fd).allows (.get : Call V) = true
  · simp only [System.step,hidle,hallows,if_true]
    refine ⟨?_,h.copies,.header,vs,?_,trivial,?_,hvs⟩
    · simp [setClient,h.recv]
    · simp [setClient]
    · simp only [setClient,Function.update_self]
      exact hcarries
  · simp [System.step,hidle,hallows] at hwait

end System

/-- In every run whose steps are all fresh, what a `get()` returns was the value of the field
at a moment between its call and its return. -/
theorem get_fresh (c : Protobuf V) (s : System V) (σ : Nat → SystemEvent V) (n : Nat)
    (hfresh : ∀ k, k < n → ∀ fd, (stateAt (System.step c) s σ k).Fresh c fd (σ k))
    (fd i j : Nat) (v : V) (hij : i < j) (hj : j < n) (hcall : σ i = .call fd .get)
    (hidle : ((stateAt (System.step c) s σ i).clients fd).app = .idle)
    (hwait : ∀ k, i < k → k ≤ j →
      ((stateAt (System.step c) s σ k).clients fd).app.getting = true)
    (hreturned : (stateAt (System.step c) s σ j).returned c fd (σ j) = some (.ok v)) :
    ∃ k, i ≤ k ∧ k ≤ j ∧ (stateAt (System.step c) s σ k).server.value = v := by
  let value (k : Nat) : V := (stateAt (System.step c) s σ k).server.value
  let Seen (k : Nat) (v : V) : Prop := ∃ l, i ≤ l ∧ l ≤ k ∧ value l = v
  have hseen (k : Nat) (hk : i ≤ k) : Seen k (value k) := ⟨k,hk,Nat.le_refl k,rfl⟩
  have hgrows (k : Nat) (v : V) : Seen k v → Seen (k+1) v :=
    fun ⟨l,hil,hlk,hv⟩ => ⟨l,hil,Nat.le_succ_of_le hlk,hv⟩
  have hstart : (stateAt (System.step c) s σ (i+1)).Getting c fd (Seen (i+1)) := by
    have hcurrent : (stateAt (System.step c) s σ i).Current c fd := by
      have := hfresh i (by omega) fd
      rw [hcall] at this
      exact this rfl
    have hfirst := App.getting_iff.mp (hwait (i+1) (by omega) (by omega))
    rw [stateAt_succ,hcall] at hfirst ⊢
    refine (hcurrent.getting hidle hfirst).mono ?_
    rintro u rfl
    exact hgrows i _ (hseen i (Nat.le_refl i))
  have hgetting : ∀ k, i+1 ≤ k → k ≤ j → (stateAt (System.step c) s σ k).Getting c fd (Seen k) := by
    refine between_invariant hstart fun k hik hkj hk => ?_
    rw [stateAt_succ]
    exact System.Getting.step (hk.mono (hgrows k)) (hgrows k _ (hseen k (by omega)))
      (hfresh k (by omega) fd) (App.getting_iff.mp (hwait (k+1) (by omega) (by omega)))
  exact (hgetting j hij (Nat.le_refl j)).returned hreturned

/-! A run of the system names the server's threads that move in it. -/

def SystemEvent.thread? : SystemEvent V → Option Thread
  | .server e => e.thread?
  | _ => none

theorem System.step_tasks_of_ne {s : System V} {e : SystemEvent V} {t : Thread}
    (ht : e.thread? ≠ some t) : (s.step c e).server.tasks t = s.server.tasks t := by
  cases e with
  | server e =>
    have hserver : (s.server.step c e).tasks t = s.server.tasks t := by
      obtain heq | hstep := Server.step_cases (c := c) s.server e
      · rw [heq]
      · exact hstep.tasks_of_ne ht
    cases e with
    | arrive a q => rfl
    | _ => exact hserver
  | call a call =>
    simp only [step]
    split
    · split <;> rfl
    · rfl
  | unsubscribe a =>
    simp only [step]
    split <;> rfl
  | _ => rfl

theorem System.not_midway_of_named {s : System V} {σ : Nat → SystemEvent V} {n : Nat}
    {ts : List Thread} (hs : ∀ t, s.server.tasks t = .idle)
    (hts : ∀ k, k < n → ∀ t, t ∈ (σ k).thread? → t ∈ ts)
    (hwriting : ∀ t, t ∈ ts →
      ∀ w, w ∈ ((stateAt (System.step c) s σ n).server.tasks t).writing → w.2.2 = 0)
    (t : Thread) (fd : Nat) (v : V) (total : Nat) :
    ¬ (stateAt (System.step c) s σ n).server.Midway t fd v total := by
  have hidle : ∀ k, k ≤ n → ∀ t, t ∉ ts →
      (stateAt (System.step c) s σ k).server.tasks t = .idle := by
    intro k
    induction k with
    | zero => exact fun _ t _ => hs t
    | succ k ih =>
      intro hk t ht
      rw [stateAt_succ,step_tasks_of_ne fun hthread => ht (hts k (by omega) t hthread)]
      exact ih (by omega) t ht
  apply Server.not_midway
  intro v total hw
  by_cases ht : t ∈ ts
  · exact hwriting t ht _ hw
  · rw [hidle n (Nat.le_refl n) t ht] at hw
    cases hw

def connected : System (BitVec 7) :=
  { server := unused
    clients := fun _ => { connected := true, app := .idle, recv := none, unread := [] } }

/-- A `setLocal` between the copy and the response. -/
def answered : List (SystemEvent (BitVec 7)) :=
  [.call 3 .get,.server (.serve 3),.server (.copy (.handler 3)),.server (.setLocal 0 5),
    .server (.send (.handler 3) 6),.appReceive 3 4,.appReceive 3 2]

def answeredRun : Nat → SystemEvent (BitVec 7) := schedule answered (.join 3)

theorem answeredRun_fresh (k : Nat) (hk : k < 7) (fd : Nat) :
    (stateAt (System.step valueInt) connected answeredRun k).Fresh valueInt fd (answeredRun k) := by
  interval_cases k
  case «0» =>
    rintro rfl
    exact ⟨rfl,fun _ _ _ hw => (by cases hw),[],.inl ⟨rfl,fun _ _ _ hw => (by cases hw.1)⟩,nofun⟩
  case «4» =>
    have hts : ∀ k, k < 4 → ∀ t, t ∈ (answeredRun k).thread? → t ∈ [.handler 3,.setter 0] := by
      decide +kernel
    exact fun _ v _ t => System.not_midway_of_named (fun _ => rfl) hts (by decide +kernel) t fd
  case «5» => trivial
  case «6» => trivial
  all_goals exact fun _ => trivial

theorem get_fresh_answered :
    ∃ k, 0 ≤ k ∧ k ≤ 6 ∧
      (stateAt (System.step valueInt) connected answeredRun k).server.value = 1 :=
  get_fresh valueInt connected answeredRun 7 answeredRun_fresh 3 0 6 1 (by decide) (by decide) rfl
    rfl (by
      intro k _ _
      interval_cases k <;> decide +kernel) (by decide +kernel)

/-- Two notifications are on their way when the client unsubscribes; the receive thread ends
behind the first, and the second is what a later `get()` returns. -/
def leftOver : List (SystemEvent (BitVec 7)) :=
  [.call 3 .subscribe,.server (.serve 3),.server (.copy (.handler 3)),
    .server (.send (.handler 3) 6),.appReceive 3 4,.appReceive 3 2,
    .server (.setLocal 0 4),.server (.lock (.setter 0) [3]),.server (.copy (.setter 0)),
    .server (.send (.setter 0) 6),.server (.unlock (.setter 0)),
    .server (.setLocal 0 5),.server (.lock (.setter 0) [3]),.server (.copy (.setter 0)),
    .server (.send (.setter 0) 6),.server (.unlock (.setter 0)),
    .recvReceive 3 4,.unsubscribe 3,.recvReceive 3 2,.join 3,.server (.serve 3),
    .server (.setLocal 0 7),.server (.lock (.setter 0) []),.server (.unlock (.setter 0)),
    .call 3 .get,.appReceive 3 4,.appReceive 3 2]

def leftOverRun : Nat → SystemEvent (BitVec 7) := schedule leftOver (.join 3)

theorem get_returns_left_over :
    leftOverRun 24 = .call 3 .get ∧
    ((stateAt (System.step valueInt) connected leftOverRun 24).clients 3).app = .idle ∧
    (∀ k, 24 < k → k ≤ 26 →
      ((stateAt (System.step valueInt) connected leftOverRun k).clients 3).app.getting = true) ∧
    (stateAt (System.step valueInt) connected leftOverRun 26).returned valueInt 3 (leftOverRun 26) =
      some (.ok 5) ∧
    ¬ ∃ k, 24 ≤ k ∧ k ≤ 26 ∧
      (stateAt (System.step valueInt) connected leftOverRun k).server.value = 5 := by
  refine ⟨rfl,?_,?_,by decide +kernel,?_⟩
  · rfl
  · intro k _ _
    interval_cases k <;> decide +kernel
  · rintro ⟨k,_,_,hk⟩
    revert hk
    interval_cases k <;> decide +kernel

end LapCom.Socket.FieldThreads
