import LapCom.Socket.FieldThreads

set_option autoImplicit false

namespace LapCom.Socket.FieldThreads
open LapCom.Stream

variable {V : Type} {c : Protobuf V}

def smoothCalls : Nat → Calls := fun _ => ⟨fun _ => false,fun _ => false⟩

/-- The server as one thread sees it that nobody interrupts. -/
def Server.alone (s : Server V) : SocketFieldServer V :=
  { value := s.value, subscribers := s.subscribers, net := ⟨s.written,smoothCalls⟩ }

def copyAndSend (t : Thread) (size : Nat) : List (Event V) := [.copy t,.send t size]

def notifyEvents (c : Protobuf V) (t : Thread) (fds : List Nat) (value : V) : List (Event V) :=
  .lock t fds :: (fds.flatMap fun _ => copyAndSend t (valueFrame c value).length)++[.unlock t]

/-- The events of a request whose handler nobody interrupts. -/
def requestEvents (c : Protobuf V) (s : Server V) (fd : Nat) (q : Request V) : List (Event V) :=
  let t := Thread.handler fd
  match q with
  | .get => [.arrive fd q,.serve fd]++copyAndSend t (valueFrame c s.value).length
  | .subscribe => [.arrive fd q,.serve fd]++copyAndSend t (valueFrame c s.value).length
  | .unsubscribe => [.arrive fd q,.serve fd]
  | .set v => [.arrive fd q,.serve fd]++copyAndSend t (valueFrame c v).length++
      notifyEvents c t s.subscribers.fds v

def Server.run (c : Protobuf V) (s : Server V) (es : List (Event V)) : Server V :=
  es.foldl (Server.step c) s

theorem Server.run_append (s : Server V) (es es' : List (Event V)) :
    s.run c (es++es') = (s.run c es).run c es' := List.foldl_append

theorem valueFrame_pos (v : V) : 0 < (valueFrame c v).length := by
  rw [valueFrame,List.length_append,htonl_length]
  omega

theorem send_smooth (written : Nat → List Byte) (fd : Nat) (data : List Byte) :
    (⟨written,smoothCalls⟩ : Network).send fd data =
      (⟨Function.update written fd (written fd++data),smoothCalls⟩,true) :=
  Network.send_healthy (fun _ _ => rfl) fd data

theorem Server.run_reply {s : Server V} {t : Thread} {fd : Nat} {onward : Bool}
    (ht : s.tasks t = .reply fd onward) (hsize : (c.serialize s.value).length < 2^31)
    (hopen : fd ∉ s.closed) :
    s.run c (copyAndSend t (valueFrame c s.value).length) =
      (s.write fd (valueFrame c s.value)).goto t (afterReply onward) := by
  have hcopy : s.step c (.copy t) = s.goto t (.replying fd s.value 0 onward) := by
    simp only [step,ht,serializeMessage_of_lt hsize]
  have hsend : (s.goto t (.replying fd s.value 0 onward)).step c
      (.send t (valueFrame c s.value).length) =
        (s.write fd (valueFrame c s.value)).goto t (afterReply onward) := by
    simp [step,goto,write,Task.writing,Task.advance,valueFrame_pos,hopen]
  simp only [run,copyAndSend,List.foldl_cons,List.foldl_nil,hcopy,hsend]

def writeTo (data : List Byte) (fds : List Nat) (written : Nat → List Byte) : Nat → List Byte :=
  fds.foldl (fun w fd => Function.update w fd (w fd++data)) written

theorem sendTo_smooth (data : List Byte) (fds : List Nat) (written : Nat → List Byte)
    (toRemove : List Nat) :
    sendTo data fds ⟨written,smoothCalls⟩ toRemove =
      (⟨writeTo data fds written,smoothCalls⟩,toRemove) := by
  induction fds generalizing written with
  | nil => rfl
  | cons fd fds ih =>
    simp only [sendTo,send_smooth,if_true]
    exact ih _

theorem Server.run_notifying {s : Server V} {t : Thread} {fds : List Nat}
    (ht : s.tasks t = .notifying fds []) (hsize : (c.serialize s.value).length < 2^31)
    (hopen : ∀ fd, fd ∈ fds → fd ∉ s.closed) :
    s.run c (fds.flatMap fun _ => copyAndSend t (valueFrame c s.value).length) =
      ({ s with written := writeTo (valueFrame c s.value) fds s.written } : Server V).goto t
        (.notifying [] []) := by
  induction fds generalizing s with
  | nil =>
    simp only [run,List.flatMap_nil,List.foldl_nil,writeTo,goto]
    rw [← ht,Function.update_eq_self]
  | cons fd fds ih =>
    have hcopy : s.step c (.copy t) = s.goto t (.sending fd fds [] s.value 0) := by
      simp only [step,ht,serializeMessage_of_lt hsize]
    have hsend : (s.goto t (.sending fd fds [] s.value 0)).step c
        (.send t (valueFrame c s.value).length) =
          (s.write fd (valueFrame c s.value)).goto t (.notifying fds []) := by
      simp [step,goto,write,Task.writing,Task.advance,valueFrame_pos,hopen fd List.mem_cons_self]
    have hrest := ih (s := (s.write fd (valueFrame c s.value)).goto t (.notifying fds []))
      (Function.update_self _ _ _) hsize fun a ha => hopen a (List.mem_cons_of_mem _ ha)
    rw [List.flatMap_cons,run_append]
    simp only [copyAndSend,run,List.foldl_cons,List.foldl_nil,hcopy,hsend]
    refine hrest.trans ?_
    simp only [goto,write,Function.update_idem,writeTo,List.foldl_cons]

theorem Server.run_notify {s : Server V} {t : Thread} (ht : s.tasks t = .notify)
    (hfree : s.holder = none) (hsize : (c.serialize s.value).length < 2^31)
    (hopen : ∀ fd, fd ∈ s.subscribers.fds → fd ∉ s.closed) :
    s.run c (notifyEvents c t s.subscribers.fds s.value) =
      ({ s with
        written := writeTo (valueFrame c s.value) s.subscribers.fds s.written } :
          Server V).goto t .idle := by
  have hlock : s.step c (.lock t s.subscribers.fds) =
      ({ s with holder := some t } : Server V).goto t (.notifying s.subscribers.fds []) := by
    simp only [step,ht,hfree]
    exact if_pos (List.Perm.refl _)
  have hsent := Server.run_notifying (c := c)
    (s := ({ s with holder := some t } : Server V).goto t (.notifying s.subscribers.fds []))
    (Function.update_self _ _ _) hsize hopen
  have hcons : s.run c (notifyEvents c t s.subscribers.fds s.value) =
      ((s.step c (.lock t s.subscribers.fds)).run c
        (s.subscribers.fds.flatMap fun _ => copyAndSend t (valueFrame c s.value).length)).run c
          [.unlock t] := (run_append _ _ _)
  rw [hcons,hlock]
  refine (congrArg (Server.run c · [.unlock t]) hsent).trans ?_
  simp [run,step,goto,hfree]

/-- No thread is in a call and every connection's requests are read. -/
structure Server.Quiet (s : Server V) : Prop where
  idle : ∀ t, s.tasks t = .idle
  free : s.holder = none
  unread : ∀ fd, s.requests fd = []
  opened : ∀ fd, fd ∈ s.subscribers.fds → fd ∉ s.closed

namespace Server

theorem alone_notifySubscribers {s : Server V} (hsize : (c.serialize s.value).length < 2^31) :
    s.alone.notifySubscribers c = { s.alone with
      net := ⟨writeTo (valueFrame c s.value) s.subscribers.fds s.written,smoothCalls⟩ } := by
  simp only [SocketFieldServer.notifySubscribers,alone,serializeMessage_of_lt hsize]
  rw [← valueFrame,sendTo_smooth]
  rfl

theorem alone_sendValue {s : Server V} (hsize : (c.serialize s.value).length < 2^31) (fd : Nat) :
    s.alone.sendValue c fd = (s.write fd (valueFrame c s.value)).alone := by
  simp only [SocketFieldServer.sendValue,alone,serializeMessage_of_lt hsize]
  rw [← valueFrame,send_smooth]
  rfl

theorem goto_idle {s : Server V} {t : Thread} (h : s.tasks t = .idle) : s.goto t .idle = s := by
  simp only [goto,← h,Function.update_eq_self]

theorem goto_goto (s : Server V) (t : Thread) (T T' : Task V) :
    (s.goto t T).goto t T' = s.goto t T' := by
  simp only [goto,Function.update_idem]

theorem setLocal_alone {s : Server V} (h : s.Quiet) {v : V}
    (hsize : (c.serialize v).length < 2^31) (i : Nat) :
    let s' := s.run c (.setLocal i v :: notifyEvents c (.setter i) s.subscribers.fds v)
    s'.Quiet ∧ s'.alone = s.alone.setLocal c v ∧ s'.value = v ∧ s'.closed = s.closed := by
  intro s'
  have hstart : s.step c (.setLocal i v) =
      ({ s with value := v } : Server V).goto (.setter i) .notify := by
    simp only [step,h.idle]
  have hrun : s' = { s with
      value := v, written := writeTo (valueFrame c v) s.subscribers.fds s.written } := by
    show (s.step c (.setLocal i v)).run c _ = _
    rw [hstart]
    refine (run_notify (s := ({ s with value := v } : Server V).goto (.setter i) .notify)
      (Function.update_self _ _ _) h.free hsize h.opened).trans ?_
    exact (goto_goto { s with
      value := v, written := writeTo (valueFrame c v) s.subscribers.fds s.written } _ _ _).trans
        (goto_idle (h.idle _))
  rw [hrun]
  exact ⟨⟨h.idle,h.free,h.unread,h.opened⟩,
    (alone_notifySubscribers (s := ({ s with value := v } : Server V)) hsize).symm,rfl,rfl⟩

def answered (s : Server V) : Request V → V
  | .set v => v
  | _ => s.value

theorem run_serve {s : Server V} (h : s.Quiet) (fd : Nat) (q : Request V) :
    s.run c [.arrive fd q,.serve fd] = s.execute fd q := by
  have hrequests : Function.update s.requests fd [] = s.requests := by
    rw [← h.unread fd,Function.update_eq_self]
  have hfree : ¬ (locks q = true ∧ s.holder ≠ none) := fun hlocked => hlocked.2 h.free
  simp only [run,List.foldl_cons,List.foldl_nil,step,h.idle,h.unread,List.nil_append,
    Function.update_self,if_neg hfree,Function.update_idem,hrequests]

theorem execute_run_reply {s u : Server V} {fd : Nat} {onward : Bool}
    (hsize : (c.serialize u.value).length < 2^31) (hopen : fd ∉ u.closed)
    (hexec : s = u.goto (.handler fd) (.reply fd onward)) :
    s.run c (copyAndSend (.handler fd) (valueFrame c u.value).length) =
      (u.write fd (valueFrame c u.value)).goto (.handler fd) (afterReply onward) := by
  subst hexec
  refine (run_reply (s := u.goto (.handler fd) (.reply fd onward))
    (Function.update_self _ _ _) hsize hopen).trans ?_
  exact goto_goto (u.write fd (valueFrame c u.value)) _ _ _

theorem request_alone {s : Server V} (h : s.Quiet) {q : Request V} {fd : Nat}
    (hopen : fd ∉ s.closed) (hsize : (c.serialize (s.answered q)).length < 2^31) :
    let s' := s.run c (requestEvents c s fd q)
    s'.Quiet ∧ s'.alone = s.alone.execute c fd q ∧ s'.value = s.answered q ∧
      s'.closed = s.closed := by
  intro s'
  cases q with
  | get =>
    have hrun : s' = s.write fd (valueFrame c s.value) := by
      show s.run c ([.arrive fd .get,.serve fd]++_) = _
      rw [run_append,run_serve h]
      refine (execute_run_reply hsize hopen rfl).trans ?_
      exact goto_idle (h.idle _)
    rw [hrun]
    exact ⟨⟨h.idle,h.free,h.unread,h.opened⟩,(alone_sendValue hsize fd).symm,rfl,rfl⟩
  | subscribe =>
    let s₁ : Server V := { s with subscribers := s.subscribers.insert fd }
    have hq : s₁.Quiet := ⟨h.idle,h.free,h.unread,fun a ha => by
      rcases FdSet.mem_insert.mp ha with rfl | ha
      · exact hopen
      · exact h.opened a ha⟩
    have hrun : s' = s₁.write fd (valueFrame c s.value) := by
      show s.run c ([.arrive fd .subscribe,.serve fd]++_) = _
      rw [run_append,run_serve h]
      refine (execute_run_reply (u := s₁) hsize hopen rfl).trans ?_
      exact goto_idle (h.idle _)
    rw [hrun]
    exact ⟨⟨hq.idle,hq.free,hq.unread,hq.opened⟩,(alone_sendValue (s := s₁) hsize fd).symm,
      rfl,rfl⟩
  | unsubscribe =>
    have hrun : s' = { s with subscribers := s.subscribers.erase fd } := run_serve h fd _
    rw [hrun]
    exact ⟨⟨h.idle,h.free,h.unread,fun a ha => h.opened a (FdSet.mem_erase.mp ha).2⟩,rfl,rfl,rfl⟩
  | set v =>
    let s₁ : Server V := { s with value := v }
    let s₂ : Server V := s₁.write fd (valueFrame c v)
    have hrun : s' = { s₂ with
        written := writeTo (valueFrame c v) s.subscribers.fds s₂.written } := by
      show s.run c ([.arrive fd (.set v),.serve fd]++_++_) = _
      rw [run_append,run_append,run_serve h]
      rw [show s.execute fd (.set v) = s₁.goto (.handler fd) (.reply fd true) from rfl,
        execute_run_reply (u := s₁) hsize hopen rfl]
      refine (run_notify (s := s₂.goto (.handler fd) .notify)
        (Function.update_self _ _ _) h.free hsize h.opened).trans ?_
      exact (goto_goto { s₂ with
        written := writeTo (valueFrame c v) s.subscribers.fds s₂.written } _ _ _).trans
          (goto_idle (h.idle _))
    rw [hrun]
    refine ⟨⟨h.idle,h.free,h.unread,h.opened⟩,?_,rfl,rfl⟩
    have hsent := alone_sendValue (s := s₁) hsize fd
    exact (congrArg _ hsent).trans (alone_notifySubscribers (s := s₂) hsize) |>.symm

end Server

inductive ServerCall (V : Type) where
  | setLocal (i : Nat) (v : V)
  | request (fd : Nat) (q : Request V)

/-- What a call needs to be carried out: an open connection and a value that can be sent. -/
def ServerCall.Fits (c : Protobuf V) (closed : List Nat) : ServerCall V → Prop
  | .setLocal _ v => (c.serialize v).length < 2^31
  | .request fd (.set v) => fd ∉ closed ∧ (c.serialize v).length < 2^31
  | .request fd _ => fd ∉ closed

def Server.call (c : Protobuf V) (s : Server V) : ServerCall V → Server V
  | .setLocal i v => s.run c (.setLocal i v :: notifyEvents c (.setter i) s.subscribers.fds v)
  | .request fd q => s.run c (requestEvents c s fd q)

def ServerCall.perform (c : Protobuf V) (s : SocketFieldServer V) : ServerCall V →
    SocketFieldServer V
  | .setLocal _ v => s.setLocal c v
  | .request fd q => s.execute c fd q

theorem Server.call_alone {s : Server V} (h : s.Quiet) (hsize : (c.serialize s.value).length < 2^31)
    {a : ServerCall V} (ha : a.Fits c s.closed) :
    (s.call c a).Quiet ∧ (s.call c a).alone = ServerCall.perform c s.alone a ∧
      (c.serialize (s.call c a).value).length < 2^31 ∧ (s.call c a).closed = s.closed := by
  cases a with
  | setLocal i v =>
    obtain ⟨hquiet,halone,hvalue,hclosed⟩ := setLocal_alone h ha i
    refine ⟨hquiet,halone,?_,hclosed⟩
    rw [show (s.call c (.setLocal i v)).value = v from hvalue]
    exact ha
  | request fd q =>
    have hfits : fd ∉ s.closed ∧ (c.serialize (s.answered q)).length < 2^31 := by
      cases q with
      | set v => exact ha
      | _ => exact ⟨ha,hsize⟩
    obtain ⟨hquiet,halone,hvalue,hclosed⟩ := request_alone h hfits.1 hfits.2
    exact ⟨hquiet,halone,hvalue ▸ hfits.2,hclosed⟩

/-- Calls that follow one another without overlap do what the functions do. -/
theorem Server.calls_alone {s : Server V} (h : s.Quiet)
    (hsize : (c.serialize s.value).length < 2^31) {calls : List (ServerCall V)}
    (hcalls : ∀ a, a ∈ calls → a.Fits c s.closed) :
    (calls.foldl (Server.call c) s).Quiet ∧
      (calls.foldl (Server.call c) s).alone = calls.foldl (ServerCall.perform c) s.alone := by
  induction calls generalizing s with
  | nil => exact ⟨h,rfl⟩
  | cons a calls ih =>
    obtain ⟨hquiet,halone,hnext,hclosed⟩ := Server.call_alone h hsize (hcalls a List.mem_cons_self)
    have hrest := ih hquiet hnext fun b hb => hclosed ▸ hcalls b (List.mem_cons_of_mem _ hb)
    rwa [halone] at hrest

end LapCom.Socket.FieldThreads
