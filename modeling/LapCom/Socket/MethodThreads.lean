import LapCom.ComTypes
import LapCom.Machine.Run

set_option autoImplicit false

/-! `SocketMethodResponder` by thread: the accept loop, a detached thread for each client, and the
one that starts and stops the responder. -/

namespace LapCom.Socket.MethodThreads
open LapCom.Machine

/-- Where a thread stands in `handleClient`. -/
inductive Client where
  | absent
  | starting
  | readingSize
  | checkingSize
  | readingBody
  | handling
  | sending (parts : Nat)
  | closing
  | ended
  deriving DecidableEq

/-- What a call of `receive` does for `recvExact`; with the last bytes of a request goes whether it
is parsed. -/
inductive Received where
  | failed
  | more
  | last (parsed : Bool)

inductive Size where
  | tooLarge
  | empty (parsed : Bool)
  | body

/-- The envelope of the answer: the length and the status, and a payload if there is one. -/
inductive Answer where
  | status
  | payload

def Answer.parts : Answer → Nat
  | .status => 2
  | .payload => 3

/-- A step of `handleClient`. A step in the call of `m_handler` is `handle`, and the last one has
the answer; the last `send` of a part has sent it or failed. -/
inductive Act where
  | guard
  | receive (r : Received)
  | check (r : Size)
  | handle (r : Option Answer)
  | send (last : Bool)
  | close

def afterParse (parsed : Bool) : Client := if parsed then .handling else .closing

def Client.next : Client → Act → Option Client
  | .starting, .guard => some .readingSize
  | .readingSize, .receive r => some (match r with
    | .failed => .closing
    | .more => .readingSize
    | .last _ => .checkingSize)
  | .checkingSize, .check r => some (match r with
    | .tooLarge => .closing
    | .empty parsed => afterParse parsed
    | .body => .readingBody)
  | .readingBody, .receive r => some (match r with
    | .failed => .closing
    | .more => .readingBody
    | .last parsed => afterParse parsed)
  | .handling, .handle r => some (match r with
    | none => .handling
    | some answer => .sending answer.parts)
  | .sending parts, .send last =>
    some (if last = false then .sending parts
      else if parts ≤ 1 then .closing else .sending (parts-1))
  | .closing, .close => some .ended
  | _, _ => none

/-- The guard takes `m_manager`, `receive` and `send` are called on it, `m_endpoint` has the maximal
size. The descriptor is closed through the reference in the guard. -/
def Act.readsMember : Act → Bool
  | .close => false
  | _ => true

/-- Where `processLoop` stands; without a thread it is at its end. -/
inductive Acceptor where
  | looping
  | accepting
  | starting
  | ended
  deriving DecidableEq

inductive Stopper where
  | idle
  | closingServer
  | joining
  deriving DecidableEq

/-- `returns` counts the calls of `stop` that have returned, `born x` those that had when the thread
of the client `x` was started. -/
structure Responder where
  running : Bool
  serverFd : Option Nat
  acceptor : Acceptor
  stopper : Stopper
  clients : Nat → Client
  born : Nat → Nat
  accepted : Nat
  returns : Nat

/-- `start` and `stop` are called by one thread. -/
inductive Event where
  | start (opened : Result Nat)
  | stop
  | acceptLoop
  | accept (ok : Bool)
  | client (x : Nat) (act : Act)

namespace Responder

def new : Responder :=
  { running := false, serverFd := none, acceptor := .ended, stopper := .idle
    clients := fun _ => .absent, born := fun _ => 0, accepted := 0, returns := 0 }

def start (s : Responder) (opened : Result Nat) : Result Unit × Responder :=
  if s.running then (fail .kInvalidState 0,s)
  else match opened with
    | .error e => (.error e,s)
    | .ok fd => (.ok (),{ s with serverFd := some fd, running := true, acceptor := .looping })

/-- The thread is detached: nobody joins it. -/
def acceptLoop (s : Responder) : Responder :=
  match s.acceptor with
  | .looping => { s with acceptor := if s.running then .accepting else .ended }
  | .starting =>
    { s with
      acceptor := .looping, accepted := s.accepted+1
      clients := Function.update s.clients s.accepted .starting
      born := Function.update s.born s.accepted s.returns }
  | .accepting => s
  | .ended => s

def accept (s : Responder) (ok : Bool) : Responder :=
  match s.acceptor with
  | .accepting => { s with acceptor := if ok then .starting else .looping }
  | _ => s

def stopReturns (s : Responder) : Bool :=
  match s.stopper with
  | .idle => !s.running
  | .closingServer => false
  | .joining => s.acceptor = .ended

def stop (s : Responder) : Responder :=
  if s.stopReturns then { s with stopper := .idle, returns := s.returns+1 }
  else match s.stopper with
    | .idle => { s with running := false, stopper := .closingServer }
    | .closingServer => { s with serverFd := none, stopper := .joining }
    | .joining => s

def step (s : Responder) : Event → Responder
  | .start opened => if s.stopper = .idle then (s.start opened).2 else s
  | .stop => s.stop
  | .acceptLoop => s.acceptLoop
  | .accept ok => s.accept ok
  | .client x act =>
    match (s.clients x).next act with
    | none => s
    | some c => { s with clients := Function.update s.clients x c }

/-- The client whose `handleClient` reads a member of the responder in this step. -/
def reads (s : Responder) : Event → Option Nat
  | .client x act => if ((s.clients x).next act).isSome && act.readsMember then some x else none
  | _ => none

/-- What reads a member was started after the last return of `stop`. -/
def ReadsAlive (s : Responder) (e : Event) : Prop := ∀ x, s.reads e = some x → s.born x = s.returns

end Responder

def Client.working : Client → Bool
  | .absent => false
  | .closing => false
  | .ended => false
  | _ => true

/-- No `handleClient` is under way when a call of `stop` returns. -/
def Responder.Drained (s : Responder) : Event → Prop
  | .stop => s.stopReturns = true → ∀ x, (s.clients x).working = false
  | _ => True

def Event.isClient : Event → Prop
  | .client _ _ => True
  | _ => False

abbrev responderAt (σ : Nat → Event) (k : Nat) : Responder := stateAt Responder.step .new σ k

theorem Client.working_of_next {c c' : Client} {act : Act} (h : c.next act = some c')
    (hworking : c'.working = true) : c.working = true := by
  cases c with
  | absent | ended => cases act <;> cases h
  | closing =>
    cases act with
    | close =>
      cases h
      cases hworking
    | _ => cases h
  | _ => rfl

theorem Client.working_of_reads {c : Client} {act : Act} (h : (c.next act).isSome = true)
    (hreads : act.readsMember = true) : c.working = true := by
  cases c with
  | absent | ended => cases act <;> cases h
  | closing =>
    cases act with
    | close => cases hreads
    | _ => cases h
  | _ => rfl

theorem Client.reads_of_working {c : Client} (h : c.working = true) :
    ∃ act : Act, (c.next act).isSome = true ∧ act.readsMember = true := by
  cases c with
  | absent | closing | ended => cases h
  | starting => exact ⟨.guard,rfl,rfl⟩
  | readingSize | readingBody => exact ⟨.receive .failed,rfl,rfl⟩
  | checkingSize => exact ⟨.check .tooLarge,rfl,rfl⟩
  | handling => exact ⟨.handle none,rfl,rfl⟩
  | sending parts => exact ⟨.send true,rfl,rfl⟩

/-- Whoever is at work was started after the last return of `stop`. -/
def Fresh (s : Responder) : Prop := ∀ x, (s.clients x).working = true → s.born x = s.returns

section Steps
variable {s : Responder}

theorem Fresh.client (h : Fresh s) (x : Nat) (act : Act) : Fresh (s.step (.client x act)) := by
  rw [Responder.step]
  cases hnext : (s.clients x).next act with
  | none => exact h
  | some c =>
    intro y hy
    by_cases hyx : y = x
    · subst hyx
      simp only [Function.update_self] at hy
      exact h y (Client.working_of_next hnext hy)
    · simp only [Function.update_of_ne hyx] at hy
      exact h y hy

theorem Fresh.start (h : Fresh s) (opened : Result Nat) : Fresh (s.start opened).2 := by
  unfold Responder.start
  split_ifs
  · exact h
  · cases opened with
    | _ => exact h

theorem Fresh.acceptLoop (h : Fresh s) : Fresh s.acceptLoop := by
  rw [Responder.acceptLoop]
  split
  · exact h
  · intro x hx
    by_cases hxs : x = s.accepted
    · subst hxs
      simp
    · simp only [Function.update_of_ne hxs] at hx ⊢
      exact h x hx
  · exact h
  · exact h

theorem Fresh.stop (h : Fresh s) (hdrained : s.Drained .stop) : Fresh s.stop := by
  rw [Responder.stop]
  split_ifs with hreturns
  · intro x hx
    have hidle := hdrained hreturns x
    have hx' : (s.clients x).working = true := hx
    rw [hidle] at hx'
    cases hx'
  · cases s.stopper with
    | _ => exact h

theorem Fresh.step (h : Fresh s) {e : Event} (he : s.Drained e) : Fresh (s.step e) := by
  cases e with
  | start opened =>
    rw [Responder.step]
    split_ifs
    · exact h.start opened
    · exact h
  | stop => exact h.stop he
  | acceptLoop => exact h.acceptLoop
  | accept ok =>
    rw [Responder.step,Responder.accept]
    split
    · exact h
    · exact h
  | client x act => exact h.client x act

theorem Fresh.readsAlive (h : Fresh s) (e : Event) : s.ReadsAlive e := by
  intro x hx
  cases e with
  | client y act =>
    simp only [Responder.reads] at hx
    split_ifs at hx with hreads
    cases hx
    obtain ⟨hnext,hmember⟩ := Bool.and_eq_true_iff.mp hreads
    exact h _ (Client.working_of_reads hnext hmember)
  | _ => cases hx

/-- A thread that is at work when `stop` returns reads a member behind its back. -/
theorem Fresh.outlives (h : Fresh s) {e : Event} (he : ¬ s.Drained e) :
    ∃ x act, ¬ (s.step e).ReadsAlive (.client x act) := by
  cases e with
  | stop =>
    obtain ⟨hreturns,hall⟩ := Classical.not_imp.mp he
    obtain ⟨x,hx⟩ := not_forall.mp hall
    have hworking : (s.clients x).working = true := by simpa using hx
    obtain ⟨act,hnext,hmember⟩ := Client.reads_of_working hworking
    refine ⟨x,act,fun halive => ?_⟩
    have hstop : s.step .stop = { s with stopper := .idle, returns := s.returns+1 } := by
      rw [Responder.step,Responder.stop,if_pos hreturns]
    have hborn := halive x (by rw [hstop,Responder.reads,hnext,hmember]; rfl)
    rw [hstop] at hborn
    have hfresh := h x hworking
    have hborn' : s.born x = s.returns+1 := hborn
    omega
  | _ => exact absurd trivial he

end Steps

/-- Over every run: no request is under way at a return of `stop` if and only if the requests, let
run on from any point of the run, read no member behind such a return. -/
theorem reads_alive_iff (σ : Nat → Event) (n : Nat) :
    (∀ k, k < n → (responderAt σ k).Drained (σ k)) ↔
      ∀ τ, Follows Event.isClient σ n τ → ∀ k, (responderAt τ k).ReadsAlive (τ k) := by
  apply forall_follows_iff (I := Fresh)
  · intro x hx
    cases hx
  · exact fun s e h he => h.step he
  · exact fun s e h => h.readsAlive e
  · intro s e he
    cases e with
    | client x act => trivial
    | _ => cases he
  · intro s e h he
    obtain ⟨x,act,hlate⟩ := h.outlives he
    exact ⟨fun _ => .client x act,fun _ => trivial,0,hlate⟩

/-- A client that sends nothing until the responder has been stopped. -/
def idleClient : List Event :=
  [.start (.ok 3),.acceptLoop,.accept true,.acceptLoop,.client 0 .guard,.stop,.stop,.acceptLoop,
    .stop]

theorem idleClient_outlives : ¬ ∀ σ k, (responderAt σ k).ReadsAlive (σ k) := by
  intro h
  have hborn := h (schedule idleClient (.client 0 (.receive .more))) 9 0 rfl
  cases hborn

end LapCom.Socket.MethodThreads
