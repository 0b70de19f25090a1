import LapCom.Kernel.Descriptors
import LapCom.Machine.Run
import LapCom.Socket.Network

set_option autoImplicit false

namespace LapCom.Socket.FieldDescriptors
open LapCom.Kernel LapCom.Machine

/-- Where a call of `notifySubscribers` stands: before it has `subMutex_`, in the loop over the
subscribers, in that over `toRemove`, and there between `closeSocket` and `erase` of one. -/
inductive Notice where
  | waiting
  | sending (rest toRemove : List Nat)
  | removing (toRemove : List Nat)
  | erasing (fd : Nat) (rest : List Nat)
  deriving DecidableEq

/-- Where the thread of a connection stands in `clientLoop`. At `looping` and `retrying` it reads
`running_`; `onward` says that a SET goes on to `notifySubscribers`. -/
inductive Client where
  | absent
  | looping
  | reading
  | retrying
  | readingBody
  | subscribing
  | unsubscribing
  | sending (onward : Bool)
  | notifying (n : Notice)
  | leaving
  | closing
  | ended
  deriving DecidableEq

/-- Where `acceptLoop` stands; at `checking` with what `accept` has returned. -/
inductive Acceptor where
  | looping
  | accepting
  | checking (cli : Option Nat)
  | starting (x : Nat)
  | ended
  deriving DecidableEq

/-- Where the call of `stop` stands that has found `running_` set. -/
inductive Stopper where
  | idle
  | closingServer
  | joiningAcceptor
  | joiningClients
  | locking
  | closing (rest : List Nat)
  | done
  deriving DecidableEq

inductive Thread where
  | client (x : Nat)
  | setter (i : Nat)
  | stopper
  deriving DecidableEq

inductive Header where
  | failed
  | closed
  | ignored
  | length

/-- What a call that receives the payload returns; with the last bytes, its operation. -/
inductive Body where
  | more
  | broken
  | get
  | set
  | subscribe
  | unsubscribe
  | ignored

/-- `numbers x` is the descriptor that `accept` has returned for the connection `x`, and with which
its thread was started. `holder` has `subMutex_`. -/
structure Server where
  descriptors : Descriptors
  serverFd : Option Nat
  running : Bool
  subscribers : FdSet
  holder : Option Thread
  acceptor : Acceptor
  clients : Nat → Client
  numbers : Nat → Nat
  setters : Nat → Option Notice
  stopper : Stopper

inductive Event where
  | accept (fd : Nat)
  | refuse
  | acceptLoop
  | clientLoop (x : Nat)
  | header (x : Nat) (r : Header)
  | body (x : Nat) (r : Body)
  | subscribe (x : Nat)
  | unsubscribe (x : Nat)
  | send (x : Nat) (more : Bool)
  | setLocal (i : Nat)
  | lock (t : Thread) (order : List Nat)
  | notify (t : Thread) (more : Bool)
  | fail (t : Thread)
  | close (t : Thread)
  | erase (t : Thread)
  | unlock (t : Thread)
  | cleanup (x : Nat)
  | stop
  | lockStop (order : List Nat)

def Header.next : Header → Client
  | .failed => .retrying
  | .closed => .leaving
  | .ignored => .looping
  | .length => .readingBody

def Body.next : Body → Client
  | .more => .readingBody
  | .broken => .leaving
  | .get => .sending false
  | .set => .sending true
  | .subscribe => .subscribing
  | .unsubscribe => .unsubscribing
  | .ignored => .looping

def afterSend (onward : Bool) : Client := if onward then .notifying .waiting else .looping

def nextNotice (rest toRemove : List Nat) : Notice :=
  match rest with
  | [] => .removing toRemove
  | _ :: _ => .sending rest toRemove

def Notice.current : Notice → Option Nat
  | .sending (fd :: _) _ => some fd
  | _ => none

def Acceptor.returned : Acceptor → Option Nat
  | .checking cli => cli
  | _ => none

namespace Server

def started (serverFd : Nat) : Server :=
  { descriptors := .initial, serverFd := some serverFd, running := true, subscribers := .empty
    holder := none, acceptor := .looping, clients := fun _ => .absent, numbers := fun _ => 0
    setters := fun _ => none, stopper := .idle }

def goto (s : Server) (x : Nat) (T : Client) : Server :=
  { s with clients := Function.update s.clients x T }

def notice (s : Server) : Thread → Option Notice
  | .client x =>
    match s.clients x with
    | .notifying n => some n
    | _ => none
  | .setter i => s.setters i
  | .stopper => none

def proceed (s : Server) (t : Thread) (n : Option Notice) : Server :=
  match t with
  | .client x => s.goto x (n.elim .looping .notifying)
  | .setter i => { s with setters := Function.update s.setters i n }
  | .stopper => s

/-- `join` returns at once for a connection that has no thread. -/
def Joinable (s : Server) : Prop :=
  ∀ x, x < s.descriptors.accepted → s.clients x = .absent ∨ s.clients x = .ended

instance (s : Server) : Decidable s.Joinable :=
  inferInstanceAs (Decidable (∀ x, x < s.descriptors.accepted →
    s.clients x = .absent ∨ s.clients x = .ended))

def accept (s : Server) (fd : Nat) : Server :=
  { s with
    descriptors := s.descriptors.accept fd
    numbers := Function.update s.numbers s.descriptors.accepted fd
    acceptor := .checking (some s.descriptors.accepted) }

def acceptLoop (s : Server) : Server :=
  match s.acceptor with
  | .looping => { s with acceptor := if s.running then .accepting else .ended }
  | .checking cli =>
    { s with acceptor := if s.running then cli.elim .looping .starting else .ended }
  | .starting x => ({ s with acceptor := .looping } : Server).goto x .looping
  | _ => s

def clientLoop (s : Server) (x : Nat) : Server :=
  match s.clients x with
  | .looping => s.goto x (if s.running then .reading else .leaving)
  | .retrying => s.goto x (if s.running then .looping else .leaving)
  | _ => s

def cleanup (s : Server) (x : Nat) : Server :=
  match s.clients x with
  | .leaving =>
    if s.holder = none then
      ({ s with
        holder := some (.client x)
        subscribers := s.subscribers.erase (s.numbers x) } : Server).goto x .closing
    else s
  | .closing =>
    ({ s with
      descriptors := s.descriptors.close (s.numbers x)
      holder := none } : Server).goto x .ended
  | _ => s

def stop (s : Server) : Server :=
  match s.stopper with
  | .idle => if s.running then { s with running := false, stopper := .closingServer } else s
  | .closingServer =>
    { s with
      descriptors := s.serverFd.elim s.descriptors s.descriptors.close
      serverFd := none
      stopper := .joiningAcceptor }
  | .joiningAcceptor => if s.acceptor = .ended then { s with stopper := .joiningClients } else s
  | .joiningClients => if s.Joinable then { s with stopper := .locking } else s
  | .closing (fd :: rest) =>
    { s with descriptors := s.descriptors.close fd, stopper := .closing rest }
  | .closing [] => { s with subscribers := .empty, holder := none, stopper := .done }
  | _ => s

def step (s : Server) : Event → Server
  | .accept fd =>
    if s.acceptor = .accepting ∧ s.descriptors.owner fd = none ∧ s.serverFd ≠ some fd then
      s.accept fd
    else s
  | .refuse => if s.acceptor = .accepting then { s with acceptor := .checking none } else s
  | .acceptLoop => s.acceptLoop
  | .clientLoop x => s.clientLoop x
  | .header x r => if s.clients x = .reading then s.goto x r.next else s
  | .body x r => if s.clients x = .readingBody then s.goto x r.next else s
  | .subscribe x =>
    if s.clients x = .subscribing ∧ s.holder = none then
      ({ s with subscribers := s.subscribers.insert (s.numbers x) } : Server).goto x
        (.sending false)
    else s
  | .unsubscribe x =>
    if s.clients x = .unsubscribing ∧ s.holder = none then
      ({ s with subscribers := s.subscribers.erase (s.numbers x) } : Server).goto x .looping
    else s
  | .send x more =>
    match s.clients x with
    | .sending onward => if more then s else s.goto x (afterSend onward)
    | _ => s
  | .setLocal i => if s.setters i = none then s.proceed (.setter i) (some .waiting) else s
  | .lock t order =>
    if s.notice t = some .waiting ∧ s.holder = none ∧ order.Perm s.subscribers.fds then
      ({ s with holder := some t } : Server).proceed t (some (nextNotice order []))
    else s
  | .notify t more =>
    match s.notice t with
    | some (.sending (_ :: rest) toRemove) =>
      if more then s else s.proceed t (some (nextNotice rest toRemove))
    | _ => s
  | .fail t =>
    match s.notice t with
    | some (.sending (fd :: rest) toRemove) =>
      s.proceed t (some (nextNotice rest (toRemove++[fd])))
    | _ => s
  | .close t =>
    match s.notice t with
    | some (.removing (fd :: rest)) =>
      ({ s with descriptors := s.descriptors.close fd } : Server).proceed t
        (some (.erasing fd rest))
    | _ => s
  | .erase t =>
    match s.notice t with
    | some (.erasing fd rest) =>
      ({ s with subscribers := s.subscribers.erase fd } : Server).proceed t
        (some (.removing rest))
    | _ => s
  | .unlock t =>
    if s.notice t = some (.removing []) then
      ({ s with holder := none } : Server).proceed t none
    else s
  | .cleanup x => s.cleanup x
  | .stop => s.stop
  | .lockStop order =>
    if s.stopper = .locking ∧ s.holder = none ∧ order.Perm s.subscribers.fds then
      { s with holder := some .stopper, stopper := .closing order }
    else s

/-- The connection whose `clientLoop` reads from or writes to its own descriptor in this step. -/
def touches (s : Server) : Event → Option Nat
  | .header x _ => if s.clients x = .reading then some x else none
  | .body x _ => if s.clients x = .readingBody then some x else none
  | .send x _ =>
    match s.clients x with
    | .sending _ => some x
    | _ => none
  | .notify (.client x) _ | .fail (.client x) =>
    match s.clients x with
    | .notifying n => if n.current = some (s.numbers x) then some x else none
    | _ => none
  | _ => none

def closes (s : Server) : Event → Option Nat
  | .close t =>
    match s.notice t with
    | some (.removing (fd :: _)) => some fd
    | _ => none
  | .cleanup x => if s.clients x = .closing then some (s.numbers x) else none
  | .stop =>
    match s.stopper with
    | .closingServer => s.serverFd
    | .closing (fd :: _) => some fd
    | _ => none
  | _ => none

/-- A step after which a descriptor is closed behind the back of its `clientLoop`, or a connection
is left open: a send of `notifySubscribers` fails, or `acceptLoop` finds `running_` cleared just
after `accept` has returned a connection. -/
def drops (s : Server) : Event → Bool
  | .fail t => ((s.notice t).bind Notice.current).isSome
  | .acceptLoop => !s.running && s.acceptor.returned.isSome
  | _ => false

/-- What is read, written and closed is the caller's own connection. -/
structure Respects (s : Server) (e : Event) : Prop where
  touched : ∀ x, s.touches e = some x → s.descriptors.owner (s.numbers x) = some x
  closed : ∀ fd, s.closes e = some fd →
    (s.serverFd = some fd ∧ s.descriptors.owner fd = none) ∨
      ∃ x, e = .cleanup x ∧ s.numbers x = fd ∧ s.descriptors.owner fd = some x

end Server

end LapCom.Socket.FieldDescriptors
