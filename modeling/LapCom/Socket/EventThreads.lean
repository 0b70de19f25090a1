import LapCom.Kernel.Descriptors
import LapCom.Machine.Run
import LapCom.Socket.Frame
import LapCom.Socket.Network

set_option autoImplicit false

namespace LapCom.Socket.EventThreads
open LapCom.Kernel LapCom.Machine

/-- The threads of a publisher: that of `acceptLoop`, and those that call `publish`. -/
inductive Thread where
  | acceptor
  | publisher (i : Nat)
  deriving DecidableEq

/-- Where a thread stands: in the loop of `publish` that takes waiting connections, before an
accepted connection is inserted, before `subMutex_` is taken for sending, in the send loop of one
connection, and between `closeSocket` and `erase` of one that failed. -/
inductive Task (V : Type) where
  | idle
  | absorbing (evt : V)
  | adding (evt : Option V) (fd : Nat)
  | ready (evt : V)
  | sending (evt : V) (fd : Nat) (rest toRemove : List Nat) (total : Nat)
  | removing (toRemove : List Nat)
  | erasing (fd : Nat) (rest : List Nat)

/-- A started publisher. `written` is by connection, `holder` has `subMutex_`; an insertion under
it is a single step. -/
structure Publisher (V : Type) where
  descriptors : Descriptors
  subscribers : FdSet
  holder : Option Thread
  tasks : Thread → Task V
  written : Nat → List Byte

inductive Event (V : Type) where
  | publish (i : Nat) (evt : V)
  | accept (t : Thread) (fd : Nat)
  | refuse (t : Thread)
  | add (t : Thread)
  | lock (t : Thread) (order : List Nat)
  | send (t : Thread) (k : Nat)
  | fail (t : Thread)
  | close (t : Thread)
  | erase (t : Thread)
  | unlock (t : Thread)

variable {V : Type}

def eventFrame (c : Protobuf V) (evt : V) : List Byte :=
  htonl (c.serialize evt).length++c.serialize evt

def nextTask (evt : V) (rest toRemove : List Nat) : Task V :=
  match rest with
  | [] => .removing toRemove
  | fd :: rest => .sending evt fd rest toRemove 0

def afterAdd : Option V → Task V
  | none => .idle
  | some evt => .absorbing evt

namespace Publisher

def initial : Publisher V :=
  { descriptors := .initial, subscribers := .empty, holder := none, tasks := fun _ => .idle
    written := fun _ => [] }

def goto (s : Publisher V) (t : Thread) (T : Task V) : Publisher V :=
  { s with tasks := Function.update s.tasks t T }

def write (s : Publisher V) (x : Nat) (data : List Byte) : Publisher V :=
  { s with written := Function.update s.written x (s.written x++data) }

def accept (s : Publisher V) (t : Thread) (evt : Option V) (fd : Nat) : Publisher V :=
  if s.descriptors.owner fd = none then
    ({ s with descriptors := s.descriptors.accept fd } : Publisher V).goto t (.adding evt fd)
  else s

def step (c : Protobuf V) (s : Publisher V) : Event V → Publisher V
  | .publish i evt =>
    match s.tasks (.publisher i),serializeMessage c evt with
    | .idle,.ok _ => s.goto (.publisher i) (.absorbing evt)
    | _,_ => s
  | .accept t fd =>
    match s.tasks t with
    | .absorbing evt => s.accept t (some evt) fd
    | .idle => if t = .acceptor then s.accept t none fd else s
    | _ => s
  | .refuse t =>
    match s.tasks t with
    | .absorbing evt => s.goto t (.ready evt)
    | _ => s
  | .add t =>
    match s.tasks t,s.holder with
    | .adding evt fd,none =>
      ({ s with subscribers := s.subscribers.insert fd } : Publisher V).goto t (afterAdd evt)
    | _,_ => s
  | .lock t order =>
    match s.tasks t,s.holder with
    | .ready evt,none =>
      if order.Perm s.subscribers.fds then
        ({ s with holder := some t } : Publisher V).goto t (nextTask evt order [])
      else s
    | _,_ => s
  | .send t k =>
    match s.tasks t with
    | .sending evt fd rest toRemove total =>
      match s.descriptors.owner fd with
      | none => s
      | some x =>
        if 0 < k ∧ total+k ≤ (eventFrame c evt).length then
          (s.write x (((eventFrame c evt).drop total).take k)).goto t
            (if total+k = (eventFrame c evt).length then nextTask evt rest toRemove
              else .sending evt fd rest toRemove (total+k))
        else s
    | _ => s
  | .fail t =>
    match s.tasks t with
    | .sending evt fd rest toRemove _ => s.goto t (nextTask evt rest (toRemove++[fd]))
    | _ => s
  | .close t =>
    match s.tasks t with
    | .removing (fd :: rest) =>
      ({ s with descriptors := s.descriptors.close fd } : Publisher V).goto t (.erasing fd rest)
    | _ => s
  | .erase t =>
    match s.tasks t with
    | .erasing fd rest =>
      ({ s with subscribers := s.subscribers.erase fd } : Publisher V).goto t (.removing rest)
    | _ => s
  | .unlock t =>
    match s.tasks t with
    | .removing [] => ({ s with holder := none } : Publisher V).goto t .idle
    | _ => s

inductive Step (c : Protobuf V) (s : Publisher V) : Event V → Publisher V → Prop where
  | publish {i : Nat} {evt : V} (ht : s.tasks (.publisher i) = .idle) :
      Step c s (.publish i evt) (s.goto (.publisher i) (.absorbing evt))
  | accept {t : Thread} {fd : Nat} (evt : Option V) (ht : s.tasks t = afterAdd evt)
      (hfree : s.descriptors.owner fd = none) :
      Step c s (.accept t fd)
        (({ s with descriptors := s.descriptors.accept fd } : Publisher V).goto t
          (.adding evt fd))
  | refuse {t : Thread} {evt : V} (ht : s.tasks t = .absorbing evt) :
      Step c s (.refuse t) (s.goto t (.ready evt))
  | add {t : Thread} {evt : Option V} {fd : Nat} (ht : s.tasks t = .adding evt fd)
      (hfree : s.holder = none) :
      Step c s (.add t)
        (({ s with subscribers := s.subscribers.insert fd } : Publisher V).goto t (afterAdd evt))
  | lock {t : Thread} {evt : V} {order : List Nat} (ht : s.tasks t = .ready evt)
      (hfree : s.holder = none) (hperm : order.Perm s.subscribers.fds) :
      Step c s (.lock t order)
        (({ s with holder := some t } : Publisher V).goto t (nextTask evt order []))
  | send {t : Thread} {k fd x total : Nat} {evt : V} {rest toRemove : List Nat}
      (ht : s.tasks t = .sending evt fd rest toRemove total)
      (hx : s.descriptors.owner fd = some x) (hk : 0 < k)
      (hle : total+k ≤ (eventFrame c evt).length) :
      Step c s (.send t k)
        ((s.write x (((eventFrame c evt).drop total).take k)).goto t
          (if total+k = (eventFrame c evt).length then nextTask evt rest toRemove
            else .sending evt fd rest toRemove (total+k)))
  | fail {t : Thread} {fd total : Nat} {evt : V} {rest toRemove : List Nat}
      (ht : s.tasks t = .sending evt fd rest toRemove total) :
      Step c s (.fail t) (s.goto t (nextTask evt rest (toRemove++[fd])))
  | close {t : Thread} {fd : Nat} {rest : List Nat} (ht : s.tasks t = .removing (fd :: rest)) :
      Step c s (.close t)
        (({ s with descriptors := s.descriptors.close fd } : Publisher V).goto t
          (.erasing fd rest))
  | erase {t : Thread} {fd : Nat} {rest : List Nat} (ht : s.tasks t = .erasing fd rest) :
      Step c s (.erase t)
        (({ s with subscribers := s.subscribers.erase fd } : Publisher V).goto t
          (.removing rest))
  | unlock {t : Thread} (ht : s.tasks t = .removing []) :
      Step c s (.unlock t) (({ s with holder := none } : Publisher V).goto t .idle)

variable {c : Protobuf V}

theorem accept_cases {s : Publisher V} {t : Thread} {evt : Option V} (ht : s.tasks t = afterAdd evt)
    (fd : Nat) : s.accept t evt fd = s ∨ Step c s (.accept t fd) (s.accept t evt fd) := by
  rw [accept]
  split
  · next hfree => exact .inr (.accept evt ht hfree)
  · exact .inl rfl

theorem step_cases (s : Publisher V) (e : Event V) :
    s.step c e = s ∨ Step c s e (s.step c e) := by
  cases e with
  | publish i evt =>
    simp only [step]
    split
    · next ht _ => exact .inr (.publish ht)
    · exact .inl rfl
  | accept t fd =>
    simp only [step]
    split
    · next evt ht =>
      have hevt : s.tasks t = afterAdd (some evt) := ht
      exact accept_cases hevt fd
    · next ht =>
      have hevt : s.tasks t = afterAdd none := ht
      split
      · exact accept_cases hevt fd
      · exact .inl rfl
    · exact .inl rfl
  | refuse t =>
    simp only [step]
    split
    · next ht => exact .inr (.refuse ht)
    · exact .inl rfl
  | add t =>
    simp only [step]
    split
    · next ht hfree => exact .inr (.add ht hfree)
    · exact .inl rfl
  | lock t order =>
    simp only [step]
    split
    · next ht hfree =>
      split
      · next hperm => exact .inr (.lock ht hfree hperm)
      · exact .inl rfl
    · exact .inl rfl
  | send t k =>
    simp only [step]
    split
    · next ht =>
      split
      · exact .inl rfl
      · next hx =>
        split
        · next h => exact .inr (.send ht hx h.1 h.2)
        · exact .inl rfl
    · exact .inl rfl
  | fail t =>
    simp only [step]
    split
    · next ht => exact .inr (.fail ht)
    · exact .inl rfl
  | close t =>
    simp only [step]
    split
    · next ht => exact .inr (.close ht)
    · exact .inl rfl
  | erase t =>
    simp only [step]
    split
    · next ht => exact .inr (.erase ht)
    · exact .inl rfl
  | unlock t =>
    simp only [step]
    split
    · next ht => exact .inr (.unlock ht)
    · exact .inl rfl

end Publisher

end LapCom.Socket.EventThreads
