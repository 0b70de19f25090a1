import LapCom.ComTypes
import LapCom.Machine.Run
import Mathlib.Logic.Function.Basic

set_option autoImplicit false

namespace LapCom.Socket.FieldLifecycle
open LapCom.Machine

/-- `fd` is none for -1. A `recvThread_` that was started is joinable until it is joined, also
when its loop has ended. -/
structure SocketFieldClient where
  connected : Bool
  fd : Option Nat
  joinable : Bool
  deriving DecidableEq

/-- The object ends in its destructor or in `std::terminate`, which destroying a joinable thread or
assigning to it calls. -/
inductive Phase where
  | alive
  | destroyed
  | terminated
  deriving DecidableEq

/-- A client, with the descriptors that `start` was given and nobody has closed. -/
structure State where
  client : SocketFieldClient
  opened : Nat → Bool
  phase : Phase

/-- The calls, with what the manager, `readValue` and the constructor of the thread return. -/
inductive Call (V : Type) where
  | start (init : Result Unit) (cli : Result Nat)
  | stop
  | get (answer : Result V)
  | set (answer : Result V)
  | subscribe (sent : Bool) (initial : Result V) (spawned : Bool)
  | unsubscribe
  | destroy

namespace State

def initial : State := ⟨⟨false,none,false⟩,fun _ => false,.alive⟩

/-- A descriptor that the system hands out is not open. -/
def createClientSocket (s : State) (cli : Result Nat) : Result Nat :=
  match cli with
  | .ok fd => if s.opened fd then fail .kNetworkBindingFailure 0 else .ok fd
  | .error e => .error e

def start (s : State) (init : Result Unit) (cli : Result Nat) : Result Unit × State :=
  if s.client.connected then (.ok (),s)
  else match init with
    | .error e => (.error e,s)
    | .ok _ =>
      match s.createClientSocket cli with
      | .error e => (.error e,s)
      | .ok fd =>
        (.ok (),{ s with
          client := { s.client with fd := some fd, connected := true }
          opened := Function.update s.opened fd true })

/-- The thread leaves its loop when it finds `connected_` false, so `join` returns. -/
def stop (s : State) : State :=
  if s.client.connected then
    match s.client.fd with
    | some fd =>
      { s with client := ⟨false,none,false⟩, opened := Function.update s.opened fd false }
    | none => { s with client := ⟨false,none,false⟩ }
  else s

def roundTrip {V : Type} (s : State) (answer : Result V) : Result V × State :=
  if s.client.connected then (answer,s) else (fail .kNotInitialized 0,s)

def get {V : Type} (s : State) (answer : Result V) : Result V × State := s.roundTrip answer

def set {V : Type} (s : State) (answer : Result V) : Result V × State := s.roundTrip answer

theorem roundTrip_state {V : Type} (s : State) (answer : Result V) :
    (s.roundTrip answer).2 = s := by
  unfold roundTrip
  split <;> rfl

/-- Without a descriptor nothing is sent. Of a thread that cannot be started the caller gets an
exception, `none`. -/
def subscribe {V : Type} (s : State) (sent : Bool) (initial : Result V) (spawned : Bool) :
    Option (Result Unit) × State :=
  if s.client.fd.isSome && sent then
    match initial with
    | .error e => (some (.error e),s)
    | .ok _ =>
      if spawned then
        if s.client.joinable then (none,{ s with phase := .terminated })
        else (some (.ok ()),{ s with client := { s.client with joinable := true } })
      else (none,s)
  else (some (fail .kNetworkBindingFailure 0),s)

def unsubscribe (s : State) : Result Unit × State :=
  (.ok (),{ s with client := { s.client with joinable := false, connected := true } })

/-- The destructor calls `stop`; then the members are destroyed. -/
def destroy (s : State) : State :=
  let s := s.stop
  { s with phase := if s.client.joinable then .terminated else .destroyed }

end State

section Run
variable {V : Type}

def step (s : State) (call : Call V) : State :=
  match s.phase with
  | .alive =>
    match call with
    | .start init cli => (s.start init cli).2
    | .stop => s.stop
    | .get answer => (s.get answer).2
    | .set answer => (s.set answer).2
    | .subscribe sent initial spawned => (s.subscribe sent initial spawned).2
    | .unsubscribe => s.unsubscribe.2
    | .destroy => s.destroy
  | _ => s

structure Consistent (s : State) : Prop where
  connected : s.client.connected = true → ∃ fd, s.client.fd = some fd ∧ s.opened fd = true
  kept : ∀ fd, s.opened fd = true → s.phase = .alive ∧ s.client.fd = some fd
  running : s.phase ≠ .terminated

/-- The two calls that the state does not allow: `unsubscribe` without a descriptor, and
`subscribe` beside the thread of an earlier one, where the server answers. -/
def Misplaced (s : State) : Call V → Prop
  | .unsubscribe => s.phase = .alive ∧ s.client.fd = none
  | .subscribe sent initial spawned =>
    s.phase = .alive ∧ s.client.fd.isSome = true ∧ s.client.joinable = true ∧ sent = true ∧
      initial.hasValue = true ∧ spawned = true
  | _ => False

/-- A client with a descriptor is connected, and only such a client has a thread. -/
structure Settled (s : State) : Prop where
  consistent : Consistent s
  connected : s.client.fd.isSome = true → s.client.connected = true
  opened : ∀ fd, s.client.fd = some fd → s.opened fd = true
  joinable : s.client.joinable = true → s.client.connected = true

section Steps
variable {s : State}

theorem initial_settled : Settled .initial :=
  ⟨⟨by simp [State.initial],by simp [State.initial],by simp [State.initial]⟩,
    by simp [State.initial],by simp [State.initial],by simp [State.initial]⟩

theorem Consistent.opened_eq_false (h : Consistent s) {fd : Nat} (hfd : s.client.fd ≠ some fd) :
    s.opened fd = false := by
  rw [← Bool.not_eq_true]
  intro hopened
  exact hfd (h.kept fd hopened).2

theorem Settled.idle (h : Settled s) (hconnected : s.client.connected = false) :
    s.client.fd = none ∧ s.client.joinable = false ∧ ∀ fd, s.opened fd = false := by
  have hfd : s.client.fd = none := by
    rw [← Option.not_isSome_iff_eq_none]
    intro hsome
    rw [h.connected hsome] at hconnected
    cases hconnected
  refine ⟨hfd,?_,fun fd => h.consistent.opened_eq_false (by simp [hfd])⟩
  rw [← Bool.not_eq_true]
  intro hjoinable
  rw [h.joinable hjoinable] at hconnected
  cases hconnected

theorem start_settled (h : Settled s) (halive : s.phase = .alive) (init : Result Unit)
    (cli : Result Nat) : Settled (s.start init cli).2 := by
  unfold State.start
  by_cases hconnected : s.client.connected = true
  · rwa [if_pos hconnected]
  · rw [if_neg hconnected]
    obtain ⟨hfd,hjoinable,hopened⟩ := h.idle (Bool.not_eq_true _ ▸ hconnected)
    cases init with
    | error e => exact h
    | ok _ =>
      cases hcli : s.createClientSocket cli with
      | error e => exact h
      | ok fd =>
        refine ⟨⟨fun _ => ⟨fd,rfl,?_⟩,fun a ha => ?_,?_⟩,fun _ => rfl,fun a ha => ?_,fun _ => rfl⟩
        · simp
        · by_cases hne : a = fd
          · exact ⟨halive,hne ▸ rfl⟩
          · simp [hne,hopened a] at ha
        · simp [halive]
        · cases ha
          simp

theorem stop_settled (h : Settled s) : Settled s.stop ∧ s.stop.phase = s.phase ∧
    s.stop.client.joinable = false ∧ ∀ fd, s.stop.opened fd = false := by
  unfold State.stop
  by_cases hconnected : s.client.connected = true
  · rw [if_pos hconnected]
    cases hfd : s.client.fd with
    | none =>
      have hnone : ∀ fd, s.opened fd = false := fun fd =>
        h.consistent.opened_eq_false (by simp [hfd])
      exact ⟨⟨⟨by simp,by simp [hnone],h.consistent.running⟩,by simp,by simp,by simp⟩,rfl,rfl,hnone⟩
    | some fd =>
      have hclosed : ∀ a, Function.update s.opened fd false a = false := by
        intro a
        by_cases ha : a = fd
        · simp [ha]
        · rw [Function.update_of_ne ha]
          exact h.consistent.opened_eq_false fun hkept =>
            ha (Option.some.inj (hkept.symm.trans hfd))
      exact ⟨⟨⟨by simp,by simp [hclosed],h.consistent.running⟩,by simp,by simp,by simp⟩,rfl,rfl,
        hclosed⟩
  · rw [if_neg hconnected]
    obtain ⟨_,hjoinable,hopened⟩ := h.idle (Bool.not_eq_true _ ▸ hconnected)
    exact ⟨h,rfl,hjoinable,hopened⟩

theorem destroy_settled (h : Settled s) : Settled s.destroy := by
  obtain ⟨hstop,_,hjoinable,hopened⟩ := stop_settled h
  simp only [State.destroy,hjoinable]
  exact ⟨⟨hstop.consistent.connected,by simp [hopened],by simp⟩,hstop.connected,hstop.opened,
    hstop.joinable⟩

theorem unsubscribe_settled (h : Settled s) (hfd : s.client.fd ≠ none) :
    Settled s.unsubscribe.2 := by
  obtain ⟨fd,hsome⟩ := Option.ne_none_iff_exists'.mp hfd
  exact ⟨⟨fun _ => ⟨fd,hsome,h.opened fd hsome⟩,h.consistent.kept,h.consistent.running⟩,
    fun _ => rfl,h.opened,by simp [State.unsubscribe]⟩

theorem subscribe_settled (h : Settled s) (halive : s.phase = .alive) (sent : Bool)
    (initial : Result V) (spawned : Bool)
    (hplaced : ¬ Misplaced s (.subscribe sent initial spawned)) :
    Settled (s.subscribe sent initial spawned).2 := by
  unfold State.subscribe
  by_cases hsent : (s.client.fd.isSome && sent) = true
  · rw [if_pos hsent]
    obtain ⟨hfd,hsent⟩ := Bool.and_eq_true_iff.mp hsent
    cases initial with
    | error e => exact h
    | ok v =>
      dsimp only
      by_cases hspawned : spawned = true
      · rw [if_pos hspawned]
        have hjoined : ¬ s.client.joinable = true := fun hjoinable =>
          hplaced ⟨halive,hfd,hjoinable,hsent,rfl,hspawned⟩
        rw [if_neg hjoined]
        exact ⟨⟨h.consistent.connected,h.consistent.kept,h.consistent.running⟩,h.connected,
          h.opened,fun _ => h.connected hfd⟩
      · rwa [if_neg hspawned]
  · rwa [if_neg hsent]

theorem step_settled (h : Settled s) {call : Call V} (hplaced : ¬ Misplaced s call) :
    Settled (step s call) := by
  unfold step
  cases hphase : s.phase with
  | destroyed => exact h
  | terminated => exact h
  | alive =>
    cases call with
    | start init cli => exact start_settled h hphase init cli
    | stop => exact (stop_settled h).1
    | get answer =>
      show Settled (s.roundTrip answer).2
      rwa [State.roundTrip_state]
    | set answer =>
      show Settled (s.roundTrip answer).2
      rwa [State.roundTrip_state]
    | subscribe sent initial spawned =>
      exact subscribe_settled h hphase sent initial spawned hplaced
    | unsubscribe => exact unsubscribe_settled h fun hnone => hplaced ⟨hphase,hnone⟩
    | destroy => exact destroy_settled h

theorem misplaced_breaks {call : Call V} (hmisplaced : Misplaced s call) :
    ¬ Consistent (step s call) := by
  intro hc
  unfold step at hc
  cases call with
  | unsubscribe =>
    obtain ⟨halive,hnone⟩ := hmisplaced
    simp only [halive] at hc
    obtain ⟨fd,hfd,_⟩ := hc.connected rfl
    exact absurd (hfd.symm.trans hnone) (by simp)
  | subscribe sent initial spawned =>
    obtain ⟨halive,hfd,hjoinable,rfl,hinitial,rfl⟩ := hmisplaced
    cases initial with
    | error e => cases hinitial
    | ok v =>
      simp only [halive] at hc
      exact hc.running (by simp [State.subscribe,hfd,hjoinable])
  | start init cli => exact hmisplaced
  | stop => exact hmisplaced
  | get answer => exact hmisplaced
  | set answer => exact hmisplaced
  | destroy => exact hmisplaced

end Steps

/-- In every run of calls, the client is consistent after each just where none of them is
misplaced. -/
theorem lifecycle_consistent_iff (calls : Nat → Call V) (n : Nat) :
    (∀ k, k < n → Consistent (stateAt step .initial calls (k+1))) ↔
      ∀ k, k < n → ¬ Misplaced (stateAt step .initial calls k) (calls k) :=
  forall_iff_of_invariant (I := fun k => Settled (stateAt step .initial calls k)) initial_settled
    (fun _ hsettled hplaced => step_settled hsettled hplaced)
    fun _ hsettled => ⟨fun hc hmisplaced => misplaced_breaks hmisplaced hc,
      fun hplaced => (step_settled hsettled hplaced).consistent⟩

end Run

section Orders

/-- `unsubscribe` comes first: the client is connected without a descriptor, and `start` opens
none. -/
def unsubscribeFirst : Nat → Call Unit := schedule [.unsubscribe,.start (.ok ()) (.ok 5)] .stop

def subscribeTwice : Nat → Call Unit :=
  schedule [.start (.ok ()) (.ok 5),.subscribe true (.ok ()) true,
    .subscribe true (.ok ()) true] .stop

theorem orders_inconsistent :
    (stateAt step .initial unsubscribeFirst 2).client = ⟨true,none,false⟩ ∧
      ¬ Consistent (stateAt step .initial unsubscribeFirst 2) ∧
      (stateAt step .initial subscribeTwice 3).phase = .terminated ∧
      ¬ Consistent (stateAt step .initial subscribeTwice 3) := by
  refine ⟨rfl,fun hc => ?_,rfl,fun hc => hc.running rfl⟩
  obtain ⟨fd,hfd,_⟩ := hc.connected rfl
  cases hfd

end Orders

end LapCom.Socket.FieldLifecycle
