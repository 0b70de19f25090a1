import LapCom.Machine.Run
import Mathlib.Logic.Function.Basic

set_option autoImplicit false

/-! The services that a process has registered with CommonAPI, and the adapters of stubs for SOME/IP
and for D-Bus over them. -/

namespace LapCom.CommonApi
open LapCom.Machine

inductive Errc where
  | InvalidParameter
  | NotInitialized
  | InitializationFailed
  | RegistrationFailed
  | Disconnected
  | kInvalidArgument
  | kCommunicationLinkError
  deriving DecidableEq

inductive Outcome where
  | ok
  | failed
  | thrown
  deriving DecidableEq

structure Adapter (Stub : Type) where
  stub : Option Stub
  initialized : Bool
  alive : Bool

/-- `services` is the table of CommonAPI, with the adapter that has made each entry. -/
structure State (Address Stub : Type) where
  services : Address → Option (Nat × Stub)
  adapters : Nat → Adapter Stub

section Model
variable {Address Stub : Type} [DecidableEq Address] (address : Nat → Address)

namespace State

def initial : State Address Stub := ⟨fun _ => none,fun _ => ⟨none,false,true⟩⟩

def setAdapter (s : State Address Stub) (i : Nat) (x : Adapter Stub) : State Address Stub :=
  { s with adapters := Function.update s.adapters i x }

/-- `registerService`; an address in use is refused. -/
def registerService (s : State Address Stub) (i : Nat) (stub : Stub) (outcome : Outcome) :
    Bool × State Address Stub :=
  if outcome = .ok ∧ s.services (address i) = none then
    (true,{ s with services := Function.update s.services (address i) (some (i,stub)) })
  else (false,s)

/-- `unregisterService`, which is given the address only. -/
def unregisterService (s : State Address Stub) (i : Nat) (outcome : Outcome) :
    State Address Stub :=
  if outcome = .ok then { s with services := Function.update s.services (address i) none } else s

end State

namespace SomeIpStubAdapter

/-- What `Initialize` finds: the connection manager, the runtime and the registration. -/
structure InitCalls where
  managerInitialized : Bool
  runtime : Bool
  registered : Outcome
  deriving DecidableEq

structure DeinitCalls where
  runtime : Bool
  unregistered : Outcome
  deriving DecidableEq

def initializeAdapter (s : State Address Stub) (i : Nat) (stub : Option Stub) (calls : InitCalls) :
    Except Errc Unit × State Address Stub :=
  if (s.adapters i).initialized then (.ok (),s)
  else match stub with
    | none => (.error .InvalidParameter,s)
    | some stub =>
      if calls.managerInitialized = false then (.error .NotInitialized,s)
      else if calls.runtime = false then (.error .InitializationFailed,s)
      else if calls.registered = .thrown then (.error .InitializationFailed,s)
      else match s.registerService address i stub calls.registered with
        | (false,s) => (.error .RegistrationFailed,s)
        | (true,s) =>
          (.ok (),s.setAdapter i { s.adapters i with stub := some stub, initialized := true })

def reset (s : State Address Stub) (i : Nat) : State Address Stub :=
  s.setAdapter i { s.adapters i with stub := none, initialized := false }

def deinitializeAdapter (s : State Address Stub) (i : Nat) (calls : DeinitCalls) :
    Except Errc Unit × State Address Stub :=
  if (s.adapters i).initialized = false then (.ok (),s)
  else if calls.runtime && (s.adapters i).stub.isSome then
    if calls.unregistered = .thrown then (.error .Disconnected,s)
    else (.ok (),reset (s.unregisterService address i calls.unregistered) i)
  else (.ok (),reset s i)

def destroy (s : State Address Stub) (i : Nat) (calls : DeinitCalls) : State Address Stub :=
  (deinitializeAdapter address s i calls).2.setAdapter i ⟨none,false,false⟩

inductive Call (Stub : Type) where
  | initializeAdapter (i : Nat) (stub : Option Stub) (calls : InitCalls)
  | deinitializeAdapter (i : Nat) (calls : DeinitCalls)
  | destroy (i : Nat) (calls : DeinitCalls)

def Call.adapter : Call Stub → Nat
  | .initializeAdapter i _ _ => i
  | .deinitializeAdapter i _ => i
  | .destroy i _ => i

def step (s : State Address Stub) (call : Call Stub) : State Address Stub :=
  if (s.adapters call.adapter).alive then
    match call with
    | .initializeAdapter i stub calls => (initializeAdapter address s i stub calls).2
    | .deinitializeAdapter i calls => (deinitializeAdapter address s i calls).2
    | .destroy i calls => destroy address s i calls
  else s

end SomeIpStubAdapter

namespace DBusStubAdapter

def initializeAdapter (s : State Address Stub) (i : Nat) (stub : Option Stub)
    (registered : Outcome) : Except Errc Unit × State Address Stub :=
  let s := s.setAdapter i { s.adapters i with stub := stub }
  match stub with
  | none => (.error .kInvalidArgument,s)
  | some stub =>
    match s.registerService address i stub registered with
    | (false,s) => (.error .kCommunicationLinkError,s)
    | (true,s) => (.ok (),s)

/-- An exception is logged, and what `unregisterService` returns is not looked at. -/
def deinitializeAdapter (s : State Address Stub) (i : Nat) (unregistered : Outcome) :
    State Address Stub :=
  match (s.adapters i).stub with
  | none => s
  | some _ =>
    (s.unregisterService address i unregistered).setAdapter i { s.adapters i with stub := none }

def destroy (s : State Address Stub) (i : Nat) : State Address Stub :=
  s.setAdapter i ⟨none,false,false⟩

inductive Call (Stub : Type) where
  | initializeAdapter (i : Nat) (stub : Option Stub) (registered : Outcome)
  | deinitializeAdapter (i : Nat) (unregistered : Outcome)
  | destroy (i : Nat)

def Call.adapter : Call Stub → Nat
  | .initializeAdapter i _ _ => i
  | .deinitializeAdapter i _ => i
  | .destroy i => i

def step (s : State Address Stub) (call : Call Stub) : State Address Stub :=
  if (s.adapters call.adapter).alive then
    match call with
    | .initializeAdapter i stub registered => (initializeAdapter address s i stub registered).2
    | .deinitializeAdapter i unregistered => deinitializeAdapter address s i unregistered
    | .destroy i => destroy s i
  else s

end DBusStubAdapter

/-- The services in the table are those whose adapters have a stub, and no others. -/
def Owned (s : State Address Stub) : Prop :=
  ∀ a i stub, s.services a = some (i,stub) ↔ address i = a ∧ (s.adapters i).stub = some stub

/-- A call after which an adapter forgets a service that stays in the table. -/
def SomeIpStubAdapter.Abandons (s : State Address Stub) : Call Stub → Prop
  | .initializeAdapter _ _ _ => False
  | .deinitializeAdapter i calls =>
    (s.adapters i).alive = true ∧ (s.adapters i).stub.isSome = true ∧
      (calls.runtime = false ∨ calls.unregistered = .failed)
  | .destroy i calls => (s.adapters i).alive = true ∧ (s.adapters i).stub.isSome = true ∧
      (calls.runtime = false ∨ calls.unregistered ≠ .ok)

/-- A call after which an adapter has a stub that is not in the table, or has none for a service
that is. -/
def DBusStubAdapter.Misfits (s : State Address Stub) : Call Stub → Prop
  | .initializeAdapter i stub registered => (s.adapters i).alive = true ∧
      match (s.adapters i).stub with
      | none => stub.isSome = true ∧ ¬ (registered = .ok ∧ s.services (address i) = none)
      | some x => stub ≠ some x
  | .deinitializeAdapter i unregistered =>
    (s.adapters i).alive = true ∧ (s.adapters i).stub.isSome = true ∧ unregistered ≠ .ok
  | .destroy i => (s.adapters i).alive = true ∧ (s.adapters i).stub.isSome = true

section Owned
variable {address} {s s' : State Address Stub} {i : Nat}

omit [DecidableEq Address] in
theorem owned_congr (hservices : s'.services = s.services)
    (hstubs : ∀ j, (s'.adapters j).stub = (s.adapters j).stub) :
    Owned address s' ↔ Owned address s := by
  simp only [Owned,hservices,hstubs]

theorem Owned.registered (h : Owned address s) {stub : Stub} (hfree : s.services (address i) = none)
    (hservices : s'.services = Function.update s.services (address i) (some (i,stub)))
    (hself : (s'.adapters i).stub = some stub)
    (hothers : ∀ j, j ≠ i → (s'.adapters j).stub = (s.adapters j).stub) : Owned address s' := by
  intro a j x
  rw [hservices]
  by_cases ha : a = address i
  · subst ha
    rw [Function.update_self]
    by_cases hj : j = i
    · subst hj
      simp [hself]
    · have hnone : ¬ (address j = address i ∧ (s.adapters j).stub = some x) := by
        rw [← h,hfree]
        exact nofun
      rw [hothers j hj]
      exact iff_of_false (fun heq => hj (Prod.mk.inj (Option.some.inj heq)).1.symm) hnone
  · rw [Function.update_of_ne ha,h a j x]
    by_cases hj : j = i
    · subst hj
      exact iff_of_false (fun hx => ha hx.1.symm) fun hx => ha hx.1.symm
    · rw [hothers j hj]

theorem Owned.unregistered (h : Owned address s) {x : Stub} (hx : (s.adapters i).stub = some x)
    (hservices : s'.services = Function.update s.services (address i) none)
    (hself : (s'.adapters i).stub = none)
    (hothers : ∀ j, j ≠ i → (s'.adapters j).stub = (s.adapters j).stub) : Owned address s' := by
  have hheld := (h (address i) i x).mpr ⟨rfl,hx⟩
  intro a j y
  rw [hservices]
  by_cases ha : a = address i
  · subst ha
    rw [Function.update_self]
    refine iff_of_false nofun ?_
    rintro ⟨hj,hy⟩
    by_cases hji : j = i
    · subst hji
      rw [hself] at hy
      cases hy
    · rw [hothers j hji] at hy
      have hheld' := (h (address i) j y).mpr ⟨hj,hy⟩
      rw [hheld] at hheld'
      exact hji (Prod.mk.inj (Option.some.inj hheld')).1.symm
  · rw [Function.update_of_ne ha,h a j y]
    by_cases hj : j = i
    · subst hj
      exact iff_of_false (fun hy => ha hy.1.symm) fun hy => ha hy.1.symm
    · rw [hothers j hj]

omit [DecidableEq Address] in
theorem setAdapter_others (s : State Address Stub) (x : Adapter Stub) :
    ∀ j, j ≠ i → ((s.setAdapter i x).adapters j).stub = (s.adapters j).stub :=
  fun _ hj => congrArg Adapter.stub (Function.update_of_ne hj _ _)

omit [DecidableEq Address] in
@[simp] theorem setAdapter_self (s : State Address Stub) (x : Adapter Stub) :
    (s.setAdapter i x).adapters i = x :=
  Function.update_self _ _ _

omit [DecidableEq Address] in
/-- Where the table is left alone, the one adapter that changes has to keep its stub. -/
theorem set_owned_iff (h : Owned address s) (x : Adapter Stub) :
    Owned address (s.setAdapter i x) ↔ x.stub = (s.adapters i).stub := by
  constructor
  · intro h'
    ext stub
    have hold : s.services (address i) = some (i,stub) ↔ _ := h (address i) i stub
    rw [show s.services = (s.setAdapter i x).services from rfl,h' (address i) i stub] at hold
    simpa using hold
  · intro hstub
    have hcongr : Owned address (s.setAdapter i x) ↔ Owned address s := by
      refine owned_congr rfl fun j => ?_
      by_cases hj : j = i
      · subst hj
        rw [setAdapter_self,hstub]
      · exact setAdapter_others s x j hj
    exact hcongr.mpr h

variable (address) in
theorem registerService_cases (s : State Address Stub) (stub : Stub) (outcome : Outcome) :
    (outcome = .ok ∧ s.services (address i) = none ∧ s.registerService address i stub outcome =
      (true,{ s with services := Function.update s.services (address i) (some (i,stub)) })) ∨
    (¬ (outcome = .ok ∧ s.services (address i) = none) ∧
      s.registerService address i stub outcome = (false,s)) := by
  unfold State.registerService
  by_cases h : outcome = .ok ∧ s.services (address i) = none
  · rw [if_pos h]
    exact .inl ⟨h.1,h.2,rfl⟩
  · rw [if_neg h]
    exact .inr ⟨h,rfl⟩

end Owned

section SomeIp
variable {address} {s : State Address Stub}
open SomeIpStubAdapter

def SomeIpStubAdapter.Settled (s : State Address Stub) : Prop :=
  ∀ i, (s.adapters i).initialized = (s.adapters i).stub.isSome

omit [DecidableEq Address] in
theorem SomeIpStubAdapter.Settled.setAdapter (h : Settled s) (i : Nat) {x : Adapter Stub}
    (hx : x.initialized = x.stub.isSome) : Settled (s.setAdapter i x) := by
  intro j
  by_cases hj : j = i
  · subst hj
    simpa using hx
  · show (Function.update s.adapters i x j).initialized = _
    rw [State.setAdapter]
    simp only [Function.update_of_ne hj]
    exact h j

theorem SomeIpStubAdapter.initializeAdapter_owned (h : Owned address s) (hs : Settled s) (i : Nat)
    (stub : Option Stub) (calls : InitCalls) :
    Owned address (initializeAdapter address s i stub calls).2 ∧
      Settled (initializeAdapter address s i stub calls).2 := by
  unfold initializeAdapter
  by_cases hinit : (s.adapters i).initialized = true
  · rw [if_pos hinit]
    exact ⟨h,hs⟩
  · rw [if_neg hinit]
    cases stub with
    | none => exact ⟨h,hs⟩
    | some stub =>
      dsimp only
      split_ifs
      · exact ⟨h,hs⟩
      · exact ⟨h,hs⟩
      · exact ⟨h,hs⟩
      · rcases registerService_cases address (i := i) s stub calls.registered with
          ⟨_,hfree,heq⟩ | ⟨_,heq⟩
        · rw [heq]
          refine ⟨h.registered hfree rfl (by simp) (setAdapter_others _ _),?_⟩
          exact Settled.setAdapter (s := { s with services := _ }) hs i rfl
        · rw [heq]
          exact ⟨h,hs⟩

theorem SomeIpStubAdapter.deinitializeAdapter_owned (h : Owned address s) (hs : Settled s) (i : Nat)
    (calls : DeinitCalls) :
    Settled (deinitializeAdapter address s i calls).2 ∧
      (Owned address (deinitializeAdapter address s i calls).2 ↔
        ¬ ((s.adapters i).stub.isSome = true ∧
          (calls.runtime = false ∨ calls.unregistered = .failed))) := by
  have hinit := hs i
  unfold deinitializeAdapter
  cases hstub : (s.adapters i).stub with
  | none =>
    have hfalse : (s.adapters i).initialized = false := by rw [hinit,hstub]; rfl
    rw [if_pos hfalse]
    exact ⟨hs,iff_of_true h (by simp)⟩
  | some x =>
    have htrue : (s.adapters i).initialized = true := by rw [hinit,hstub]; rfl
    have hreset : Settled (reset s i) := hs.setAdapter i rfl
    have hlost : ¬ Owned address (reset s i) := by
      rw [reset,set_owned_iff h,hstub]
      exact nofun
    rw [htrue,if_neg nofun]
    cases calls.runtime with
    | false => exact ⟨hreset,iff_of_false hlost (by simp)⟩
    | true =>
      simp only [Option.isSome_some,Bool.and_self,if_true]
      cases calls.unregistered with
      | thrown => exact ⟨hs,iff_of_true h (by simp)⟩
      | failed => exact ⟨hreset,iff_of_false hlost (by simp)⟩
      | ok =>
        have hs' : Settled (s.unregisterService address i .ok) := hs
        refine ⟨hs'.setAdapter i rfl,iff_of_true ?_ (by simp)⟩
        exact h.unregistered hstub rfl (by simp [reset])
          (setAdapter_others (s.unregisterService address i .ok) _)

variable (address) in
theorem SomeIpStubAdapter.deinitializeAdapter_stub (s : State Address Stub) (i : Nat)
    (calls : DeinitCalls) (hs : Settled s) :
    ((deinitializeAdapter address s i calls).2 = s ∧
        ((s.adapters i).stub.isSome = true → calls.runtime = true ∧ calls.unregistered = .thrown)) ∨
      ((deinitializeAdapter address s i calls).2.adapters i).stub = none ∧
        (calls.runtime = true → calls.unregistered ≠ .thrown) := by
  have hinit := hs i
  unfold deinitializeAdapter
  cases hstub : (s.adapters i).stub with
  | none =>
    have hfalse : (s.adapters i).initialized = false := by rw [hinit,hstub]; rfl
    rw [if_pos hfalse]
    exact .inl ⟨rfl,nofun⟩
  | some x =>
    have htrue : (s.adapters i).initialized = true := by rw [hinit,hstub]; rfl
    rw [htrue,if_neg nofun]
    cases calls.runtime with
    | false => exact .inr ⟨by simp [reset],nofun⟩
    | true =>
      simp only [Option.isSome_some,Bool.and_self,if_true]
      by_cases hthrown : calls.unregistered = .thrown
      · rw [if_pos hthrown]
        exact .inl ⟨rfl,fun _ => ⟨trivial,hthrown⟩⟩
      · rw [if_neg hthrown]
        exact .inr ⟨by simp [reset],fun _ => hthrown⟩

theorem SomeIpStubAdapter.destroy_owned (h : Owned address s) (hs : Settled s) (i : Nat)
    (calls : DeinitCalls) :
    Settled (destroy address s i calls) ∧
      (Owned address (destroy address s i calls) ↔
        ¬ ((s.adapters i).stub.isSome = true ∧
          (calls.runtime = false ∨ calls.unregistered ≠ .ok))) := by
  obtain ⟨hsettled,howned⟩ := deinitializeAdapter_owned h hs i calls
  refine ⟨hsettled.setAdapter i rfl,?_⟩
  unfold destroy
  rcases deinitializeAdapter_stub address s i calls hs with
    ⟨heq,hthrown⟩ | ⟨hnone,hnot⟩
  · rw [heq,set_owned_iff h]
    cases hstub : (s.adapters i).stub with
    | none => simp
    | some x =>
      have hcalls := hthrown (by rw [hstub]; rfl)
      simp [hcalls]
  · have hcongr : Owned address
        ((deinitializeAdapter address s i calls).2.setAdapter i ⟨none,false,false⟩) ↔
          Owned address (deinitializeAdapter address s i calls).2 := by
      refine owned_congr rfl fun j => ?_
      by_cases hj : j = i
      · subst hj
        rw [setAdapter_self,hnone]
      · exact setAdapter_others _ _ j hj
    rw [hcongr,howned]
    refine not_congr (and_congr_right fun _ => ?_)
    cases hruntime : calls.runtime with
    | false => simp
    | true =>
      have hne := hnot hruntime
      cases hout : calls.unregistered with
      | ok => simp
      | failed => simp
      | thrown => exact absurd hout hne

theorem SomeIpStubAdapter.step_owned (h : Owned address s) (hs : Settled s) (call : Call Stub) :
    Settled (step address s call) ∧ (Owned address (step address s call) ↔ ¬ Abandons s call) := by
  unfold step
  by_cases halive : (s.adapters call.adapter).alive = true
  · rw [if_pos halive]
    cases call with
    | initializeAdapter i stub calls =>
      obtain ⟨howned,hsettled⟩ := initializeAdapter_owned h hs i stub calls
      exact ⟨hsettled,iff_of_true howned id⟩
    | deinitializeAdapter i calls =>
      obtain ⟨hsettled,howned⟩ := deinitializeAdapter_owned h hs i calls
      refine ⟨hsettled,howned.trans (not_congr ?_)⟩
      exact ⟨fun hlost => ⟨halive,hlost⟩,fun hlost => hlost.2⟩
    | destroy i calls =>
      obtain ⟨hsettled,howned⟩ := destroy_owned h hs i calls
      refine ⟨hsettled,howned.trans (not_congr ?_)⟩
      exact ⟨fun hlost => ⟨halive,hlost⟩,fun hlost => hlost.2⟩
  · rw [if_neg halive]
    refine ⟨hs,iff_of_true h ?_⟩
    cases call with
    | initializeAdapter i stub calls => exact id
    | deinitializeAdapter i calls => exact fun hlost => halive hlost.1
    | destroy i calls => exact fun hlost => halive hlost.1

end SomeIp

section DBus
variable {address} {s : State Address Stub}
open DBusStubAdapter

theorem DBusStubAdapter.initializeAdapter_owned (h : Owned address s) (i : Nat)
    (stub : Option Stub) (registered : Outcome) :
    Owned address (initializeAdapter address s i stub registered).2 ↔
      ¬ (match (s.adapters i).stub with
        | none => stub.isSome = true ∧ ¬ (registered = .ok ∧ s.services (address i) = none)
        | some x => stub ≠ some x) := by
  -- the table is left as it is
  have hleft : Owned address (s.setAdapter i { s.adapters i with stub := stub }) ↔
      stub = (s.adapters i).stub := set_owned_iff h _
  unfold initializeAdapter
  cases stub with
  | none =>
    dsimp only
    rw [hleft]
    cases (s.adapters i).stub <;> simp
  | some stub =>
    dsimp only
    rcases registerService_cases address (i := i)
      (s.setAdapter i { s.adapters i with stub := some stub }) stub registered with
      ⟨hok,hfree,heq⟩ | ⟨hno,heq⟩
    · have hfree : s.services (address i) = none := hfree
      have hnone : (s.adapters i).stub = none := by
        cases hx : (s.adapters i).stub with
        | none => rfl
        | some x =>
          rw [(h (address i) i x).mpr ⟨rfl,hx⟩] at hfree
          cases hfree
      rw [heq,hnone]
      refine iff_of_true ?_ (by simp [hok,hfree])
      exact h.registered hfree rfl (by simp) (setAdapter_others s _)
    · have hno : ¬ (registered = .ok ∧ s.services (address i) = none) := hno
      rw [heq,hleft]
      cases hx : (s.adapters i).stub with
      | none => simp only [reduceCtorEq,Option.isSome_some,true_and,not_not,false_iff]; exact hno
      | some x => simp

theorem DBusStubAdapter.step_owned (h : Owned address s) (call : Call Stub) :
    Owned address (step address s call) ↔ ¬ Misfits address s call := by
  unfold step
  by_cases halive : (s.adapters call.adapter).alive = true
  · rw [if_pos halive]
    cases call with
    | initializeAdapter i stub registered =>
      refine (initializeAdapter_owned h i stub registered).trans (not_congr ?_)
      exact ⟨fun hlost => ⟨halive,hlost⟩,fun hlost => hlost.2⟩
    | deinitializeAdapter i unregistered =>
      simp only [deinitializeAdapter,Misfits]
      cases hstub : (s.adapters i).stub with
      | none => exact iff_of_true h (by simp)
      | some x =>
        cases unregistered with
        | ok =>
          refine iff_of_true ?_ (by simp)
          exact h.unregistered hstub rfl (by simp)
            (setAdapter_others (s.unregisterService address i .ok) _)
        | failed =>
          refine iff_of_false ?_ (not_not_intro ⟨halive,rfl,nofun⟩)
          show ¬ Owned address (s.setAdapter i { s.adapters i with stub := none })
          rw [set_owned_iff h,hstub]
          exact nofun
        | thrown =>
          refine iff_of_false ?_ (not_not_intro ⟨halive,rfl,nofun⟩)
          show ¬ Owned address (s.setAdapter i { s.adapters i with stub := none })
          rw [set_owned_iff h,hstub]
          exact nofun
    | destroy i =>
      simp only [destroy,Misfits]
      rw [set_owned_iff h]
      have hlive : (s.adapters i).alive = true := halive
      cases (s.adapters i).stub <;> simp [hlive]
  · rw [if_neg halive]
    refine iff_of_true h ?_
    cases call with
    | initializeAdapter i stub registered => exact fun hlost => halive hlost.1
    | deinitializeAdapter i unregistered => exact fun hlost => halive hlost.1
    | destroy i => exact fun hlost => halive hlost.1

end DBus

omit [DecidableEq Address] in
theorem initial_owned : Owned address (.initial : State Address Stub) := by
  simp [Owned,State.initial]

/-- In every run of adapters for SOME/IP the table holds just the services of those that have a
stub, except where a `Deinitialize` or destructor is let down: `unregisterService` fails, or throws
in a destructor, or there is no runtime. -/
theorem SomeIpStubAdapter.someip_services_owned_iff (calls : Nat → Call Stub) (n : Nat) :
    (∀ k, k < n → Owned address (stateAt (step address) .initial calls (k+1))) ↔
      ∀ k, k < n → ¬ Abandons (stateAt (step address) .initial calls k) (calls k) :=
  forall_iff_of_invariant
    (I := fun k => Owned address (stateAt (step address) .initial calls k) ∧
      Settled (stateAt (step address) .initial calls k))
    ⟨initial_owned address,fun _ => rfl⟩
    (fun _ ⟨h,hs⟩ hkeeps => ⟨(step_owned h hs _).2.mpr hkeeps,(step_owned h hs _).1⟩)
    fun _ ⟨h,hs⟩ => (step_owned h hs _).2

/-- In every run of adapters for D-Bus the table holds just the services of those that have a stub,
so long as no call leaves a stub that is not in the table, or a service without its stub. -/
theorem DBusStubAdapter.dbus_services_owned_iff (calls : Nat → Call Stub) (n : Nat) :
    (∀ k, k < n → Owned address (stateAt (step address) .initial calls (k+1))) ↔
      ∀ k, k < n → ¬ Misfits address (stateAt (step address) .initial calls k) (calls k) :=
  forall_iff_of_invariant (I := fun k => Owned address (stateAt (step address) .initial calls k))
    (initial_owned address) (fun _ h => (step_owned h _).mpr) fun _ h => step_owned h _

end Model

end LapCom.CommonApi
