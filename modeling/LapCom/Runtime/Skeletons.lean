import LapCom.ComTypes
import LapCom.Kernel.Account
import LapCom.Machine.Run
import Mathlib.Tactic.SplitIfs

set_option autoImplicit false

/-! The skeletons of a process: `SkeletonBase`, `ServiceSkeleton` and the classes derived from it,
whose objects are offered, moved and destroyed. -/

namespace LapCom.Skeletons
open LapCom.Kernel LapCom.Machine

inductive MethodCallProcessingMode where
  | kPoll
  | kEvent
  | kEventSingleThread
  deriving DecidableEq

/-- Whether a class has its own `DoOfferService` and `DoStopOfferService`, and whether its own
destructor calls `StopOfferService`. -/
structure SkeletonClass where
  overrides : Bool
  stopsFirst : Bool

structure SkeletonBase (Specifier : Type) where
  cls : SkeletonClass
  instanceSpecifier : Specifier
  processingMode : MethodCallProcessingMode
  isOffered : Bool
  alive : Bool

section Model
variable {Specifier : Type}

namespace SkeletonBase

def new (cls : SkeletonClass) (instanceSpec : Specifier) (mode : MethodCallProcessingMode) :
    SkeletonBase Specifier :=
  ⟨cls,instanceSpec,mode,false,true⟩

/-- What is dispatched to for an object of the class; `ServiceSkeleton` itself does nothing and
succeeds. -/
def doOfferService (cls : SkeletonClass) (x : SkeletonBase Specifier) (outcome : Result Unit) :
    Result Unit × Work Specifier :=
  if cls.overrides then
    (outcome,if outcome.hasValue then ⟨[x.instanceSpecifier],[]⟩ else .nothing)
  else (.ok (),.nothing)

def doStopOfferService (cls : SkeletonClass) (x : SkeletonBase Specifier) : Work Specifier :=
  if cls.overrides then ⟨[],[x.instanceSpecifier]⟩ else .nothing

def offerService (x : SkeletonBase Specifier) (outcome : Result Unit) :
    Result Unit × SkeletonBase Specifier × Work Specifier :=
  if x.isOffered then (fail .kServiceNotOffered 0,x,.nothing)
  else
    let done := x.doOfferService x.cls outcome
    (done.1,if done.1.hasValue then { x with isOffered := true } else x,done.2)

/-- `cls` is the class that the virtual call finds. -/
def stopAs (cls : SkeletonClass) (x : SkeletonBase Specifier) :
    SkeletonBase Specifier × Work Specifier :=
  if x.isOffered then ({ x with isOffered := false },x.doStopOfferService cls)
  else (x,.nothing)

def stopOfferService (x : SkeletonBase Specifier) : SkeletonBase Specifier × Work Specifier :=
  x.stopAs x.cls

/-- While `~ServiceSkeleton` runs, the object is a `ServiceSkeleton`. -/
def serviceSkeleton : SkeletonClass := ⟨false,false⟩

def destroy (x : SkeletonBase Specifier) : SkeletonBase Specifier × Work Specifier :=
  let derived := if x.cls.stopsFirst then x.stopOfferService else (x,.nothing)
  let base := derived.1.stopAs serviceSkeleton
  ({ base.1 with alive := false },derived.2.followedBy base.2)

def moveConstruct (cls : SkeletonClass) (other : SkeletonBase Specifier) (left : Specifier) :
    SkeletonBase Specifier × SkeletonBase Specifier :=
  (⟨cls,other.instanceSpecifier,other.processingMode,other.isOffered,true⟩,
    { other with instanceSpecifier := left, isOffered := false })

def moveAssign (x other : SkeletonBase Specifier) (left : Specifier) :
    SkeletonBase Specifier × SkeletonBase Specifier × Work Specifier :=
  let stopped := x.stopOfferService
  ({ stopped.1 with
      instanceSpecifier := other.instanceSpecifier
      processingMode := other.processingMode
      isOffered := other.isOffered },
    { other with instanceSpecifier := left, isOffered := false },stopped.2)

/-- An object with an offer that a `DoOfferService` of its class has made. -/
def holds [DecidableEq Specifier] (y : Specifier) (x : SkeletonBase Specifier) : Bool :=
  x.alive && x.cls.overrides && x.isOffered && decide (x.instanceSpecifier = y)

end SkeletonBase

abbrev State (Specifier : Type) := Account Specifier (SkeletonBase Specifier)

inductive Call (Specifier : Type) where
  | construct (cls : SkeletonClass) (instanceSpec : Specifier) (mode : MethodCallProcessingMode)
  | offerService (i : Nat) (outcome : Result Unit)
  | stopOfferService (i : Nat)
  | moveConstruct (cls : SkeletonClass) (i : Nat) (left : Specifier)
  | moveAssign (i j : Nat) (left : Specifier)
  | destroy (i : Nat)

namespace State

def initial : State Specifier := ⟨[],.nothing⟩

def object (s : State Specifier) (i : Nat) : Option (SkeletonBase Specifier) :=
  (s.items[i]?).filter fun x => x.alive

def put (s : State Specifier) (i : Nat) (x : SkeletonBase Specifier) (work : Work Specifier) :
    State Specifier :=
  ⟨s.items.set i x,s.work.followedBy work⟩

def add (s : State Specifier) (x : SkeletonBase Specifier) : State Specifier :=
  { s with items := s.items ++ [x] }

def step (s : State Specifier) : Call Specifier → State Specifier
  | .construct cls instanceSpec mode => s.add (.new cls instanceSpec mode)
  | .offerService i outcome =>
    match s.object i with
    | none => s
    | some x => s.put i (x.offerService outcome).2.1 (x.offerService outcome).2.2
  | .stopOfferService i =>
    match s.object i with
    | none => s
    | some x => s.put i x.stopOfferService.1 x.stopOfferService.2
  | .moveConstruct cls i left =>
    match s.object i with
    | none => s
    | some x => (s.put i (x.moveConstruct cls left).2 .nothing).add (x.moveConstruct cls left).1
  | .moveAssign i j left =>
    match s.object i,s.object j with
    | some x,some z =>
      if i = j then s
      else (s.put i (x.moveAssign z left).1 (x.moveAssign z left).2.2).put j
        (x.moveAssign z left).2.1 .nothing
    | _,_ => s
  | .destroy i =>
    match s.object i with
    | none => s
    | some x => s.put i x.destroy.1 x.destroy.2

end State

/-- A derived object is destroyed while it is offered and its destructor leaves that to
`~ServiceSkeleton`, or an offer is moved between a class that overrides the two functions and one
that does not. -/
def Strays (s : State Specifier) : Call Specifier → Prop
  | .moveConstruct cls i _ => ∃ x, s.object i = some x ∧ x.isOffered = true ∧
      cls.overrides ≠ x.cls.overrides
  | .moveAssign i j _ => ∃ x z, s.object i = some x ∧ s.object j = some z ∧ i ≠ j ∧
      z.isOffered = true ∧ x.cls.overrides ≠ z.cls.overrides
  | .destroy i => ∃ x, s.object i = some x ∧ x.isOffered = true ∧ x.cls.overrides = true ∧
      x.cls.stopsFirst = false
  | _ => False

section Conserved
variable [DecidableEq Specifier] {x z : SkeletonBase Specifier}
open SkeletonBase

theorem conserves_same (x : SkeletonBase Specifier) : Conserves holds .nothing [x] [x] :=
  fun _ => rfl

theorem offerService_conserves (halive : x.alive = true) (outcome : Result Unit) :
    Conserves holds (x.offerService outcome).2.2 [x] [(x.offerService outcome).2.1] := by
  unfold offerService
  cases hoffered : x.isOffered with
  | true => exact conserves_same x
  | false =>
    intro y
    cases hov : x.cls.overrides with
    | false => simp [doOfferService,hov,Result.hasValue,holds,Work.nothing]
    | true =>
      cases outcome with
      | error e => simp [doOfferService,hov,Result.hasValue,Work.nothing]
      | ok u => simp [doOfferService,hov,Result.hasValue,holds,List.count_singleton,halive,hoffered]

/-- A stop through another class than the object's own one ends no offer that its class has made. -/
theorem stopAs_conserves_iff (halive : x.alive = true) (cls : SkeletonClass) :
    Conserves holds (x.stopAs cls).2 [x] [(x.stopAs cls).1] ↔
      ¬ (x.isOffered = true ∧ cls.overrides ≠ x.cls.overrides) := by
  unfold stopAs
  cases hoffered : x.isOffered with
  | false => exact iff_of_true (conserves_same x) (by simp)
  | true =>
    cases hcls : cls.overrides <;> cases hov : x.cls.overrides <;>
      simp [Conserves,doStopOfferService,holds,Work.nothing,List.count_singleton,hcls,hov,halive,
        hoffered]

theorem destroy_conserves_iff (halive : x.alive = true) :
    Conserves holds x.destroy.2 [x] [x.destroy.1] ↔
      ¬ (x.isOffered = true ∧ x.cls.overrides = true ∧ x.cls.stopsFirst = false) := by
  cases hoffered : x.isOffered <;> cases hov : x.cls.overrides <;>
    cases hfirst : x.cls.stopsFirst <;>
    simp [Conserves,destroy,stopOfferService,stopAs,doStopOfferService,serviceSkeleton,
      Work.followedBy,Work.nothing,holds,List.count_singleton,hoffered,hov,hfirst,halive]

theorem moveConstruct_conserves_iff (halive : x.alive = true) (cls : SkeletonClass)
    (left : Specifier) :
    Conserves holds .nothing [x] [(x.moveConstruct cls left).2,(x.moveConstruct cls left).1] ↔
      ¬ (x.isOffered = true ∧ cls.overrides ≠ x.cls.overrides) := by
  cases hoffered : x.isOffered <;> cases hcls : cls.overrides <;> cases hov : x.cls.overrides <;>
    simp [Conserves,moveConstruct,holds,Work.nothing,List.countP_cons,hoffered,hcls,hov,halive]

theorem moveAssign_conserves_iff (hx : x.alive = true) (hz : z.alive = true) (left : Specifier) :
    Conserves holds (x.moveAssign z left).2.2 [x,z]
        [(x.moveAssign z left).1,(x.moveAssign z left).2.1] ↔
      ¬ (z.isOffered = true ∧ x.cls.overrides ≠ z.cls.overrides) := by
  cases hoffered : x.isOffered <;> cases hoffered' : z.isOffered <;>
    cases hov : x.cls.overrides <;> cases hov' : z.cls.overrides <;>
    simp [Conserves,moveAssign,stopOfferService,stopAs,doStopOfferService,holds,Work.nothing,
      List.countP_cons,List.count_singleton,hoffered,hoffered',hov,hov',hx,hz,Nat.add_comm]

end Conserved

section Runs
variable {s : State Specifier} {i : Nat} {x : SkeletonBase Specifier}
open SkeletonBase

theorem State.object_eq_some (h : s.object i = some x) : s.items[i]? = some x ∧ x.alive = true :=
  Option.filter_eq_some_iff.mp h

variable [DecidableEq Specifier]

theorem put_balanced_iff (h : s.Balanced holds) (hx : s.object i = some x)
    (x' : SkeletonBase Specifier) (work : Work Specifier) :
    (s.put i x' work).Balanced holds ↔ Conserves holds work [x] [x'] :=
  h.change_iff rfl (countP_set (State.object_eq_some hx).1 x')

theorem add_balanced_iff (h : s.Balanced holds) (x : SkeletonBase Specifier) :
    (s.add x).Balanced holds ↔ Conserves holds .nothing [] [x] :=
  h.change_iff (by simp [State.add,Work.followedBy,Work.nothing])
    fun p => by simp [State.add,List.countP_append]

theorem step_balanced_iff (h : s.Balanced holds) (call : Call Specifier) :
    (s.step call).Balanced holds ↔ ¬ Strays s call := by
  cases call with
  | construct cls instanceSpec mode =>
    refine (add_balanced_iff h _).trans (iff_of_true ?_ id)
    intro y
    simp [holds,new,Work.nothing]
  | offerService i outcome =>
    simp only [State.step,Strays,not_false_eq_true,iff_true]
    cases hx : s.object i with
    | none => exact h
    | some x =>
      exact (put_balanced_iff h hx _ _).mpr
        (offerService_conserves (State.object_eq_some hx).2 outcome)
  | stopOfferService i =>
    simp only [State.step,Strays,not_false_eq_true,iff_true]
    cases hx : s.object i with
    | none => exact h
    | some x =>
      exact (put_balanced_iff h hx _ _).mpr
        ((stopAs_conserves_iff (State.object_eq_some hx).2 x.cls).mpr fun hne => hne.2 rfl)
  | moveConstruct cls i left =>
    simp only [State.step,Strays]
    cases hx : s.object i with
    | none => exact iff_of_true h (by simp)
    | some x =>
      obtain ⟨hget,halive⟩ := State.object_eq_some hx
      simp only [Option.some.injEq,exists_eq_left']
      rw [← moveConstruct_conserves_iff halive cls left]
      refine h.change_iff (by simp [State.add,State.put]) fun p => ?_
      have hset := countP_set hget (x.moveConstruct cls left).2 p
      simp only [State.add,State.put,List.countP_append] at hset ⊢
      rw [countP_pair]
      omega
  | moveAssign i j left =>
    simp only [State.step,Strays]
    cases hx : s.object i with
    | none => exact iff_of_true h (by simp)
    | some x =>
      cases hz : s.object j with
      | none => exact iff_of_true h (by simp)
      | some z =>
        obtain ⟨hi,hxalive⟩ := State.object_eq_some hx
        obtain ⟨hj,hzalive⟩ := State.object_eq_some hz
        by_cases hij : i = j
        · simp only [if_pos hij]
          exact iff_of_true h (by simp [hij])
        · simp only [Option.some.injEq,exists_and_left,exists_eq_left',ne_eq,hij,not_false_eq_true,
            true_and]
          refine Iff.trans ?_ (moveAssign_conserves_iff hxalive hzalive left)
          rw [if_neg not_false]
          exact h.change_iff (by simp [State.put,Work.followedBy,Work.nothing])
            (countP_set_set hij hi hj _ _)
  | destroy i =>
    simp only [State.step,Strays]
    cases hx : s.object i with
    | none => exact iff_of_true h (by simp)
    | some x =>
      simp only [Option.some.injEq,exists_eq_left']
      exact (put_balanced_iff h hx _ _).trans
        (destroy_conserves_iff (State.object_eq_some hx).2)

/-- In every run of skeletons, however they are moved, each offer that a class has made is stopped
by it once or belongs to one object, so long as no call makes an offer stray. -/
theorem offers_balanced_iff (calls : Nat → Call Specifier) (n : Nat) :
    (∀ k, k ≤ n → (stateAt State.step .initial calls k).Balanced holds) ↔
      ∀ k, k < n → ¬ Strays (stateAt State.step .initial calls k) (calls k) :=
  holds_iff_of_step (I := fun k => (stateAt State.step .initial calls k).Balanced holds)
    Account.balanced_nil fun _ h => step_balanced_iff h _

end Runs

end Model

end LapCom.Skeletons
