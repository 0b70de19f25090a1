import LapCom.Machine.Guarded
import LapCom.Runtime.Event

set_option autoImplicit false

namespace LapCom.Proxy
open LapCom.Machine

/-- The public methods of `ProxyEvent`. A handler is the calls that it makes, and they may set
another one. -/
inductive EventMethod where
  | subscribe (maxSampleCount : BitVec 32)
  | unsubscribe
  | getSubscriptionState
  | getNewSamples
  | getNextSample
  | setReceiveHandler (handler : Option (List EventMethod))
  | unsetReceiveHandler
  | getE2ECheckStatus

abbrev ReceiveHandler := List EventMethod

def EventMethod.exec {S : Type} :
    EventMethod → ProxyEvent S ReceiveHandler → ProxyEvent S ReceiveHandler
  | .subscribe maxSampleCount, p => (p.subscribe maxSampleCount).2
  | .unsubscribe, p => p.unsubscribe
  | .getSubscriptionState, p => p
  | .getNewSamples, p => p
  | .getNextSample, p => p.getNextSample.2
  | .setReceiveHandler handler, p => (p.setReceiveHandler handler).2
  | .unsetReceiveHandler, p => p.unsetReceiveHandler
  | .getE2ECheckStatus, p => p

/-- Every method of `ProxyEvent` begins with a `lock_guard`. -/
def ProxyEvent.interface (S : Type) : Interface (ProxyEvent S ReceiveHandler) EventMethod :=
  ⟨fun _ => true,EventMethod.exec⟩

def ProxyEvent.dispatch {S : Type} (p : Guarded (ProxyEvent S ReceiveHandler)) (sample : S) :
    Option (Unit × Guarded (ProxyEvent S ReceiveHandler)) :=
  (interface S).dispatch p fun p =>
    let p := p.pushSample sample
    (p,p.receiveHandler.getD [],())

inductive ServiceAvailabilityState where
  | kOffered
  | kNotOffered
  deriving DecidableEq

inductive ProxyMethod where
  | isValid
  | getServiceAvailability
  | setServiceAvailabilityHandler
      (handler : Option (ServiceAvailabilityState → List ProxyMethod)) (maxSampleCount : BitVec 32)
  | unsetServiceAvailabilityHandler

structure ProxyBase where
  isValid : Bool
  availabilityState : ServiceAvailabilityState
  availabilityHandler : Option (ServiceAvailabilityState → List ProxyMethod)
  maxSampleCount : BitVec 32

namespace ProxyBase

def new : ProxyBase := ⟨false,.kNotOffered,none,0⟩

def setServiceAvailabilityHandler (p : ProxyBase)
    (handler : Option (ServiceAvailabilityState → List ProxyMethod))
    (maxSampleCount : BitVec 32) : Result Unit × ProxyBase :=
  (.ok (),{ p with availabilityHandler := handler, maxSampleCount := maxSampleCount })

def unsetServiceAvailabilityHandler (p : ProxyBase) : ProxyBase :=
  { p with availabilityHandler := none }

end ProxyBase

/-- `IsValid` and `GetServiceAvailability` read without the mutex. -/
def ProxyMethod.locks : ProxyMethod → Bool
  | .isValid => false
  | .getServiceAvailability => false
  | .setServiceAvailabilityHandler _ _ => true
  | .unsetServiceAvailabilityHandler => true

def ProxyMethod.exec : ProxyMethod → ProxyBase → ProxyBase
  | .isValid, p => p
  | .getServiceAvailability, p => p
  | .setServiceAvailabilityHandler handler maxSampleCount, p =>
    (p.setServiceAvailabilityHandler handler maxSampleCount).2
  | .unsetServiceAvailabilityHandler, p => p.unsetServiceAvailabilityHandler

def ProxyBase.interface : Interface ProxyBase ProxyMethod := ⟨ProxyMethod.locks,ProxyMethod.exec⟩

def ProxyBase.notifyAvailabilityChange (p : Guarded ProxyBase) (state : ServiceAvailabilityState) :
    Option (Unit × Guarded ProxyBase) :=
  interface.dispatch p fun p =>
    let p := { p with availabilityState := state }
    (p,match p.availabilityHandler with
      | none => []
      | some handler => handler state,())

inductive SkeletonCall (A O : Type) where
  | registerMethodHandler (handler : Option (A → List (SkeletonCall A O) × O))
  | unregisterMethodHandler
  | hasHandler

structure SkeletonMethod (A O : Type) where
  handler : Option (A → List (SkeletonCall A O) × O)

namespace SkeletonMethod
variable {A O : Type}

def new : SkeletonMethod A O := ⟨none⟩

def registerMethodHandler (m : SkeletonMethod A O)
    (handler : Option (A → List (SkeletonCall A O) × O)) : Result Unit × SkeletonMethod A O :=
  match m.handler with
  | some _ => (fail .kSetHandlerNotSet 0,m)
  | none => (.ok (),⟨handler⟩)

def unregisterMethodHandler (_m : SkeletonMethod A O) : SkeletonMethod A O := ⟨none⟩

end SkeletonMethod

def SkeletonCall.exec {A O : Type} : SkeletonCall A O → SkeletonMethod A O → SkeletonMethod A O
  | .registerMethodHandler handler, m => (m.registerMethodHandler handler).2
  | .unregisterMethodHandler, m => m.unregisterMethodHandler
  | .hasHandler, m => m

def SkeletonMethod.interface (A O : Type) : Interface (SkeletonMethod A O) (SkeletonCall A O) :=
  ⟨fun _ => true,SkeletonCall.exec⟩

def SkeletonMethod.processCall {A O : Type} (m : Guarded (SkeletonMethod A O)) (args : A) :
    Option (Result O × Guarded (SkeletonMethod A O)) :=
  (interface A O).dispatch m fun m =>
    match m.handler with
    | none => (m,[],fail .kSetHandlerNotSet 0)
    | some handler => (m,(handler args).1,.ok (handler args).2)

/-- A dispatch never locks the mutex that its thread holds, if and only if the callback that it
runs calls no method of the object at all, or of a proxy only the two that do not lock. -/
theorem callbacks_relock_iff {S A O : Type} :
    (∀ (p : ProxyEvent S ReceiveHandler) (sample : S),
      (ProxyEvent.dispatch ⟨p,false⟩ sample).isSome = true ↔
        ∀ calls, p.receiveHandler = some calls → calls = []) ∧
    (∀ (p : ProxyBase) (state : ServiceAvailabilityState),
      (ProxyBase.notifyAvailabilityChange ⟨p,false⟩ state).isSome = true ↔
        ∀ handler, p.availabilityHandler = some handler → ∀ m, m ∈ handler state →
          m = .isValid ∨ m = .getServiceAvailability) ∧
    ∀ (m : SkeletonMethod A O) (args : A),
      (SkeletonMethod.processCall ⟨m,false⟩ args).isSome = true ↔
        ∀ handler, m.handler = some handler → (handler args).1 = [] := by
  refine ⟨fun p sample => ?_,fun p state => ?_,fun m args => ?_⟩
  · rw [ProxyEvent.dispatch,Interface.dispatch_iff]
    have hhandler : (p.pushSample sample).receiveHandler = p.receiveHandler := rfl
    simp only [hhandler]
    cases p.receiveHandler with
    | none => simp
    | some calls => simp [ProxyEvent.interface,List.eq_nil_iff_forall_not_mem]
  · rw [ProxyBase.notifyAvailabilityChange,Interface.dispatch_iff]
    cases hhandler : p.availabilityHandler with
    | none => simp
    | some handler =>
      simp only [Option.some.injEq,forall_eq']
      refine forall₂_congr fun m _ => ?_
      cases m with
      | _ => simp [ProxyBase.interface,ProxyMethod.locks]
  · rw [SkeletonMethod.processCall,Interface.dispatch_iff]
    cases hhandler : m.handler with
    | none => simp
    | some handler => simp [SkeletonMethod.interface,List.eq_nil_iff_forall_not_mem]

/-- A handler that fetches the new sample. -/
theorem fetch_relocks :
    ProxyEvent.dispatch
      ⟨{ (ProxyEvent.new : ProxyEvent Nat ReceiveHandler) with
        subscriptionState := .kSubscribed, receiveHandler := some [.getNextSample] },false⟩ 1 =
      none := rfl

end LapCom.Proxy
