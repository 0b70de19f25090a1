import LapCom.ComTypes
import LapCom.Container.Window
import LapCom.Machine.Run

set_option autoImplicit false

namespace LapCom.Proxy
open LapCom.Container LapCom.Machine

inductive SubscriptionState where
  | kSubscribed
  | kNotSubscribed
  | kSubscriptionPending
  deriving DecidableEq

/-- `S` stands for the samples, `H` for the handlers. -/
structure ProxyEvent (S H : Type) where
  subscriptionState : SubscriptionState
  maxSampleCount : BitVec 32
  sampleQueue : List S
  receiveHandler : Option H
  e2eStatus : E2ECheckStatus

namespace ProxyEvent
variable {S H : Type}

def new : ProxyEvent S H :=
  { subscriptionState := .kNotSubscribed, maxSampleCount := 1, sampleQueue := []
    receiveHandler := none, e2eStatus := ⟨.kOk,0⟩ }

def subscribe (p : ProxyEvent S H) (maxSampleCount : BitVec 32) :
    Result Unit × ProxyEvent S H :=
  if p.subscriptionState = .kSubscribed then (.ok (),p)
  else (.ok (),{ p with maxSampleCount := maxSampleCount, subscriptionState := .kSubscribed })

def unsubscribe (p : ProxyEvent S H) : ProxyEvent S H :=
  if p.subscriptionState = .kSubscribed then
    { p with subscriptionState := .kNotSubscribed, sampleQueue := [], receiveHandler := none }
  else p

def getSubscriptionState (p : ProxyEvent S H) : SubscriptionState := p.subscriptionState

def getNewSamples (p : ProxyEvent S H) : BitVec 32 := BitVec.ofNat 32 p.sampleQueue.length

def getNextSample (p : ProxyEvent S H) : Result S × ProxyEvent S H :=
  if p.subscriptionState ≠ .kSubscribed then (fail .kServiceNotAvailable 0,p)
  else
    match p.sampleQueue with
    | [] => (fail .kMaxSamplesExceeded 0,p)
    | sample :: rest => (.ok sample,{ p with sampleQueue := rest })

def setReceiveHandler (p : ProxyEvent S H) (handler : Option H) : Result Unit × ProxyEvent S H :=
  (.ok (),{ p with receiveHandler := handler })

def unsetReceiveHandler (p : ProxyEvent S H) : ProxyEvent S H := { p with receiveHandler := none }

def getE2ECheckStatus (p : ProxyEvent S H) : E2ECheckStatus := p.e2eStatus

def pushSample (p : ProxyEvent S H) (sample : S) : ProxyEvent S H :=
  let queue :=
    if 0 < p.maxSampleCount ∧ p.maxSampleCount.toNat ≤ p.sampleQueue.length then
      p.sampleQueue.tail
    else p.sampleQueue
  { p with sampleQueue := queue++[sample] }

end ProxyEvent

inductive Call (S : Type) where
  | subscribe (maxSampleCount : BitVec 32)
  | unsubscribe
  | pushSample (sample : S)
  | getNextSample

section Run
variable {S H : Type}

def ProxyEvent.step (p : ProxyEvent S H) : Call S → ProxyEvent S H
  | .subscribe maxSampleCount => (p.subscribe maxSampleCount).2
  | .unsubscribe => p.unsubscribe
  | .pushSample sample => p.pushSample sample
  | .getNextSample => p.getNextSample.2

/-- A subscription with the samples that were pushed since it began, behind the last one that
was taken. -/
structure Subscription (S : Type) where
  bound : BitVec 32
  untaken : List S

def Subscription.queued (s : Subscription S) : List S := window s.bound.toNat s.untaken

/-- What a call does to the subscription. A sample that is taken is the first of the queued. -/
def follow (current : Option (Subscription S)) : Call S → Option (Subscription S)
  | .subscribe maxSampleCount => some (current.getD ⟨maxSampleCount,[]⟩)
  | .unsubscribe => none
  | .pushSample sample => current.map fun s => { s with untaken := s.untaken++[sample] }
  | .getNextSample => current.map fun s => { s with untaken := s.queued.tail }

/-- The queue holds the last samples of the current subscription. -/
def Refines (p : ProxyEvent S H) : Option (Subscription S) → Prop
  | none => p.subscriptionState ≠ .kSubscribed ∧ p.sampleQueue = []
  | some s => p.subscriptionState = .kSubscribed ∧ p.maxSampleCount = s.bound ∧
      p.sampleQueue = s.queued

theorem Refines.subscribe {p : ProxyEvent S H} {current : Option (Subscription S)}
    (h : Refines p current) (maxSampleCount : BitVec 32) :
    Refines (p.step (.subscribe maxSampleCount)) (follow current (.subscribe maxSampleCount)) := by
  cases current with
  | none =>
    obtain ⟨hstate,hqueue⟩ := h
    rw [ProxyEvent.step,ProxyEvent.subscribe,if_neg hstate]
    exact ⟨rfl,rfl,hqueue.trans (window_of_le (.inr (Nat.zero_le _))).symm⟩
  | some s =>
    rw [ProxyEvent.step,ProxyEvent.subscribe,if_pos h.1]
    exact h

theorem Refines.unsubscribe {p : ProxyEvent S H} {current : Option (Subscription S)}
    (h : Refines p current) : Refines (p.step .unsubscribe) (follow current .unsubscribe) := by
  rw [ProxyEvent.step,ProxyEvent.unsubscribe]
  split_ifs with hstate
  · exact ⟨by simp,rfl⟩
  · cases current with
    | none => exact h
    | some s => exact absurd h.1 hstate

theorem Refines.pushSample {p : ProxyEvent S H} {s : Subscription S} (h : Refines p (some s))
    (sample : S) :
    Refines (p.step (.pushSample sample)) (follow (some s) (.pushSample sample)) := by
  obtain ⟨hstate,hbound,hqueue⟩ := h
  refine ⟨hstate,hbound,?_⟩
  have hpos : 0 < p.maxSampleCount ↔ 0 < s.bound.toNat := by
    rw [hbound,BitVec.lt_def]
    rfl
  rw [Subscription.queued,window_concat]
  simp only [ProxyEvent.step,ProxyEvent.pushSample,hpos]
  rw [hbound,hqueue,Subscription.queued]

theorem ProxyEvent.getNextSample_eq {p : ProxyEvent S H}
    (h : p.subscriptionState = .kSubscribed) :
    p.getNextSample.2 = { p with sampleQueue := p.sampleQueue.tail } ∧
      ∀ sample, p.getNextSample.1 = .ok sample → sample ∈ p.sampleQueue := by
  obtain ⟨state,bound,queue,handler,status⟩ := p
  obtain rfl : state = .kSubscribed := h
  cases queue with
  | nil =>
    refine ⟨rfl,?_⟩
    rintro sample ⟨⟩
  | cons first rest =>
    refine ⟨rfl,?_⟩
    rintro sample ⟨⟩
    exact List.mem_cons_self

theorem Refines.getNextSample {p : ProxyEvent S H} {current : Option (Subscription S)}
    (h : Refines p current) : Refines (p.step .getNextSample) (follow current .getNextSample) := by
  rw [ProxyEvent.step]
  cases current with
  | none =>
    rw [ProxyEvent.getNextSample,if_pos h.1]
    exact h
  | some s =>
    obtain ⟨hstate,hbound,hqueue⟩ := h
    rw [(ProxyEvent.getNextSample_eq hstate).1,hqueue]
    exact ⟨hstate,hbound,(window_tail _ _).symm⟩

theorem Refines.pushSample_none {p : ProxyEvent S H} (sample : S) :
    ¬ Refines (p.step (.pushSample sample)) (follow none (.pushSample sample)) := by
  rintro ⟨-,hqueue⟩
  exact absurd hqueue (List.concat_ne_nil _ _)

def Subscribed (p : ProxyEvent S H) : Call S → Prop
  | .pushSample _ => p.subscriptionState = .kSubscribed
  | _ => True

theorem Refines.step_iff {p : ProxyEvent S H} {current : Option (Subscription S)}
    (h : Refines p current) (a : Call S) :
    Refines (p.step a) (follow current a) ↔ Subscribed p a := by
  cases a with
  | subscribe maxSampleCount => exact iff_of_true (h.subscribe maxSampleCount) trivial
  | unsubscribe => exact iff_of_true h.unsubscribe trivial
  | getNextSample => exact iff_of_true h.getNextSample trivial
  | pushSample sample =>
    cases current with
    | none => exact iff_of_false (pushSample_none sample) h.1
    | some s => exact iff_of_true (h.pushSample sample) h.1

/-- The queue holds the last samples of the current subscription, none without one, and what
`GetNextSample` returns was pushed during it. -/
def Serves (p : ProxyEvent S H) (current : Option (Subscription S)) : Prop :=
  Refines p current ∧
    ∀ sample, p.getNextSample.1 = .ok sample → ∃ s, current = some s ∧ sample ∈ s.untaken

theorem Refines.serves {p : ProxyEvent S H} {current : Option (Subscription S)}
    (h : Refines p current) : Serves p current := by
  refine ⟨h,fun sample hsample => ?_⟩
  cases current with
  | none =>
    rw [ProxyEvent.getNextSample,if_pos h.1] at hsample
    cases hsample
  | some s =>
    obtain ⟨hstate,-,hqueue⟩ := h
    have hmem := (ProxyEvent.getNextSample_eq hstate).2 sample hsample
    rw [hqueue] at hmem
    exact ⟨s,rfl,mem_of_mem_window hmem⟩

abbrev eventAt (σ : Nat → Call S) (k : Nat) : ProxyEvent S H :=
  stateAt ProxyEvent.step .new σ k

abbrev subscriptionAt (σ : Nat → Call S) (k : Nat) : Option (Subscription S) :=
  stateAt follow none σ k

end Run

/-- The queue is that of a bounded FIFO of the current subscription in every state of a run, if
and only if no sample is pushed while the event is not subscribed. -/
theorem queue_refines_iff {S H : Type} (σ : Nat → Call S) (n : Nat) :
    (∀ k, k ≤ n → Serves (eventAt σ k : ProxyEvent S H) (subscriptionAt σ k)) ↔
      ∀ k, k < n → Subscribed (eventAt σ k : ProxyEvent S H) (σ k) := by
  have hinitial : Refines (eventAt σ 0 : ProxyEvent S H) (subscriptionAt σ 0) :=
    ⟨by simp [ProxyEvent.new],rfl⟩
  have hstep (k : Nat) (h : Refines (eventAt σ k : ProxyEvent S H) (subscriptionAt σ k)) :
      Refines (eventAt σ (k+1) : ProxyEvent S H) (subscriptionAt σ (k+1)) ↔
        Subscribed (eventAt σ k : ProxyEvent S H) (σ k) := h.step_iff (σ k)
  rw [← holds_iff_of_step hinitial hstep]
  exact ⟨fun h k hk => (h k hk).1,fun h k hk => (h k hk).serves⟩

def pushedEarly : Nat → Call Nat :=
  schedule [.pushSample 1,.subscribe 1] .getNextSample

/-- The subscription begins with a sample that was pushed before it. -/
theorem early_sample_returned :
    ¬ Serves (eventAt pushedEarly 1 : ProxyEvent Nat Unit) (subscriptionAt pushedEarly 1) ∧
    (eventAt pushedEarly 2 : ProxyEvent Nat Unit).getNextSample.1 = .ok 1 := by
  refine ⟨fun h => ?_,rfl⟩
  exact Refines.pushSample_none 1 h.1

end LapCom.Proxy
