import LapCom.Iceoryx2.Binding
import LapCom.Machine.Run

set_option autoImplicit false

namespace LapCom.Iceoryx2
open LapCom.Machine LapCom.Text

structure Topic where
  serviceId : BitVec 64
  instanceId : BitVec 64
  eventId : BitVec 32
  deriving DecidableEq

def Topic.key (t : Topic) : BitVec 64 := makeServiceKey t.serviceId t.instanceId

def Topic.serviceName (t : Topic) : List Char := makeServiceName t.serviceId t.instanceId

inductive Call (C : Type) where
  | initializeBinding (outcome : NodeOutcome)
  | shutdown
  | offerService (serviceId instanceId : BitVec 64) (outcome : PortOutcome)
  | stopOfferService (serviceId instanceId : BitVec 64)
  | sendEvent (t : Topic) (data : List Byte) (outcome : SendOutcome)
  | subscribeEvent (t : Topic) (callback : C) (outcome : PortOutcome)
  | unsubscribeEvent (t : Topic)

/-- A call of a binding, or the listener thread of a subscription receives a sample: the
`n`-th that was ever sent. -/
inductive Event (C : Type) where
  | call (b : Nat) (a : Call C)
  | receive (b : Nat) (key : BitVec 64) (n : Nat)

/-- Bindings on one machine and all samples that they have sent. -/
structure System (C : Type) where
  bindings : Nat → Iceoryx2Binding C
  samples : List Sample

structure Invocation (C : Type) where
  callback : C
  topic : Topic
  data : List Byte

def SubscriberWrapper.topic {C : Type} (w : SubscriberWrapper C) : Topic :=
  ⟨w.serviceId,w.instanceId,w.eventId⟩

section Step
variable {C : Type}

def Call.exec (b : Iceoryx2Binding C) : Call C → Result Unit × Iceoryx2Binding C × Option Sample
  | .initializeBinding outcome =>
    let done := b.initializeBinding outcome
    (done.1,done.2,none)
  | .shutdown =>
    let done := b.shutdown
    (done.1,done.2,none)
  | .offerService serviceId instanceId outcome =>
    let done := b.offerService serviceId instanceId outcome
    (done.1,done.2,none)
  | .stopOfferService serviceId instanceId =>
    let done := b.stopOfferService serviceId instanceId
    (done.1,done.2,none)
  | .sendEvent t data outcome => b.sendEvent t.serviceId t.instanceId t.eventId data outcome
  | .subscribeEvent t callback outcome =>
    let done := b.subscribeEvent t.serviceId t.instanceId t.eventId callback outcome
    (done.1,done.2,none)
  | .unsubscribeEvent t =>
    let done := b.unsubscribeEvent t.serviceId t.instanceId t.eventId
    (done.1,done.2,none)

namespace System

def initial : System C := ⟨fun _ => .new,[]⟩

/-- What `listenerThread` calls back. A port receives the samples of its own service. -/
def invoked (s : System C) : Event C → Option (Invocation C)
  | .call _ _ => none
  | .receive b key n =>
    match (s.bindings b).subscribers.lookup key,s.samples[n]? with
    | some w,some sample =>
      if sample.serviceName = w.serviceName then some ⟨w.callback,w.topic,sample.data⟩ else none
    | _,_ => none

def step (s : System C) : Event C → System C
  | .call b a =>
    let done := a.exec (s.bindings b)
    { bindings := Function.update s.bindings b done.2.1
      samples := s.samples++done.2.2.toList }
  | .receive b key n =>
    match s.invoked (.receive b key n) with
    | none => s
    | some x =>
      { s with
        bindings := Function.update s.bindings b { s.bindings b with
          metrics := (s.bindings b).metrics.received x.data.length } }

end System

def Event.Uses (T : Set Topic) : Event C → Prop
  | .call _ (.sendEvent t _ _) => t ∈ T
  | .call _ (.subscribeEvent t _ _) => t ∈ T
  | _ => True

/-- A callback is given only what was sent as the event that it was registered for. -/
def Routed (σ : Nat → Event C) (k : Nat) : Prop :=
  ∀ x, (stateAt System.step System.initial σ k).invoked (σ k) = some x →
    ∃ j, j < k ∧ ∃ b outcome, σ j = .call b (.sendEvent x.topic x.data outcome)

end Step

theorem and_mask_getLsbD (x : BitVec 64) (k : Nat) :
    (x &&& 0xFFFF).getLsbD k = (decide (k < 16) && x.getLsbD k) := by
  have hmask : ∀ k, k < 64 → (0xFFFF : BitVec 64).getLsbD k = decide (k < 16) := by decide
  rw [BitVec.getLsbD_and,Bool.and_comm]
  by_cases hk : k < 64
  · rw [hmask k hk]
  · rw [BitVec.getLsbD_of_ge x k (by omega),Bool.and_false,Bool.and_false]

/-- The key of a service determines the bits that its name is made of. -/
theorem makeServiceKey_low {s i s' i' : BitVec 64} (h : makeServiceKey s i = makeServiceKey s' i') :
    s &&& 0xFFFF = s' &&& 0xFFFF ∧ i &&& 0xFFFF = i' &&& 0xFFFF := by
  have hmask : ∀ k, k < 64 → (0xFFFFFFFF : BitVec 64).getLsbD k = decide (k < 32) := by decide
  have hservice (s i : BitVec 64) {k : Nat} (hk : k < 16) :
      (makeServiceKey s i).getLsbD (k+32) = s.getLsbD k := by
    rw [makeServiceKey,BitVec.getLsbD_or,BitVec.getLsbD_shiftLeft,BitVec.getLsbD_and,
      hmask (k+32) (by omega)]
    simp [show k+32 < 64 by omega]
  have hinstance (s i : BitVec 64) {k : Nat} (hk : k < 16) :
      (makeServiceKey s i).getLsbD k = i.getLsbD k := by
    rw [makeServiceKey,BitVec.getLsbD_or,BitVec.getLsbD_shiftLeft,BitVec.getLsbD_and,
      hmask k (by omega)]
    simp [show k < 32 by omega]
  constructor
  · apply BitVec.eq_of_getLsbD_eq
    intro k _
    rw [and_mask_getLsbD,and_mask_getLsbD]
    by_cases hk : k < 16
    · rw [← hservice s i hk,← hservice s' i' hk,h]
    · simp [hk]
  · apply BitVec.eq_of_getLsbD_eq
    intro k _
    rw [and_mask_getLsbD,and_mask_getLsbD]
    by_cases hk : k < 16
    · rw [← hinstance s i hk,← hinstance s' i' hk,h]
    · simp [hk]

theorem makeServiceName_eq_iff {s i s' i' : BitVec 64} :
    makeServiceName s i = makeServiceName s' i' ↔
      s &&& 0xFFFF = s' &&& 0xFFFF ∧ i &&& 0xFFFF = i' &&& 0xFFFF := by
  have hlt (x : BitVec 64) : (x &&& 0xFFFF).toNat < 16^4 := by
    rw [BitVec.toNat_and]
    exact Nat.lt_of_le_of_lt Nat.and_le_right (by decide)
  have hlen (x : BitVec 64) : (hexWidth 4 (x &&& 0xFFFF).toNat).length = 4 :=
    hexWidth_length (by decide) (hlt x)
  constructor
  · intro h
    have hrest := List.append_cancel_left h
    obtain ⟨hservice,hcons⟩ := List.append_inj hrest ((hlen s).trans (hlen s').symm)
    have hinstance := (List.cons.inj hcons).2
    exact ⟨BitVec.eq_of_toNat_eq (hexWidth_injective 4 hservice),
      BitVec.eq_of_toNat_eq (hexWidth_injective 4 hinstance)⟩
  · intro h
    exact congrArg₂ (fun a b : BitVec 64 => "lap_com_".toList++(hexWidth 4 a.toNat++
      '_' :: hexWidth 4 b.toNat)) h.1 h.2

/-- No two events of `T` agree in the low 16 bits of both their ids. -/
def Distinct (T : Set Topic) : Prop :=
  ∀ t, t ∈ T → ∀ t', t' ∈ T → t.serviceId &&& 0xFFFF = t'.serviceId &&& 0xFFFF →
    t.instanceId &&& 0xFFFF = t'.instanceId &&& 0xFFFF → t = t'

section Invariant
variable {C : Type}

structure Named (T : Set Topic) (σ : Nat → Event C) (k : Nat) (s : System C) : Prop where
  publishers : ∀ b key w, (s.bindings b).publishers.lookup key = some w →
    makeServiceKey w.serviceId w.instanceId = key ∧
      w.serviceName = makeServiceName w.serviceId w.instanceId
  subscribers : ∀ b key w, (s.bindings b).subscribers.lookup key = some w →
    w.topic ∈ T ∧ w.serviceName = w.topic.serviceName
  samples : ∀ x, x ∈ s.samples → ∃ t, t ∈ T ∧ x.serviceName = t.serviceName ∧
    ∃ j, j < k ∧ ∃ b outcome, σ j = .call b (.sendEvent t x.data outcome)

theorem Named.initial (T : Set Topic) (σ : Nat → Event C) : Named T σ 0 System.initial := by
  refine ⟨?_,?_,?_⟩
  · intro b key w h
    cases h
  · intro b key w h
    cases h
  · intro x hx
    cases hx

theorem Named.samples_succ {T : Set Topic} {σ : Nat → Event C} {k : Nat} {s : System C}
    (h : Named T σ k s) : ∀ x, x ∈ s.samples → ∃ t, t ∈ T ∧ x.serviceName = t.serviceName ∧
      ∃ j, j < k+1 ∧ ∃ b outcome, σ j = .call b (.sendEvent t x.data outcome) := by
  intro x hx
  obtain ⟨t,ht,hname,j,hj,hcall⟩ := h.samples x hx
  exact ⟨t,ht,hname,j,by omega,hcall⟩

theorem Named.update {T : Set Topic} {σ : Nat → Event C} {k : Nat} {s : System C}
    (h : Named T σ k s) (b : Nat) (B : Iceoryx2Binding C) (sent : List Sample)
    (hpub : ∀ key w, B.publishers.lookup key = some w →
      (s.bindings b).publishers.lookup key = some w ∨
        (makeServiceKey w.serviceId w.instanceId = key ∧
          w.serviceName = makeServiceName w.serviceId w.instanceId))
    (hsub : ∀ key w, B.subscribers.lookup key = some w →
      (s.bindings b).subscribers.lookup key = some w ∨
        (w.topic ∈ T ∧ w.serviceName = w.topic.serviceName))
    (hsent : ∀ x, x ∈ sent → ∃ t, t ∈ T ∧ x.serviceName = t.serviceName ∧
      ∃ b outcome, σ k = .call b (.sendEvent t x.data outcome)) :
    Named T σ (k+1) ⟨Function.update s.bindings b B,s.samples++sent⟩ := by
  refine ⟨fun a key w hw => ?_,fun a key w hw => ?_,fun x hx => ?_⟩
  · by_cases ha : a = b
    · subst ha
      simp only [Function.update_self] at hw
      exact (hpub key w hw).elim (h.publishers a key w) id
    · simp only [Function.update_of_ne ha] at hw
      exact h.publishers a key w hw
  · by_cases ha : a = b
    · subst ha
      simp only [Function.update_self] at hw
      exact (hsub key w hw).elim (h.subscribers a key w) id
    · simp only [Function.update_of_ne ha] at hw
      exact h.subscribers a key w hw
  · obtain hx | hx := List.mem_append.mp hx
    · exact h.samples_succ x hx
    · obtain ⟨t,ht,hname,b',outcome,hcall⟩ := hsent x hx
      exact ⟨t,ht,hname,k,by omega,b',outcome,hcall⟩

theorem Call.exec_publishers {b : Iceoryx2Binding C} {a : Call C} {key : BitVec 64}
    {w : PublisherWrapper} (h : (a.exec b).2.1.publishers.lookup key = some w) :
    b.publishers.lookup key = some w ∨
      (makeServiceKey w.serviceId w.instanceId = key ∧
        w.serviceName = makeServiceName w.serviceId w.instanceId) := by
  cases a with
  | offerService s i outcome =>
    obtain h | ⟨rfl,rfl⟩ := Iceoryx2Binding.offerService_lookup h
    · exact .inl h
    · exact .inr ⟨rfl,rfl⟩
  | stopOfferService s i => exact .inl (Container.Dictionary.lookup_of_erase h)
  | shutdown => exact .inl (Iceoryx2Binding.shutdown_publishers h)
  | initializeBinding outcome => exact .inl (by simpa [exec] using h)
  | sendEvent t data outcome => exact .inl (by simpa [exec] using h)
  | subscribeEvent t callback outcome => exact .inl (by simpa [exec] using h)
  | unsubscribeEvent t => exact .inl h

theorem Call.exec_subscribers {b : Iceoryx2Binding C} {a : Call C} {key : BitVec 64}
    {w : SubscriberWrapper C} (h : (a.exec b).2.1.subscribers.lookup key = some w) :
    b.subscribers.lookup key = some w ∨
      ((∃ callback outcome, a = .subscribeEvent w.topic callback outcome) ∧
        w.serviceName = w.topic.serviceName) := by
  cases a with
  | subscribeEvent t callback outcome =>
    obtain h | ⟨-,rfl,rfl⟩ := Iceoryx2Binding.subscribeEvent_lookup h
    · exact .inl h
    · exact .inr ⟨⟨callback,outcome,rfl⟩,rfl⟩
  | unsubscribeEvent t => exact .inl (Container.Dictionary.lookup_of_erase h)
  | shutdown => exact .inl (Iceoryx2Binding.shutdown_subscribers h)
  | initializeBinding outcome => exact .inl (by simpa [exec] using h)
  | offerService s i outcome => exact .inl (by simpa [exec] using h)
  | stopOfferService s i => exact .inl h
  | sendEvent t data outcome => exact .inl (by simpa [exec] using h)

theorem Call.exec_sample {b : Iceoryx2Binding C} {a : Call C} {x : Sample}
    (h : (a.exec b).2.2 = some x) :
    ∃ t outcome w, a = .sendEvent t x.data outcome ∧ b.publishers.lookup t.key = some w ∧
      x.serviceName = w.serviceName := by
  cases a with
  | sendEvent t data outcome =>
    simp only [exec,Iceoryx2Binding.sendEvent] at h
    cases hw : b.publishers.lookup (makeServiceKey t.serviceId t.instanceId) with
    | none =>
      rw [hw] at h
      split_ifs at h
    | some w =>
      rw [hw] at h
      split_ifs at h
      obtain rfl := Option.some.inj h
      exact ⟨t,outcome,w,rfl,hw,rfl⟩
  | initializeBinding outcome => cases h
  | shutdown => cases h
  | offerService s i outcome => cases h
  | stopOfferService s i => cases h
  | subscribeEvent t callback outcome => cases h
  | unsubscribeEvent t => cases h

theorem System.invoked_eq_some {s : System C} {b n : Nat} {key : BitVec 64} {x : Invocation C}
    (h : s.invoked (.receive b key n) = some x) :
    ∃ w sample, (s.bindings b).subscribers.lookup key = some w ∧ sample ∈ s.samples ∧
      sample.serviceName = w.serviceName ∧ x = ⟨w.callback,w.topic,sample.data⟩ := by
  simp only [invoked] at h
  split at h
  · rename_i w sample hw hn
    split_ifs at h with hname
    exact ⟨w,sample,hw,List.mem_of_getElem? hn,hname,(Option.some.inj h).symm⟩
  · cases h

theorem Named.step {T : Set Topic} {σ : Nat → Event C} {k : Nat} {s : System C}
    (h : Named T σ k s) (huses : (σ k).Uses T) : Named T σ (k+1) (s.step (σ k)) := by
  cases he : σ k with
  | call b a =>
    rw [he] at huses
    refine h.update b _ _ (fun key w hw => Call.exec_publishers hw) ?_ ?_
    · intro key w hw
      obtain hw | ⟨⟨callback,outcome,rfl⟩,hname⟩ := Call.exec_subscribers hw
      · exact .inl hw
      · exact .inr ⟨huses,hname⟩
    · intro x hx
      obtain ⟨t,outcome,w,rfl,hw,hname⟩ := Call.exec_sample (Option.mem_toList.mp hx)
      obtain ⟨hkey,hown⟩ := h.publishers b t.key w hw
      refine ⟨t,huses,?_,b,outcome,he⟩
      rw [hname,hown]
      exact makeServiceName_eq_iff.mpr (makeServiceKey_low hkey)
  | receive b key n =>
    simp only [System.step]
    cases s.invoked (.receive b key n) with
    | none => exact ⟨h.publishers,h.subscribers,h.samples_succ⟩
    | some x =>
      have hupdate := h.update b { s.bindings b with
        metrics := (s.bindings b).metrics.received x.data.length } [] (fun key w hw => .inl hw)
        (fun key w hw => .inl hw) nofun
      rwa [List.append_nil] at hupdate

theorem Named.routed {T : Set Topic} (hT : Distinct T) {σ : Nat → Event C} {k : Nat}
    (h : Named T σ k (stateAt System.step System.initial σ k)) : Routed σ k := by
  intro x hx
  cases he : σ k with
  | call b a =>
    rw [he] at hx
    cases hx
  | receive b key n =>
    rw [he] at hx
    obtain ⟨w,sample,hw,hsample,hname,rfl⟩ := System.invoked_eq_some hx
    obtain ⟨hwT,hwname⟩ := h.subscribers b key w hw
    obtain ⟨t,ht,htname,j,hj,b',outcome,hcall⟩ := h.samples sample hsample
    have hsame : t.serviceName = w.topic.serviceName := by rw [← htname,hname,hwname]
    obtain ⟨hservice,hinstance⟩ := makeServiceName_eq_iff.mp hsame
    obtain rfl := hT t ht w.topic hwT hservice hinstance
    exact ⟨j,hj,b',outcome,hcall⟩

/-- An event is sent that nobody subscribed to, under the name of one that somebody did. -/
def mixUp (t t' : Topic) (callback : C) (data : List Byte) : Nat → Event C :=
  schedule [.call 0 (.initializeBinding ⟨true,true,true⟩),
    .call 0 (.offerService t'.serviceId t'.instanceId ⟨true,true,true⟩),
    .call 0 (.subscribeEvent t callback ⟨true,true,true⟩),
    .call 0 (.sendEvent t' data ⟨true,true,0⟩)] (.receive 0 t.key 0)

theorem mixUp_uses {T : Set Topic} {t t' : Topic} (ht : t ∈ T) (ht' : t' ∈ T) (callback : C)
    (data : List Byte) (k : Nat) : (mixUp t t' callback data k).Uses T := by
  refine schedule_forall ?_ ?_ k
  · intro e he
    simp only [List.mem_cons,List.not_mem_nil,or_false] at he
    obtain rfl | rfl | rfl | rfl := he
    · trivial
    · trivial
    · exact ht
    · exact ht'
  · trivial

theorem mixUp_invoked (t t' : Topic) (h : t.serviceName = t'.serviceName) (callback : C)
    (data : List Byte) :
    (stateAt System.step System.initial (mixUp t t' callback data) 4).invoked
      (mixUp t t' callback data 4) = some ⟨callback,t,data⟩ := by
  have hname : makeServiceName t'.serviceId t'.instanceId =
      makeServiceName t.serviceId t.instanceId := h.symm
  simp [mixUp,schedule,stateAt,System.step,System.initial,Call.exec,System.invoked,Topic.key,
    Iceoryx2Binding.new,Iceoryx2Binding.initializeBinding,Iceoryx2Binding.offerService,
    Iceoryx2Binding.subscribeEvent,Iceoryx2Binding.sendEvent,hname,SubscriberWrapper.topic,
    -AList.insert_empty]

theorem mixUp_sent {t t' : Topic} {callback : C} {data data' : List Byte} {j b : Nat}
    {t₀ : Topic} {outcome : SendOutcome}
    (h : mixUp t t' callback data j = .call b (.sendEvent t₀ data' outcome)) : t₀ = t' := by
  obtain _ | _ | _ | _ | j := j
  · cases h
  · cases h
  · cases h
  · cases h
    rfl
  · cases h

end Invariant

/-- Events reach only their own subscribers, whatever the calls, as long as and only as long as
the low 16 bits of the service and of the instance tell the events that are used apart. -/
theorem events_routed_iff {C : Type} [Inhabited C] (T : Set Topic) :
    (∀ (σ : Nat → Event C) (n : Nat), (∀ k, k < n → (σ k).Uses T) → ∀ k, k < n → Routed σ k) ↔
      Distinct T := by
  constructor
  · intro h t ht t' ht' hservice hinstance
    have hsame : t.serviceName = t'.serviceName :=
      makeServiceName_eq_iff.mpr ⟨hservice,hinstance⟩
    have hrouted := h (mixUp t t' default []) 5
      (fun k _ => mixUp_uses ht ht' default [] k) 4 (by decide)
    obtain ⟨j,_,b,outcome,hcall⟩ := hrouted _ (mixUp_invoked t t' hsame default [])
    exact mixUp_sent hcall
  · intro hT σ n huses k hk
    have hnamed : Named T σ k (stateAt System.step System.initial σ k) := by
      induction k with
      | zero => exact .initial T σ
      | succ k ih =>
        rw [stateAt_succ]
        exact (ih (by omega)).step (huses k (by omega))
    exact hnamed.routed hT

/-- The second event of a service is delivered to the subscriber of the first. -/
theorem event_mixed_up :
    (stateAt System.step System.initial
      (mixUp ⟨0x1001,1,1⟩ ⟨0x1001,1,2⟩ () [7]) 4).invoked (.receive 0 0x100100000001 0) =
        some ⟨(),⟨0x1001,1,1⟩,[7]⟩ ∧
    ¬ Routed (mixUp ⟨0x1001,1,1⟩ ⟨0x1001,1,2⟩ () [7]) 4 := by
  have hinvoked := mixUp_invoked ⟨0x1001,1,1⟩ ⟨0x1001,1,2⟩ rfl () [7]
  refine ⟨hinvoked,fun h => ?_⟩
  obtain ⟨j,_,b,outcome,hcall⟩ := h _ hinvoked
  exact absurd (mixUp_sent hcall) (by decide)

end LapCom.Iceoryx2
