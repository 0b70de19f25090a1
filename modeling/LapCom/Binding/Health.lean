import LapCom.Binding.Configuration
import LapCom.Dds.Entities

set_option autoImplicit false

namespace LapCom.Binding

structure HealthMetrics where
  messagesSent : BitVec 64
  messagesReceived : BitVec 64
  messagesDropped : BitVec 64
  serializationErrors : BitVec 32
  timeoutErrors : BitVec 32
  deriving DecidableEq

structure BindingHealth where
  isHealthy : Bool
  errorCount : BitVec 32
  consecutiveErrors : BitVec 32
  availabilityPercent : ℚ
  lastErrorTimestamp : BitVec 64
  lastErrorMessage : String
  deriving DecidableEq

def BindingHealth.maxConsecutiveErrors : BitVec 32 := 10

def BindingHealth.minAvailabilityPercent : ℚ := 95

namespace HealthMetrics

def totalMessages (m : HealthMetrics) : BitVec 64 := m.messagesSent+m.messagesReceived

def successfulMessages (m : HealthMetrics) : BitVec 64 := m.totalMessages-m.messagesDropped

def availabilityPercent (m : HealthMetrics) : ℚ :=
  if 0 < m.totalMessages.toNat then m.successfulMessages.toNat/m.totalMessages.toNat*100 else 100

def errorCount (m : HealthMetrics) : BitVec 32 := m.serializationErrors+m.timeoutErrors

def consecutiveErrors (m : HealthMetrics) : BitVec 32 :=
  if 0 < m.timeoutErrors then (if 10 < m.errorCount then 10 else m.errorCount) else 0

def isHealthy (m : HealthMetrics) : Bool :=
  m.consecutiveErrors < BindingHealth.maxConsecutiveErrors &&
    BindingHealth.minAvailabilityPercent ≤ m.availabilityPercent

def health (m : HealthMetrics) : BindingHealth where
  isHealthy := m.isHealthy
  errorCount := m.errorCount
  consecutiveErrors := m.consecutiveErrors
  availabilityPercent := m.availabilityPercent
  lastErrorTimestamp := 0
  lastErrorMessage := if m.isHealthy then "OK" else "Degraded performance"

end HealthMetrics

/-- What the health of a binding should make of the numbers of its messages. -/
structure SoundHealth (written dropped received : Nat) (m : HealthMetrics)
    (health : BindingHealth) : Prop where
  total : m.totalMessages.toNat = written+received
  successful : 0 < written+received → m.successfulMessages.toNat+dropped = written+received
  availability : 0 ≤ health.availabilityPercent ∧ health.availabilityPercent ≤ 100
  unhealthy : 5*(written+dropped+received) < 100*dropped → health.isHealthy = false

section Arithmetic
variable {m : HealthMetrics} {written dropped received : Nat}

theorem HealthMetrics.totalMessages_toNat (hsent : m.messagesSent.toNat = written)
    (hreceived : m.messagesReceived.toNat = received) (hsmall : written+received < 2^33) :
    m.totalMessages.toNat = written+received := by
  rw [totalMessages,BitVec.toNat_add,hsent,hreceived]
  omega

theorem HealthMetrics.successfulMessages_toNat (htotal : m.totalMessages.toNat = written+received)
    (hdropped : m.messagesDropped.toNat = dropped) (hle : dropped ≤ written+received) :
    m.successfulMessages.toNat+dropped = written+received := by
  have hsmall := m.totalMessages.isLt
  rw [successfulMessages,BitVec.toNat_sub,htotal,hdropped]
  omega

theorem HealthMetrics.isHealthy_iff (htimeout : m.timeoutErrors = 0) :
    m.isHealthy = true ↔ 95 ≤ m.availabilityPercent := by
  have hfew : m.consecutiveErrors < BindingHealth.maxConsecutiveErrors := by
    simp [consecutiveErrors,htimeout,BindingHealth.maxConsecutiveErrors]
  rw [isHealthy,decide_eq_true hfew,Bool.true_and,decide_eq_true_iff]
  rfl

theorem sound_of_le (hsent : m.messagesSent.toNat = written)
    (hdropped : m.messagesDropped.toNat = dropped)
    (hreceived : m.messagesReceived.toNat = received) (hsmall : written+received < 2^33)
    (htimeout : m.timeoutErrors = 0) (hle : dropped ≤ written+received) :
    SoundHealth written dropped received m m.health := by
  have htotal := m.totalMessages_toNat hsent hreceived hsmall
  have hsuccessful := m.successfulMessages_toNat htotal hdropped hle
  rcases Nat.eq_zero_or_pos (written+received) with hzero | hpos
  · have havailable : m.availabilityPercent = 100 := by
      rw [HealthMetrics.availabilityPercent,if_neg (by omega)]
    refine ⟨htotal,by omega,?_,by omega⟩
    rw [HealthMetrics.health,havailable]
    norm_num
  · have havailable : m.availabilityPercent =
        ((written+received : Nat)-(dropped : ℚ))/(written+received : Nat)*100 := by
      have hcast : (m.successfulMessages.toNat : ℚ) = (written+received : Nat)-(dropped : ℚ) := by
        rw [← hsuccessful]
        push_cast
        ring
      rw [HealthMetrics.availabilityPercent,if_pos (by omega),hcast,htotal]
    have htotalQ : (0 : ℚ) < (written+received : Nat) := by exact_mod_cast hpos
    have hleQ : (dropped : ℚ) ≤ (written+received : Nat) := by exact_mod_cast hle
    refine ⟨htotal,fun _ => hsuccessful,⟨?_,?_⟩,fun hmany => ?_⟩
    · rw [HealthMetrics.health,havailable]
      have hnonneg : (0 : ℚ) ≤ (written+received : Nat)-dropped := by linarith
      positivity
    · rw [HealthMetrics.health,havailable]
      have hfraction : ((written+received : Nat)-(dropped : ℚ))/(written+received : Nat) ≤ 1 := by
        rw [div_le_one htotalQ]
        linarith [Nat.cast_nonneg (α := ℚ) dropped]
      linarith
    · show m.isHealthy = false
      rw [← Bool.not_eq_true,m.isHealthy_iff htimeout,havailable,not_le]
      have hmanyQ : 5*((written+received : Nat)+(dropped : ℚ)) < 100*dropped := by
        push_cast
        exact_mod_cast (by omega : 5*(written+received+dropped) < 100*dropped)
      rw [div_mul_eq_mul_div,div_lt_iff₀ htotalQ]
      linarith [Nat.cast_nonneg (α := ℚ) dropped]

theorem le_of_sound (htimeout : m.timeoutErrors = 0)
    (h : SoundHealth written dropped received m m.health) : dropped ≤ written+received := by
  rcases Nat.eq_zero_or_pos (written+received) with hzero | hpos
  · have htotal := h.total
    have hhealthy : m.isHealthy = true := by
      rw [m.isHealthy_iff htimeout,HealthMetrics.availabilityPercent,if_neg (by omega)]
      norm_num
    by_contra hdropped
    have hunhealthy := h.unhealthy (by omega)
    rw [HealthMetrics.health,hhealthy] at hunhealthy
    cases hunhealthy
  · have hsuccessful := h.successful hpos
    omega

end Arithmetic

end LapCom.Binding

namespace LapCom.Dds
open LapCom.Binding LapCom.Machine

/-- The binding never writes the error counters. -/
def DdsBinding.getMetrics {C : Type} (b : DdsBinding C) : HealthMetrics :=
  ⟨b.metrics.messagesSent,b.metrics.messagesReceived,b.metrics.messagesDropped,0,0⟩

/-- A call of the binding, or a listener of it takes a sample of `size` bytes. -/
inductive Traffic (C : Type) where
  | call (a : Call C)
  | sample (size : Nat)

inductive Fate where
  | written
  | dropped
  | received
  deriving DecidableEq

section Traffic
variable {C : Type}

/-- A `SendEvent` that gets no writer attempts nothing. -/
def Fate.ofSend : Result Unit → Option Sample → Option Fate
  | .ok (), some _ => some .written
  | .error _, some _ => some .dropped
  | _, none => none

namespace Traffic

def step : Option (DdsBinding C) → Traffic C → Option (DdsBinding C)
  | b, .call a => Dds.step b a
  | b, .sample size => b.map fun b => { b with metrics := b.metrics.received size }

def fate (b : DdsBinding C) : Traffic C → Option Fate
  | .call (.sendEvent t data outcome) =>
    match b.sendEvent t data outcome with
    | .ok (result,_,written) => Fate.ofSend result written
    | .error _ => none
  | .call _ => none
  | .sample _ => some .received

end Traffic

abbrev trafficAt (σ : Nat → Traffic C) (k : Nat) : Option (DdsBinding C) :=
  stateAt Traffic.step (some .new) σ k

def messages (σ : Nat → Traffic C) (fate : Fate) (k : Nat) : Nat :=
  Nat.count (fun j => (trafficAt σ j).bind (Traffic.fate · (σ j)) = some fate) k

def TransportMetrics.count (m : TransportMetrics) : Fate → BitVec 64
  | .written => m.messagesSent
  | .dropped => m.messagesDropped
  | .received => m.messagesReceived

theorem findOrCreateWriter_metrics {b b' : DdsBinding C} {t : Triple}
    {created : EndpointOutcome} {writer : Option DataWriter}
    (h : b.findOrCreateWriter t created = .ok (writer,b')) : b'.metrics = b.metrics := by
  rcases b.findOrCreateWriter_cases t created with
    ⟨⟨p,heq⟩,-⟩ | ⟨_,-,heq⟩ | ⟨b₁,hb₁,heq⟩ | ⟨topic,-,heq⟩
  · rw [heq] at h
    cases h
  · rw [heq] at h
    cases h
    rfl
  · rw [heq] at h
    cases h
    rcases hb₁ with rfl | rfl
    · rfl
    · rfl
  · rw [heq] at h
    cases h
    rfl

theorem sendEvent_count {b b' : DdsBinding C} {t : Triple} {data : List Byte}
    {outcome : SendOutcome} {result : Result Unit} {sample : Option Sample}
    (h : b.sendEvent t data outcome = .ok (result,b',sample)) (f : Fate) :
    b'.metrics.count f =
      b.metrics.count f+if Fate.ofSend result sample = some f then 1 else 0 := by
  rw [DdsBinding.sendEvent] at h
  cases hwriter : b.findOrCreateWriter t outcome.created with
  | error p =>
    rw [hwriter] at h
    cases h
  | ok found =>
    obtain ⟨writer,b₁⟩ := found
    have hmetrics := findOrCreateWriter_metrics hwriter
    rw [hwriter] at h
    cases writer with
    | none =>
      cases h
      simp [Fate.ofSend,fail,hmetrics]
    | some writer =>
      cases hwrite : outcome.write with
      | true =>
        simp only [hwrite] at h
        cases h
        cases f <;> simp [Fate.ofSend,TransportMetrics.count,TransportMetrics.sent,hmetrics]
      | false =>
        simp only [hwrite] at h
        cases h
        cases f <;>
          simp [Fate.ofSend,fail,TransportMetrics.count,TransportMetrics.dropped,hmetrics]

theorem exec_metrics {b : DdsBinding C} {a : Call C} {done : Done C}
    (h : a.exec b = .ok done) (hsend : ∀ t data outcome, a ≠ .sendEvent t data outcome) :
    done.binding.metrics = b.metrics := by
  cases a with
  | sendEvent t data outcome => exact absurd rfl (hsend t data outcome)
  | initializeBinding outcome =>
    simp only [Call.exec,DdsBinding.initializeBinding] at h
    split_ifs at h
    all_goals
      cases h
      rfl
  | shutdown =>
    simp only [Call.exec,DdsBinding.shutdown] at h
    split_ifs at h
    all_goals cases h
    · rfl
    · rfl
  | offerService serviceId instanceId => cases h; rfl
  | stopOfferService serviceId instanceId => cases h; rfl
  | findService serviceId => cases h; rfl
  | subscribeEvent t callback created =>
    rcases b.subscribeEvent_cases t callback created with
      ⟨⟨p,heq⟩,-⟩ | ⟨-,heq⟩ | ⟨b₁,hb₁,heq⟩ | ⟨topic,-,-,heq⟩
    · simp only [Call.exec,heq] at h
      cases h
    · simp only [Call.exec,heq] at h
      cases h
      rfl
    · simp only [Call.exec,heq] at h
      cases h
      rcases hb₁ with rfl | rfl
      · rfl
      · rfl
    · simp only [Call.exec,heq] at h
      cases h
      rfl
  | unsubscribeEvent t =>
    simp only [Call.exec,DdsBinding.unsubscribeEvent] at h
    split_ifs at h
    all_goals cases h
    · rfl
    · rfl
  | onPublisherDiscovery info => cases h; rfl

theorem Traffic.step_count {b b' : DdsBinding C} {e : Traffic C}
    (h : Traffic.step (some b) e = some b') (f : Fate) :
    b'.metrics.count f = b.metrics.count f+if e.fate b = some f then 1 else 0 := by
  cases e with
  | sample size =>
    cases h
    cases f <;> simp [Traffic.fate,TransportMetrics.count,TransportMetrics.received]
  | call a =>
    simp only [Traffic.step,Dds.step] at h
    cases hexec : a.exec b with
    | error p => simp [hexec] at h
    | ok done =>
      simp only [hexec,Option.some.injEq] at h
      subst h
      by_cases hsend : ∃ t data outcome, a = .sendEvent t data outcome
      · obtain ⟨t,data,outcome,rfl⟩ := hsend
        simp only [Call.exec] at hexec
        cases hdone : b.sendEvent t data outcome with
        | error p => simp [hdone,Except.map] at hexec
        | ok r =>
          obtain ⟨result,b₁,sample⟩ := r
          rw [hdone] at hexec
          cases hexec
          simp only [Traffic.fate,hdone]
          exact sendEvent_count hdone f
      · have hnone : (Traffic.call a).fate b = none := by
          cases a <;> first | rfl | exact absurd ⟨_,_,_,rfl⟩ hsend
        rw [exec_metrics hexec fun t data outcome ha => hsend ⟨t,data,outcome,ha⟩,hnone]
        simp

/-- The counters are the numbers of messages, modulo 2 ^ 64. -/
theorem trafficAt_count {σ : Nat → Traffic C} {k : Nat} {b : DdsBinding C}
    (h : trafficAt σ k = some b) (f : Fate) :
    b.metrics.count f = BitVec.ofNat 64 (messages σ f k) := by
  induction k generalizing b with
  | zero =>
    cases h
    cases f <;> rfl
  | succ k ih =>
    rw [trafficAt,stateAt_succ] at h
    cases hb : trafficAt σ k with
    | none =>
      rw [trafficAt] at hb
      rw [hb] at h
      cases hσ : σ k with
      | call a => simp [hσ,Traffic.step,Dds.step] at h
      | sample size => simp [hσ,Traffic.step] at h
    | some b₁ =>
      rw [trafficAt] at hb
      rw [hb] at h
      have hcount : messages σ f (k+1) =
          messages σ f k+if (σ k).fate b₁ = some f then 1 else 0 := by
        rw [messages,Nat.count_succ,trafficAt,hb]
        rfl
      rw [Traffic.step_count h f,ih hb,hcount,BitVec.ofNat_add]
      split_ifs
      · rfl
      · rfl

end Traffic

/-- The manager reports the health of the binding under `name`, and it is sound. -/
def ReportsHealth {C : Type} (m : Manager) (answers : Answers HealthMetrics BindingHealth)
    (name : String) (σ : Nat → Traffic C) (k : Nat) (b : DdsBinding C) : Prop :=
  ∃ health, (m.getBindingHealth { answers with health := HealthMetrics.health } name).1 =
      some health ∧
    SoundHealth (messages σ .written k) (messages σ .dropped k) (messages σ .received k)
      b.getMetrics health

theorem reportsHealth_iff {C : Type} {σ : Nat → Traffic C} {k : Nat} {b : DdsBinding C}
    (hb : trafficAt σ k = some b) (hsmall : ∀ fate, messages σ fate k < 2^32) {m : Manager}
    {answers : Answers HealthMetrics BindingHealth} {name : String} {o : Obj}
    (hname : m.bindingsByName.lookup name = some o) (ho : answers.metrics o = b.getMetrics) :
    ReportsHealth m answers name σ k b ↔
      messages σ .dropped k ≤ messages σ .written k+messages σ .received k := by
  have hcount : ∀ fate, (b.metrics.count fate).toNat = messages σ fate k := by
    intro fate
    have := hsmall fate
    rw [trafficAt_count hb,BitVec.toNat_ofNat]
    omega
  have hhealth : (m.getBindingHealth { answers with health := HealthMetrics.health } name).1 =
      some b.getMetrics.health := by
    rw [Manager.getBindingHealth,Manager.askNamed,hname,Option.map_some,Manager.locked,ho]
  have hwritten := hsmall .written
  have hreceived := hsmall .received
  constructor
  · rintro ⟨health,hreport,hsound⟩
    rw [hhealth] at hreport
    cases hreport
    exact le_of_sound rfl hsound
  · intro hle
    exact ⟨_,hhealth,sound_of_le (hcount .written) (hcount .dropped) (hcount .received)
      (by omega) rfl hle⟩

def oneSend (write : Bool) : Nat → Traffic Unit :=
  schedule [.call (.initializeBinding ⟨true,true,true⟩)]
    (.call (.sendEvent ⟨4660,1,1⟩ [] ⟨⟨true,true⟩,write,0,0⟩))

def onlyDds : Manager := { Manager.empty with bindingsByName := AList.singleton "dds" 0 }

def answering (metrics : HealthMetrics) : Answers HealthMetrics BindingHealth :=
  ⟨fun _ _ => true,fun _ => metrics,HealthMetrics.health,fun _ => false,fun _ => 80⟩

theorem reportsHealth_iff_oneSend : ∃ b, trafficAt (oneSend true) 2 = some b ∧
    ReportsHealth onlyDds (answering b.getMetrics) "dds" (oneSend true) 2 b := by
  have hsmall : ∀ fate, messages (oneSend true) fate 2 < 2^32 := by
    intro fate
    cases fate <;> decide +kernel
  exact ⟨_,rfl,(reportsHealth_iff rfl hsmall (o := 0) rfl rfl).mpr (by decide +kernel)⟩

theorem oneSend_failed : ∃ b, trafficAt (oneSend false) 2 = some b ∧
    (∀ fate, messages (oneSend false) fate 2 < 2^32) ∧
    onlyDds.bindingsByName.lookup "dds" = some 0 ∧
    ¬ ReportsHealth onlyDds (answering b.getMetrics) "dds" (oneSend false) 2 b := by
  refine ⟨_,rfl,?_,rfl,?_⟩
  · intro fate
    cases fate <;> decide +kernel
  · rintro ⟨health,hreport,hsound⟩
    cases hreport
    have hdropped : messages (oneSend false) .dropped 2 = 1 := by decide +kernel
    have hwritten : messages (oneSend false) .written 2 = 0 := by decide +kernel
    have hreceived : messages (oneSend false) .received 2 = 0 := by decide +kernel
    rw [hdropped,hwritten,hreceived] at hsound
    exact absurd (le_of_sound rfl hsound) (by omega)

end LapCom.Dds
