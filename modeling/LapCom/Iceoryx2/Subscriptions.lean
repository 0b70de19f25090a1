import LapCom.Iceoryx2.Routing

set_option autoImplicit false

namespace LapCom.Iceoryx2
open LapCom.Machine

section Run
variable {C : Type}

def Iceoryx2Binding.step (b : Iceoryx2Binding C) (a : Call C) : Iceoryx2Binding C :=
  (a.exec b).2.1

abbrev bindingAt (σ : Nat → Call C) (k : Nat) : Iceoryx2Binding C :=
  stateAt Iceoryx2Binding.step .new σ k

def Subscribed (σ : Nat → Call C) (i : Nat) (t : Topic) (callback : C) : Prop :=
  ∃ outcome, σ i = .subscribeEvent t callback outcome ∧
    ((σ i).exec (bindingAt σ i)).1 = .ok ()

/-- No call after the `i`-th and before the `j`-th ends a subscription to `t`. -/
def Uncancelled (σ : Nat → Call C) (t : Topic) (i j : Nat) : Prop :=
  ∀ k, i < k → k < j → σ k ≠ .unsubscribeEvent t ∧ σ k ≠ .shutdown

/-- After `j` calls every subscription that has not ended has its entry. -/
def Kept (σ : Nat → Call C) (j : Nat) : Prop :=
  ∀ i, i < j → ∀ t callback, Subscribed σ i t callback → Uncancelled σ t i j →
    ∃ key w, (bindingAt σ j).subscribers.lookup key = some w ∧ w.topic = t ∧
      w.callback = callback

/-- The entry that a call finds under its key, if there is one, is its own. -/
def Own (b : Iceoryx2Binding C) : Call C → Prop
  | .subscribeEvent t callback _ =>
    ∀ w, b.subscribers.lookup t.key = some w → w.topic = t ∧ w.callback = callback
  | .unsubscribeEvent t => ∀ w, b.subscribers.lookup t.key = some w → w.topic = t
  | _ => True

structure Tracked (σ : Nat → Call C) (k : Nat) : Prop where
  empty : (bindingAt σ k).initialized = false → (bindingAt σ k).subscribers = ∅
  entries : ∀ key w, (bindingAt σ k).subscribers.lookup key = some w → w.topic.key = key ∧
    ∃ i, i < k ∧ Subscribed σ i w.topic w.callback ∧ Uncancelled σ w.topic i k

theorem Uncancelled.succ {σ : Nat → Call C} {t : Topic} {i j : Nat} (h : Uncancelled σ t i j)
    (hne : σ j ≠ .unsubscribeEvent t ∧ σ j ≠ .shutdown) : Uncancelled σ t i (j+1) := by
  intro k hik hkj
  obtain hkj | rfl := Nat.lt_or_eq_of_le (Nat.lt_succ_iff.mp hkj)
  · exact h k hik hkj
  · exact hne

theorem Uncancelled.start (σ : Nat → Call C) (t : Topic) (i : Nat) : Uncancelled σ t i (i+1) := by
  intro k hik hki
  omega

namespace Iceoryx2Binding

theorem shutdown_empty {b : Iceoryx2Binding C} (h : b.initialized = false → b.subscribers = ∅) :
    b.shutdown.2.subscribers = ∅ := by
  unfold shutdown
  split_ifs with hinit
  · rfl
  · exact h (Bool.eq_false_iff.mpr hinit)

theorem step_empty {b : Iceoryx2Binding C} (h : b.initialized = false → b.subscribers = ∅)
    (a : Call C) (hinit : (b.step a).initialized = false) : (b.step a).subscribers = ∅ := by
  cases a with
  | initializeBinding outcome =>
    simp only [step,Call.exec,initializeBinding] at hinit ⊢
    split_ifs at hinit ⊢
    · exact h hinit
    · exact h hinit
  | shutdown => exact shutdown_empty h
  | offerService s i outcome =>
    simp only [step,Call.exec,offerService_initialized,offerService_subscribers] at hinit ⊢
    exact h hinit
  | stopOfferService s i => exact h hinit
  | sendEvent t data outcome =>
    simp only [step,Call.exec,sendEvent_initialized,sendEvent_subscribers] at hinit ⊢
    exact h hinit
  | subscribeEvent t callback outcome =>
    simp only [step,Call.exec,subscribeEvent_initialized] at hinit ⊢
    rw [subscribeEvent,if_pos hinit]
    exact h hinit
  | unsubscribeEvent t =>
    have hsubscribers : b.subscribers = ∅ := h hinit
    simp only [step,Call.exec,unsubscribeEvent,hsubscribers]
    rfl

theorem step_keeps {b : Iceoryx2Binding C} {a : Call C} {key : BitVec 64}
    {w : SubscriberWrapper C} (h : b.subscribers.lookup key = some w) (hshut : a ≠ .shutdown)
    (hunsub : ∀ t, a = .unsubscribeEvent t → t.key ≠ key) :
    (b.step a).subscribers.lookup key = some w := by
  cases a with
  | shutdown => exact absurd rfl hshut
  | subscribeEvent t callback outcome =>
    simp only [step,Call.exec,subscribeEvent]
    split_ifs with hinit hmem
    iterate 5 exact h
    have hne : key ≠ makeServiceKey t.serviceId t.instanceId := by
      rintro rfl
      exact hmem (AList.lookup_isSome.mp (by rw [h]; rfl))
    rwa [AList.lookup_insert_ne hne]
  | unsubscribeEvent t =>
    have hne : key ≠ t.key := (hunsub t rfl).symm
    exact (AList.lookup_erase_ne hne).trans h
  | initializeBinding outcome => simpa [step,Call.exec] using h
  | offerService s i outcome => simpa [step,Call.exec] using h
  | stopOfferService s i => exact h
  | sendEvent t data outcome => simpa [step,Call.exec] using h

theorem subscribeEvent_present {b : Iceoryx2Binding C} {t : Topic} {callback : C}
    {outcome : PortOutcome}
    (h : ((Call.subscribeEvent t callback outcome).exec b).1 = .ok ()) :
    ∃ w, (b.step (.subscribeEvent t callback outcome)).subscribers.lookup t.key = some w ∧
      (b.subscribers.lookup t.key = some w ∨ (w.topic = t ∧ w.callback = callback)) := by
  simp only [step,Call.exec,subscribeEvent] at h ⊢
  split_ifs at h ⊢ with hinit hmem
  · cases h
  · obtain ⟨w,hw⟩ := Option.isSome_iff_exists.mp (AList.lookup_isSome.mpr hmem)
    exact ⟨w,hw,.inl hw⟩
  · cases h
  · cases h
  · cases h
  · exact ⟨_,AList.lookup_insert _,.inr ⟨rfl,rfl⟩⟩

theorem subscribeEvent_again {b : Iceoryx2Binding C} {t : Topic} {w : SubscriberWrapper C}
    (hempty : b.initialized = false → b.subscribers = ∅)
    (h : b.subscribers.lookup t.key = some w) (callback : C) (outcome : PortOutcome) :
    ((Call.subscribeEvent t callback outcome).exec b).1 = .ok () := by
  have hmem : makeServiceKey t.serviceId t.instanceId ∈ b.subscribers :=
    AList.lookup_isSome.mp (Option.isSome_of_eq_some h)
  have hinit : ¬ b.initialized = false := by
    intro hinit
    rw [hempty hinit] at h
    cases h
  simp only [Call.exec,subscribeEvent,if_neg hinit,if_pos hmem]

end Iceoryx2Binding

theorem Tracked.start (σ : Nat → Call C) : Tracked σ 0 := by
  refine ⟨fun _ => rfl,?_⟩
  intro key w hw
  cases hw

theorem Tracked.succ {σ : Nat → Call C} {k : Nat} (h : Tracked σ k) : Tracked σ (k+1) := by
  refine ⟨Iceoryx2Binding.step_empty h.empty (σ k),?_⟩
  -- an entry that was there stays the work of the call that made it
  have hold : ∀ key w, (bindingAt σ k).subscribers.lookup key = some w →
      (σ k ≠ .unsubscribeEvent w.topic ∧ σ k ≠ .shutdown) → w.topic.key = key ∧
        ∃ i, i < k+1 ∧ Subscribed σ i w.topic w.callback ∧ Uncancelled σ w.topic i (k+1) := by
    intro key w hw hne
    obtain ⟨hkey,i,hi,hsub,hunc⟩ := h.entries key w hw
    exact ⟨hkey,i,by omega,hsub,hunc.succ hne⟩
  intro key w hw
  rw [bindingAt,stateAt_succ,Iceoryx2Binding.step] at hw
  cases he : σ k with
  | subscribeEvent t callback outcome =>
    rw [he] at hw hold
    obtain hw | ⟨hok,hkey,rfl⟩ := Iceoryx2Binding.subscribeEvent_lookup hw
    · exact hold key w hw ⟨by simp,by simp⟩
    · refine ⟨hkey.symm,k,by omega,⟨outcome,he,?_⟩,.start σ _ k⟩
      rw [he]
      exact hok
  | unsubscribeEvent t =>
    rw [he] at hw hold
    refine hold key w (Container.Dictionary.lookup_of_erase hw) ⟨?_,by simp⟩
    intro ht
    have hkey : t.key = key := by
      have htw : t = w.topic := Call.unsubscribeEvent.inj ht
      rw [htw]
      exact (h.entries key w (Container.Dictionary.lookup_of_erase hw)).1
    subst hkey
    exact absurd hw (by simp [Call.exec,Iceoryx2Binding.unsubscribeEvent,Topic.key])
  | shutdown =>
    rw [he] at hw
    rw [Call.exec,Iceoryx2Binding.shutdown_empty h.empty] at hw
    cases hw
  | initializeBinding outcome =>
    rw [he] at hw hold
    exact hold key w (by simpa [Call.exec] using hw) ⟨by simp,by simp⟩
  | offerService s i outcome =>
    rw [he] at hw hold
    exact hold key w (by simpa [Call.exec] using hw) ⟨by simp,by simp⟩
  | stopOfferService s i =>
    rw [he] at hw hold
    exact hold key w hw ⟨by simp,by simp⟩
  | sendEvent t data outcome =>
    rw [he] at hw hold
    exact hold key w (by simpa [Call.exec] using hw) ⟨by simp,by simp⟩

theorem Tracked.all (σ : Nat → Call C) (k : Nat) : Tracked σ k := by
  induction k with
  | zero => exact .start σ
  | succ k ih => exact ih.succ

theorem Kept.succ {σ : Nat → Call C} {k : Nat} (h : Kept σ k)
    (hown : Own (bindingAt σ k) (σ k)) : Kept σ (k+1) := by
  intro i hi t callback hsub hunc
  rw [bindingAt,stateAt_succ]
  obtain hi | rfl := Nat.lt_or_eq_of_le (Nat.lt_succ_iff.mp hi)
  · obtain ⟨key,w,hw,rfl,hcallback⟩ :=
      h i hi t callback hsub (fun j hij hjk => hunc j hij (by omega))
    obtain ⟨hunsub,hshut⟩ := hunc k hi (by omega)
    refine ⟨key,w,Iceoryx2Binding.step_keeps hw hshut ?_,rfl,hcallback⟩
    rintro t he rfl
    rw [he] at hown hunsub
    exact hunsub (by rw [hown w hw])
  · obtain ⟨outcome,he,hok⟩ := hsub
    rw [he] at hok hown ⊢
    obtain ⟨w,hw,hold | ⟨htopic,hcallback⟩⟩ := Iceoryx2Binding.subscribeEvent_present hok
    · exact ⟨t.key,w,hw,hown w hold⟩
    · exact ⟨t.key,w,hw,htopic,hcallback⟩

theorem Kept.own {σ : Nat → Call C} {k : Nat} (h : Kept σ (k+1)) :
    Own (bindingAt σ k) (σ k) := by
  have htracked : Tracked σ k := .all σ k
  cases he : σ k with
  | subscribeEvent t callback outcome =>
    intro w hw
    have hsub : Subscribed σ k t callback := by
      refine ⟨outcome,he,?_⟩
      rw [he]
      exact Iceoryx2Binding.subscribeEvent_again htracked.empty hw callback outcome
    obtain ⟨key,w',hw',htopic,hcallback⟩ := h k (by omega) t callback hsub (.start σ t k)
    have hkey : t.key = key := by
      rw [← htopic]
      exact (htracked.succ.entries key w' hw').1
    have hstill : (bindingAt σ (k+1)).subscribers.lookup t.key = some w := by
      rw [bindingAt,stateAt_succ,he]
      exact Iceoryx2Binding.step_keeps hw (by simp) (by simp)
    rw [hkey,hw'] at hstill
    obtain rfl := Option.some.inj hstill
    exact ⟨htopic,hcallback⟩
  | unsubscribeEvent t =>
    intro w hw
    by_contra hne
    obtain ⟨hkey,i,hi,hsub,hunc⟩ := htracked.entries t.key w hw
    have hunc' : Uncancelled σ w.topic i (k+1) := by
      refine hunc.succ ⟨?_,?_⟩
      · rw [he]
        intro hsame
        exact hne (Call.unsubscribeEvent.inj hsame).symm
      · simp [he]
    obtain ⟨key,w',hw',htopic,-⟩ := h i (by omega) w.topic w.callback hsub hunc'
    have hkey' : t.key = key := by
      rw [← hkey,← htopic]
      exact (htracked.succ.entries key w' hw').1
    subst hkey'
    rw [bindingAt,stateAt_succ,he] at hw'
    simp [Iceoryx2Binding.step,Call.exec,Iceoryx2Binding.unsubscribeEvent,Topic.key] at hw'
  | initializeBinding outcome => trivial
  | shutdown => trivial
  | offerService s i outcome => trivial
  | stopOfferService s i => trivial
  | sendEvent t data outcome => trivial

end Run

/-- Every subscription has its entry until it is ended, in exactly the runs in which no call
comes upon the entry of another one under its key. -/
theorem subscriptions_kept_iff {C : Type} (σ : Nat → Call C) (n : Nat) :
    (∀ j, j ≤ n → Kept σ j) ↔ ∀ k, k < n → Own (bindingAt σ k) (σ k) := by
  have hstart : Kept σ 0 := by
    intro i hi
    omega
  have hsplit : (∀ j, j ≤ n → Kept σ j) ↔ ∀ k, k < n → Kept σ (k+1) := by
    constructor
    · intro h k hk
      exact h (k+1) hk
    · intro h j hj
      cases j with
      | zero => exact hstart
      | succ k => exact h k hj
  rw [hsplit]
  refine forall_iff_of_invariant (I := Kept σ) hstart ?_ ?_
  · intro k hkept hown
    exact hkept.succ hown
  · intro k hkept
    exact ⟨Kept.own,hkept.succ⟩

def shared : Nat → Call Nat :=
  schedule [.initializeBinding ⟨true,true,true⟩,.offerService 0x1001 1 ⟨true,true,true⟩,
    .subscribeEvent ⟨0x1001,1,1⟩ 1 ⟨true,true,true⟩,
    .subscribeEvent ⟨0x1001,1,2⟩ 2 ⟨true,true,true⟩] (.unsubscribeEvent ⟨0x1001,1,2⟩)

/-- The second subscription succeeds without an entry, and its end takes the first one along. -/
theorem subscriptions_lost : ¬ Kept shared 4 ∧ ¬ Kept shared 5 := by
  have hthird : (bindingAt shared 3).subscribers.lookup (Topic.key ⟨0x1001,1,2⟩) =
      some ⟨0x1001,1,1,1,makeServiceName 0x1001 1⟩ := rfl
  have hfourth : (bindingAt shared 4).subscribers.lookup (Topic.key ⟨0x1001,1,2⟩) =
      some ⟨0x1001,1,1,1,makeServiceName 0x1001 1⟩ := rfl
  constructor
  · intro h
    have hown : Own (bindingAt shared 3) (shared 3) := h.own
    exact absurd (hown _ hthird).1 (by decide)
  · intro h
    have hown : Own (bindingAt shared 4) (shared 4) := h.own
    exact absurd (hown _ hfourth) (by decide)

end LapCom.Iceoryx2
