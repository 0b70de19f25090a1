import LapCom.Iceoryx2.Subscriptions

set_option autoImplicit false

namespace LapCom.Iceoryx2
open LapCom.Container LapCom.Machine

def Low (s i : BitVec 64) : Prop := s.toNat < 4294967296 ∧ i.toNat < 4294967296

theorem makeServiceKey_toNat {s i : BitVec 64} (h : Low s i) :
    (makeServiceKey s i).toNat = s.toNat*4294967296+i.toNat := by
  have hi : i &&& 0xFFFFFFFF = i := by
    apply BitVec.eq_of_toNat_eq
    rw [BitVec.toNat_and]
    exact (Nat.and_two_pow_sub_one_eq_mod i.toNat 32).trans (Nat.mod_eq_of_lt h.2)
  have hs : (s <<< 32).toNat = s.toNat <<< 32 := by
    rw [BitVec.toNat_shiftLeft]
    apply Nat.mod_eq_of_lt
    rw [Nat.shiftLeft_eq]
    have := h.1
    omega
  rw [makeServiceKey,hi,BitVec.toNat_or,hs,← Nat.shiftLeft_add_eq_or_of_lt h.2,Nat.shiftLeft_eq]

/-- No two services with low ids share a key. -/
theorem makeServiceKey_injective {s i s' i' : BitVec 64} (h : Low s i) (h' : Low s' i')
    (hkey : makeServiceKey s i = makeServiceKey s' i') : s = s' ∧ i = i' := by
  have hnat := congrArg BitVec.toNat hkey
  rw [makeServiceKey_toNat h,makeServiceKey_toNat h'] at hnat
  obtain ⟨hs,hi⟩ := h
  obtain ⟨hs',hi'⟩ := h'
  exact ⟨BitVec.eq_of_toNat_eq (by omega),BitVec.eq_of_toNat_eq (by omega)⟩

def Call.UsesLow {C : Type} : Call C → Prop
  | .offerService s i _ => Low s i
  | .stopOfferService s i => Low s i
  | _ => True

section Table
variable {C : Type}

/-- Before the `k`-th call `OfferService` has succeeded for the instance, and neither
`StopOfferService` for it nor `Shutdown` has followed. -/
def Offered (σ : Nat → Call C) (k : Nat) (s i : BitVec 64) : Prop :=
  ∃ j, j < k ∧ (∃ outcome, σ j = .offerService s i outcome) ∧
    ((σ j).exec (bindingAt σ j)).1 = .ok () ∧
    ∀ l, j < l → l < k → σ l ≠ .stopOfferService s i ∧ σ l ≠ .shutdown

def Iceoryx2Binding.Listed (b : Iceoryx2Binding C) (s i : BitVec 64) : Prop :=
  ∃ key w, b.publishers.lookup key = some w ∧ w.serviceId = s ∧ w.instanceId = i

/-- The publishers stand under the keys of their own low ids, and only in an initialized
binding. -/
structure Filed (b : Iceoryx2Binding C) : Prop where
  filed : ∀ key w, b.publishers.lookup key = some w →
    key = makeServiceKey w.serviceId w.instanceId ∧ Low w.serviceId w.instanceId
  initialized : ∀ key w, b.publishers.lookup key = some w → b.initialized = true

namespace Filed
variable {b : Iceoryx2Binding C}

theorem eq_of_key (h : Filed b) {s i : BitVec 64} (hlow : Low s i) {w : PublisherWrapper}
    (hlookup : b.publishers.lookup (makeServiceKey s i) = some w) :
    w.serviceId = s ∧ w.instanceId = i := by
  obtain ⟨hkey,hw⟩ := h.filed _ _ hlookup
  obtain ⟨hs,hi⟩ := makeServiceKey_injective hlow hw hkey
  exact ⟨hs.symm,hi.symm⟩

theorem listed_iff (h : Filed b) {s i : BitVec 64} (hlow : Low s i) :
    b.Listed s i ↔ makeServiceKey s i ∈ b.publishers := by
  constructor
  · rintro ⟨key,w,hlookup,rfl,rfl⟩
    rw [← (h.filed _ _ hlookup).1]
    exact Dictionary.mem_of_lookup hlookup
  · intro hmem
    obtain ⟨w,hw⟩ := Option.isSome_iff_exists.mp (AList.lookup_isSome.mpr hmem)
    obtain ⟨hs,hi⟩ := h.eq_of_key hlow hw
    exact ⟨_,w,hw,hs,hi⟩

end Filed

inductive TableChange (b b' : Iceoryx2Binding C) (result : Result Unit) : Call C → Prop
  | offer {s i : BitVec 64} {outcome : PortOutcome} (hnew : makeServiceKey s i ∉ b.publishers)
      (hok : result = .ok ())
      (htable : b'.publishers =
        b.publishers.insert (makeServiceKey s i) ⟨s,i,makeServiceName s i⟩)
      (hkept : b'.initialized = true) : TableChange b b' result (.offerService s i outcome)
  | stop {s i : BitVec 64} (htable : b'.publishers = b.publishers.erase (makeServiceKey s i))
      (hkept : b'.initialized = b.initialized) : TableChange b b' result (.stopOfferService s i)
  | shutdown (htable : b.initialized = true → b'.publishers = ∅)
      (hidle : b.initialized = false → b' = b) : TableChange b b' result .shutdown
  | same {a : Call C} (htable : b'.publishers = b.publishers)
      (hkept : b.initialized = true → b'.initialized = true)
      (hoffer : ∀ s i outcome, a = .offerService s i outcome → result = .ok () →
        makeServiceKey s i ∈ b.publishers)
      (hstop : ∀ s i, a ≠ .stopOfferService s i) (hshutdown : a ≠ .shutdown) :
      TableChange b b' result a

theorem Iceoryx2Binding.offerService_failed {b : Iceoryx2Binding C} {s i : BitVec 64}
    {outcome : PortOutcome} (h : (b.offerService s i outcome).1 ≠ .ok ()) :
    (b.offerService s i outcome).2 = b := by
  unfold offerService at h ⊢
  dsimp only at h ⊢
  split_ifs at h ⊢
  iterate 5 rfl
  exact absurd rfl h

theorem Iceoryx2Binding.offerService_change (b : Iceoryx2Binding C) (s i : BitVec 64)
    (outcome : PortOutcome) :
    TableChange b (b.offerService s i outcome).2 (b.offerService s i outcome).1
      (.offerService s i outcome) := by
  by_cases hok : (b.offerService s i outcome).1 = .ok ()
  · unfold offerService at hok ⊢
    dsimp only at hok ⊢
    split_ifs at hok ⊢ with hinit hmem
    · cases hok
    · refine .same rfl id ?_ (by simp) (by simp)
      intro s' i' outcome' heq _
      cases heq
      exact hmem
    · cases hok
    · cases hok
    · cases hok
    · have hinit : b.initialized = true := by simpa using hinit
      exact .offer hmem rfl rfl hinit
  · have hsame := offerService_failed hok
    exact .same (by rw [hsame]) (by rw [hsame]; exact id) (fun _ _ _ _ h => absurd h hok) (by simp)
      (by simp)

theorem Call.exec_change (b : Iceoryx2Binding C) (a : Call C) :
    TableChange b (b.step a) (a.exec b).1 a := by
  cases a with
  | initializeBinding outcome =>
    refine .same (b.initializeBinding_publishers outcome) (fun h => ?_) (by simp) (by simp)
      (by simp)
    simp [Iceoryx2Binding.step,Call.exec,Iceoryx2Binding.initializeBinding,h]
  | shutdown =>
    refine .shutdown (fun h => ?_) fun h => ?_
    · simp [Iceoryx2Binding.step,Call.exec,Iceoryx2Binding.shutdown,h]
    · simp [Iceoryx2Binding.step,Call.exec,Iceoryx2Binding.shutdown,h]
  | offerService s i outcome => exact b.offerService_change s i outcome
  | stopOfferService s i => exact .stop rfl rfl
  | sendEvent t data outcome =>
    exact .same (b.sendEvent_publishers _ _ t.eventId _ _)
      (b.sendEvent_initialized _ _ t.eventId _ _).trans (by simp) (by simp) (by simp)
  | subscribeEvent t callback outcome =>
    exact .same (b.subscribeEvent_publishers ..) (b.subscribeEvent_initialized ..).trans (by simp)
      (by simp) (by simp)
  | unsubscribeEvent t => exact .same rfl id (by simp) (by simp) (by simp)

theorem Filed.new : Filed (Iceoryx2Binding.new : Iceoryx2Binding C) :=
  ⟨fun _ _ h => (nomatch h),fun _ _ h => (nomatch h)⟩

theorem Filed.step {b : Iceoryx2Binding C} (h : Filed b) {a : Call C} (ha : a.UsesLow) :
    Filed (b.step a) := by
  cases a.exec_change b with
  | offer hnew hok htable hkept =>
    refine ⟨fun key w hw => ?_,fun _ _ _ => hkept⟩
    rw [htable] at hw
    obtain hold | ⟨rfl,rfl⟩ := Dictionary.lookup_insert_cases hw
    · exact h.filed key w hold
    · exact ⟨rfl,ha⟩
  | stop htable hkept =>
    refine ⟨fun key w hw => ?_,fun key w hw => ?_⟩
    · rw [htable] at hw
      exact h.filed key w (Dictionary.lookup_of_erase hw)
    · rw [htable] at hw
      exact hkept.trans (h.initialized key w (Dictionary.lookup_of_erase hw))
  | shutdown htable hidle =>
    cases hinit : b.initialized with
    | true =>
      refine ⟨fun key w hw => ?_,fun key w hw => ?_⟩
      · rw [htable hinit] at hw
        cases hw
      · rw [htable hinit] at hw
        cases hw
    | false => rwa [hidle hinit]
  | same htable hkept _ _ _ =>
    refine ⟨fun key w hw => ?_,fun key w hw => ?_⟩
    · rw [htable] at hw
      exact h.filed key w hw
    · rw [htable] at hw
      exact hkept (h.initialized key w hw)

section Listed
variable {b b' : Iceoryx2Binding C} {s i s' i' : BitVec 64}

theorem Iceoryx2Binding.listed_of_eq (h : b'.publishers = b.publishers) :
    b'.Listed s i ↔ b.Listed s i := by
  rw [Listed,Listed,h]

theorem Iceoryx2Binding.not_listed_of_empty (h : b.publishers = ∅) : ¬ b.Listed s i := by
  rintro ⟨key,w,hw,-,-⟩
  rw [h] at hw
  cases hw

theorem Iceoryx2Binding.listed_insert (hnew : makeServiceKey s' i' ∉ b.publishers)
    (h : b'.publishers = b.publishers.insert (makeServiceKey s' i') ⟨s',i',makeServiceName s' i'⟩) :
    b'.Listed s i ↔ (s = s' ∧ i = i') ∨ b.Listed s i := by
  rw [Listed,h]
  constructor
  · rintro ⟨key,w,hw,rfl,rfl⟩
    obtain hold | ⟨-,rfl⟩ := Dictionary.lookup_insert_cases hw
    · exact .inr ⟨key,w,hold,rfl,rfl⟩
    · exact .inl ⟨rfl,rfl⟩
  · rintro (⟨rfl,rfl⟩ | ⟨key,w,hw,hs,hi⟩)
    · exact ⟨_,_,AList.lookup_insert _,rfl,rfl⟩
    · exact ⟨key,w,Dictionary.lookup_insert_of_absent hw hnew,hs,hi⟩

/-- The publisher under a key is the one of the ids that the key was made of. -/
theorem Filed.listed_erase (hb : Filed b) (hlow : Low s' i')
    (h : b'.publishers = b.publishers.erase (makeServiceKey s' i')) :
    b'.Listed s i ↔ b.Listed s i ∧ ¬ (s = s' ∧ i = i') := by
  rw [Iceoryx2Binding.Listed,h]
  constructor
  · rintro ⟨key,w,hw,rfl,rfl⟩
    have hold := Dictionary.lookup_of_erase hw
    refine ⟨⟨key,w,hold,rfl,rfl⟩,?_⟩
    rintro ⟨rfl,rfl⟩
    exact Dictionary.ne_of_erase hw (hb.filed key w hold).1
  · rintro ⟨⟨key,w,hw,rfl,rfl⟩,hne⟩
    refine ⟨key,w,?_,rfl,rfl⟩
    rw [AList.lookup_erase_ne]
    · exact hw
    · rintro rfl
      exact hne (hb.eq_of_key hlow hw)

end Listed

section Run
variable {σ : Nat → Call C} {k : Nat} {s i : BitVec 64}

def Offers (σ : Nat → Call C) (k : Nat) (s i : BitVec 64) : Prop :=
  (∃ outcome, σ k = .offerService s i outcome) ∧ ((σ k).exec (bindingAt σ k)).1 = .ok ()

theorem offered_succ : Offered σ (k+1) s i ↔ Offers σ k s i ∨
    (Offered σ k s i ∧ σ k ≠ .stopOfferService s i ∧ σ k ≠ .shutdown) := by
  constructor
  · rintro ⟨j,hj,hoffer,hok,hkept⟩
    rcases Nat.lt_or_eq_of_le (Nat.lt_succ_iff.mp hj) with hlt | rfl
    · exact .inr ⟨⟨j,hlt,hoffer,hok,fun l hjl hlk => hkept l hjl (by omega)⟩,
        hkept k hlt (Nat.lt_succ_self k)⟩
    · exact .inl ⟨hoffer,hok⟩
  · rintro (⟨hoffer,hok⟩ | ⟨⟨j,hj,hoffer,hok,hkept⟩,hk⟩)
    · exact ⟨k,Nat.lt_succ_self k,hoffer,hok,fun l hkl hlk => by omega⟩
    · refine ⟨j,by omega,hoffer,hok,fun l hjl hlk => ?_⟩
      rcases Nat.lt_or_eq_of_le (Nat.lt_succ_iff.mp hlk) with hlt | rfl
      · exact hkept l hjl hlt
      · exact hk

theorem filed_bindingAt (hσ : ∀ j, j < k → (σ j).UsesLow) : Filed (bindingAt σ k) :=
  stateAt_invariant (C := fun _ a => a.UsesLow) Filed.new hσ
    (fun _ _ h ha => h.step ha) k (Nat.le_refl k)

theorem listed_succ (hσ : ∀ j, j < k+1 → (σ j).UsesLow) :
    (bindingAt σ (k+1)).Listed s i ↔ Offers σ k s i ∨
      ((bindingAt σ k).Listed s i ∧ σ k ≠ .stopOfferService s i ∧ σ k ≠ .shutdown) := by
  have hfiled := filed_bindingAt (k := k) fun j hj => hσ j (by omega)
  have hlow := hσ k (Nat.lt_succ_self k)
  have hstep : bindingAt σ (k+1) = (bindingAt σ k).step (σ k) := rfl
  have hchange := (σ k).exec_change (bindingAt σ k)
  rw [hstep,Offers]
  generalize ha : σ k = a at hlow hchange ⊢
  cases hchange with
  | @offer s' i' outcome hnew hok htable hkept =>
    rw [Iceoryx2Binding.listed_insert hnew htable]
    constructor
    · rintro (⟨rfl,rfl⟩ | hold)
      · exact .inl ⟨⟨outcome,rfl⟩,hok⟩
      · exact .inr ⟨hold,by simp,by simp⟩
    · rintro (⟨⟨outcome',heq⟩,-⟩ | ⟨hold,-,-⟩)
      · cases heq
        exact .inl ⟨rfl,rfl⟩
      · exact .inr hold
  | @stop s' i' htable hkept =>
    rw [hfiled.listed_erase hlow htable]
    constructor
    · rintro ⟨hold,hne⟩
      refine .inr ⟨hold,?_,by simp⟩
      intro heq
      cases heq
      exact hne ⟨rfl,rfl⟩
    · rintro (⟨⟨outcome,heq⟩,-⟩ | ⟨hold,hne,-⟩)
      · cases heq
      · refine ⟨hold,?_⟩
        rintro ⟨rfl,rfl⟩
        exact hne rfl
  | shutdown htable hidle =>
    have hnone : ¬ ((bindingAt σ k).step .shutdown).Listed s i := by
      cases hinit : (bindingAt σ k).initialized with
      | true => exact Iceoryx2Binding.not_listed_of_empty (htable hinit)
      | false =>
        rw [hidle hinit]
        rintro ⟨key,w,hw,-,-⟩
        rw [hfiled.initialized key w hw] at hinit
        cases hinit
    constructor
    · exact fun h => absurd h hnone
    · rintro (⟨⟨outcome,heq⟩,-⟩ | ⟨-,-,hne⟩)
      · cases heq
      · exact absurd rfl hne
  | same htable hkept hoffer hstop hshutdown =>
    rw [Iceoryx2Binding.listed_of_eq htable]
    constructor
    · exact fun hold => .inr ⟨hold,hstop s i,hshutdown⟩
    · rintro (⟨⟨outcome,rfl⟩,hok⟩ | ⟨hold,-,-⟩)
      · exact (hfiled.listed_iff hlow).mpr (hoffer s i outcome rfl hok)
      · exact hold

theorem listed_iff_offered (hσ : ∀ j, j < k → (σ j).UsesLow) :
    (bindingAt σ k).Listed s i ↔ Offered σ k s i := by
  induction k with
  | zero =>
    constructor
    · rintro ⟨key,w,hw,-,-⟩
      cases hw
    · rintro ⟨j,hj,-⟩
      omega
  | succ k ih => rw [listed_succ hσ,offered_succ,ih fun j hj => hσ j (by omega)]

/-- `FindService` lists what is in the table, each instance once. -/
theorem Filed.findService {b : Iceoryx2Binding C} (h : Filed b) (s : BitVec 64) :
    ∃ instances, b.findService s = .ok instances ∧ instances.Nodup ∧
      ∀ i, i ∈ instances ↔ b.Listed s i := by
  refine ⟨_,rfl,?_,fun i => ?_⟩
  · have hentries : (b.publishers.entries.mergeSort fun a b => decide (a.1 ≤ b.1)).Nodup :=
      (List.mergeSort_perm _ _).nodup_iff.mpr b.publishers.nodupKeys.nodup
    apply List.Nodup.map_on _ (hentries.filter _)
    rintro ⟨key,w⟩ hw ⟨key',w'⟩ hw' heq
    obtain ⟨hmem,hservice⟩ := List.mem_filter.mp hw
    obtain ⟨hmem',hservice'⟩ := List.mem_filter.mp hw'
    have hlookup := AList.mem_lookup_iff.mpr (List.mem_mergeSort.mp hmem)
    have hlookup' := AList.mem_lookup_iff.mpr (List.mem_mergeSort.mp hmem')
    have hs : w.serviceId = w'.serviceId :=
      (of_decide_eq_true hservice).trans (of_decide_eq_true hservice').symm
    have hkey : key = key' := by
      rw [(h.filed key w hlookup).1,(h.filed key' w' hlookup').1,hs]
      exact congrArg _ heq
    subst hkey
    cases Option.mem_unique hlookup hlookup'
    rfl
  · rw [List.mem_map]
    constructor
    · rintro ⟨⟨key,w⟩,hw,rfl⟩
      obtain ⟨hmem,hservice⟩ := List.mem_filter.mp hw
      exact ⟨key,w,AList.mem_lookup_iff.mpr (List.mem_mergeSort.mp hmem),
        of_decide_eq_true hservice,rfl⟩
    · rintro ⟨key,w,hw,rfl,rfl⟩
      exact ⟨⟨key,w⟩,List.mem_filter.mpr ⟨List.mem_mergeSort.mpr (AList.mem_lookup_iff.mp hw),
        by simp⟩,rfl⟩

theorem findService_offered (hσ : ∀ j, j < k → (σ j).UsesLow) :
    (∀ s, ∃ instances, (bindingAt σ k).findService s = .ok instances ∧
      ∀ i, (Offered σ k s i → instances.count i = 1) ∧
        (¬ Offered σ k s i → instances.count i = 0)) ∧
    ∀ s i outcome, ((bindingAt σ k).offerService s i outcome).1 ≠ .ok () →
      ((bindingAt σ k).offerService s i outcome).2 = bindingAt σ k := by
  refine ⟨fun s => ?_,fun s i outcome => Iceoryx2Binding.offerService_failed⟩
  obtain ⟨instances,hfound,hnodup,hmem⟩ := (filed_bindingAt hσ).findService s
  refine ⟨instances,hfound,fun i => ?_⟩
  have hoffered : i ∈ instances ↔ Offered σ k s i := (hmem i).trans (listed_iff_offered hσ)
  exact ⟨fun h => List.count_eq_one_of_mem hnodup (hoffered.mpr h),
    fun h => List.count_eq_zero_of_not_mem fun hi => h (hoffered.mp hi)⟩

end Run

end Table

/-- An instance is offered between two calls of `Initialize`. -/
def initializedTwice : Nat → Call Unit :=
  schedule [.initializeBinding ⟨true,true,true⟩,.offerService 1 2 ⟨true,true,true⟩]
    (.initializeBinding ⟨true,true,true⟩)

theorem initializedTwice_low : ∀ j, j < 3 → (initializedTwice j).UsesLow := by
  intro j _
  apply schedule_forall
  · intro a ha
    simp only [List.mem_cons,List.not_mem_nil,or_false] at ha
    obtain rfl | rfl := ha
    · trivial
    · exact ⟨by decide,by decide⟩
  · trivial

theorem initializedTwice_found : (∀ j, j < 3 → (initializedTwice j).UsesLow) ∧
    ∃ instances, (bindingAt initializedTwice 3).findService 1 = .ok instances ∧
      instances.count 2 = 1 := by
  refine ⟨initializedTwice_low,?_⟩
  obtain ⟨instances,hfound,hcount⟩ := (findService_offered initializedTwice_low).1 1
  refine ⟨instances,hfound,(hcount 2).1 ⟨1,by decide,⟨_,rfl⟩,rfl,fun l hl hlt => ?_⟩⟩
  obtain rfl : l = 2 := by omega
  exact ⟨by simp [initializedTwice,schedule],by simp [initializedTwice,schedule]⟩

/-- As `Offered`, with the offer behind every call of `Initialize`. -/
def OfferedSinceInitialize (σ : Nat → Call Unit) (k : Nat) (s i : BitVec 64) : Prop :=
  ∃ j, j < k ∧ (∃ outcome, σ j = .offerService s i outcome) ∧
    ((σ j).exec (bindingAt σ j)).1 = .ok () ∧
    (∀ l, j < l → l < k → σ l ≠ .stopOfferService s i ∧ σ l ≠ .shutdown) ∧
    ∀ l outcome, l < k → σ l = .initializeBinding outcome → l < j

theorem initializedTwice_still_found : (∀ j, j < 3 → (initializedTwice j).UsesLow) ∧
    ∃ instances, (bindingAt initializedTwice 3).findService 1 = .ok instances ∧
      2 ∈ instances ∧ ¬ OfferedSinceInitialize initializedTwice 3 1 2 := by
  refine ⟨initializedTwice_low,?_⟩
  obtain ⟨instances,hfound,-,hmem⟩ := (filed_bindingAt initializedTwice_low).findService 1
  have hlisted : (bindingAt initializedTwice 3).Listed 1 2 :=
    ⟨makeServiceKey 1 2,⟨1,2,makeServiceName 1 2⟩,rfl,rfl,rfl⟩
  refine ⟨instances,hfound,(hmem 2).mpr hlisted,?_⟩
  rintro ⟨j,hj,-,-,-,hlast⟩
  have := hlast 2 _ (by omega) rfl
  omega

end LapCom.Iceoryx2
