import LapCom.Registry.Snapshot

set_option autoImplicit false

namespace LapCom.Registry
open LapCom.SeqLock LapCom.Machine

def registering (i : SlotIndex) : Pc Call SlotIndex SlotFields ServiceSlot → Bool
  | .storing (.registerService _ _) j _ => j = i
  | _ => false

def unregistering (i : SlotIndex) : Pc Call SlotIndex SlotFields ServiceSlot → Bool
  | .storing (.unregisterService _) j _ => j = i
  | _ => false

theorem registering_iff {i : SlotIndex} {pc : Pc Call SlotIndex SlotFields ServiceSlot} :
    registering i pc = true ↔ ∃ x r rest, pc = .storing (.registerService x r) i rest := by
  cases pc with
  | storing c j rest => cases c <;> simp [registering]
  | _ => simp [registering]

theorem unregistering_iff {i : SlotIndex} {pc : Pc Call SlotIndex SlotFields ServiceSlot} :
    unregistering i pc = true ↔ ∃ x rest, pc = .storing (.unregisterService x) i rest := by
  cases pc with
  | storing c j rest => cases c <;> simp [unregistering]
  | _ => simp [unregistering]

theorem onValid_write {slotIndex : BitVec 32}
    {body : SlotIndex → Program SlotIndex SlotFields ServiceSlot} {i : SlotIndex}
    {stores : List (SlotFields → SlotFields)}
    (h : onValid slotIndex body = .write i stores ∨
      ∃ free, onValid slotIndex body = .checkedWrite i free stores) :
    ∃ j, validSlot? slotIndex = some j ∧
      (body j = .write i stores ∨ ∃ free, body j = .checkedWrite i free stores) := by
  unfold onValid at h
  split at h
  · obtain h | ⟨free,h⟩ := h <;> cases h
  · rename_i j hj
    exact ⟨j,hj,h⟩

theorem writing_call {c : Call} {i : SlotIndex} {stores : List (SlotFields → SlotFields)}
    (h : c.program = .write i stores ∨ ∃ free, c.program = .checkedWrite i free stores) :
    (∃ x r, c = .registerService x r ∧ validSlot? x = some i ∧ stores = registerStores r) ∨
    (∃ x, c = .unregisterService x ∧ validSlot? x = some i ∧ stores = resetStores) ∨
    (∃ x t, c = .updateHeartbeat x t ∧ validSlot? x = some i) := by
  cases c with
  | registerService x r =>
    obtain ⟨j,hj,hw | ⟨free,hw⟩⟩ := onValid_write h
    · cases hw
    · cases hw
      exact .inl ⟨x,r,rfl,hj,rfl⟩
  | unregisterService x =>
    obtain ⟨j,hj,hw | ⟨free,hw⟩⟩ := onValid_write h
    · cases hw
      exact .inr (.inl ⟨x,rfl,hj,rfl⟩)
    · cases hw
  | updateHeartbeat x t =>
    obtain ⟨j,hj,hw | ⟨free,hw⟩⟩ := onValid_write h
    · cases hw
      exact .inr (.inr ⟨x,t,rfl,hj⟩)
    · cases hw
  | findService id =>
    obtain ⟨j,hj,hw | ⟨free,hw⟩⟩ := onValid_write h <;> cases hw
  | readSlot x =>
    obtain ⟨j,hj,hw | ⟨free,hw⟩⟩ := onValid_write h <;> cases hw

theorem store_metadata {r : Registration} {store : SlotFields → SlotFields}
    (h : store ∈ registerStores r ∨ store ∈ resetStores) (d : SlotFields)
    (hd : d.metadata = zeros 64) : (store d).metadata = zeros 64 := by
  obtain h | h := h
  · simp only [registerStores,List.mem_cons,List.not_mem_nil,or_false] at h
    rcases h with rfl | rfl | rfl | rfl | rfl | rfl | rfl | rfl | rfl | rfl | rfl | rfl <;> exact hd
  · simp only [resetStores,List.mem_cons,List.not_mem_nil,or_false] at h
    rcases h with rfl | rfl | rfl | rfl | rfl | rfl | rfl | rfl | rfl | rfl | rfl <;>
      first | exact hd | rfl

section Orderly

variable {P : Type}

def startsRegistering (i : SlotIndex) (m : SharedBank P) : CallEvent P → Bool
  | .call _ _ => false
  | .tick p => match m.pc p with
    | .entering (.registerService _ _) j _ => j = i
    | _ => false

def startsUnregistering (i : SlotIndex) (m : SharedBank P) : CallEvent P → Bool
  | .call _ _ => false
  | .tick p => match m.pc p with
    | .entering (.unregisterService _) j _ => j = i
    | _ => false

/-- A registration starts to write only where the slot is still free and no
section is in progress, an unregistration only where no registration writes. -/
structure Orderly (i : SlotIndex) (m : SharedBank P) (e : CallEvent P) : Prop where
  register : startsRegistering i m e = true → Quiet i m ∧ (m.slot i).fields.isActive = false
  unregister : startsUnregistering i m e = true → ∀ q, registering i (m.pc q) = false

instance [Fintype P] (i : SlotIndex) (m : SharedBank P) (e : CallEvent P) :
    Decidable (Orderly i m e) :=
  decidable_of_iff ((startsRegistering i m e = true →
      Quiet i m ∧ (m.slot i).fields.isActive = false) ∧
      (startsUnregistering i m e = true → ∀ q, registering i (m.pc q) = false))
    ⟨fun h => ⟨h.1,h.2⟩,fun h => ⟨h.1,h.2⟩⟩

structure Registrations (i : SlotIndex) (m : SharedBank P) : Prop where
  entering : ∀ p c stores, m.pc p = .entering c i stores →
    (∃ x r, c = .registerService x r ∧ stores = registerStores r) ∨
      ∃ x, c = .unregisterService x
  storing : ∀ p c rest, m.pc p = .storing c i rest →
    (∃ x r, c = .registerService x r ∧ ∃ done, registerStores r = done++rest) ∨
      ∃ x, c = .unregisterService x ∧ ∃ done, resetStores = done++rest

structure Ordered (i : SlotIndex) (m : SharedBank P) : Prop where
  alone : ∀ p q, registering i (m.pc p) = true → (m.pc q).inSection i = true → q = p
  progress : ∀ p x r rest, m.pc p = .storing (.registerService x r) i rest →
    ∃ done d, registerStores r = done++rest ∧ (m.slot i).fields = applyStores done d
  metadata : (m.slot i).fields.metadata = zeros 64

theorem inSection_of_registering {i : SlotIndex} {pc : Pc Call SlotIndex SlotFields ServiceSlot}
    (h : registering i pc = true) : pc.inSection i = true := by
  obtain ⟨x,r,rest,rfl⟩ := registering_iff.mp h
  simp [Pc.inSection]

/-- While the slot is taken no registration gets into its write section, until
an unregistration completes. -/
structure Taken (i : SlotIndex) (m : SharedBank P) : Prop where
  none_registering : ∀ q, registering i (m.pc q) = false
  cause : (∃ q, unregistering i (m.pc q) = true) ∨ (m.slot i).fields.isActive = true

def Holds (i : SlotIndex) (r : Registration) (m : SharedBank P) : Prop :=
  Quiet i m ∧ (m.slot i).fields = r.record (zeros 64)

theorem Holds.taken {i : SlotIndex} {r : Registration} {m : SharedBank P} (h : Holds i r m) :
    Taken i m := by
  refine ⟨fun q => ?_,.inr (by rw [h.2]; rfl)⟩
  cases hq : registering i (m.pc q) with
  | false => rfl
  | true => rw [← h.1 q,inSection_of_registering hq]

variable [DecidableEq P]

theorem Ordered.silent {i : SlotIndex} {m : SharedBank P} {e : CallEvent P} (h : Ordered i m)
    (hs : Silent Call.program i m e) : Ordered i (step Call.program m e) := by
  refine ⟨fun p q hp hq => ?_,fun p x r rest hp => ?_,by rw [hs.slot]; exact h.metadata⟩
  · obtain ⟨x,r,rest,hp⟩ := registering_iff.mp hp
    refine h.alone p q (registering_iff.mpr ⟨x,r,rest,hs.storing hp⟩) ?_
    rw [← hs.sections q,hq]
  · rw [hs.slot]
    exact h.progress p x r rest (hs.storing hp)

theorem Ordered.enter_register {i : SlotIndex} {m : SharedBank P} (h : Ordered i m)
    (hquiet : Quiet i m) (p : P) (x : BitVec 32) (r : Registration) :
    Ordered i ⟨Function.update m.slot i { m.slot i with sequence := (m.slot i).sequence+1 },
      Function.update m.pc p (.storing (.registerService x r) i (registerStores r))⟩ := by
  refine ⟨fun q q' hq hq' => ?_,fun q x' r' rest hq => ?_,by simpa using h.metadata⟩
  · have h₁ : q = p := by
      by_contra hne
      have := inSection_of_registering hq
      simp [hne,hquiet q] at this
    have h₂ : q' = p := by
      by_contra hne
      simp [hne,hquiet q'] at hq'
    rw [h₁,h₂]
  · by_cases hqp : q = p
    · subst q
      simp only [Function.update_self,Pc.storing.injEq,Call.registerService.injEq] at hq
      obtain ⟨⟨_,rfl⟩,_,rfl⟩ := hq
      exact ⟨[],(m.slot i).fields,rfl,by simp [applyStores]⟩
    · have := hquiet q
      simp [hqp] at hq
      simp [hq,Pc.inSection] at this

theorem Ordered.enter_unregister {i : SlotIndex} {m : SharedBank P} (h : Ordered i m)
    (hnone : ∀ q, registering i (m.pc q) = false) (p : P) (x : BitVec 32)
    (stores : List (SlotFields → SlotFields)) :
    Ordered i ⟨Function.update m.slot i { m.slot i with sequence := (m.slot i).sequence+1 },
      Function.update m.pc p (.storing (.unregisterService x) i stores)⟩ := by
  have hnone' : ∀ q, registering i ((Function.update m.pc p
      (.storing (.unregisterService x) i stores)) q) = false := by
    intro q
    by_cases hq : q = p
    · simp [hq,registering]
    · simp [hq,hnone q]
  refine ⟨fun q q' hq _ => ?_,fun q x' r' rest hq => ?_,by simpa using h.metadata⟩
  · rw [hnone' q] at hq; cases hq
  · have := hnone' q
    simp only at hq
    simp [hq,registering] at this

theorem Ordered.store {i : SlotIndex} {m : SharedBank P} (h : Ordered i m)
    (hcalls : Registrations i m) {p : P} {c : Call} {store : SlotFields → SlotFields}
    {stores : List (SlotFields → SlotFields)} (hp : m.pc p = .storing c i (store :: stores)) :
    Ordered i ⟨Function.update m.slot i { m.slot i with fields := store (m.slot i).fields },
      Function.update m.pc p (.storing c i stores)⟩ := by
  have hin : (m.pc p).inSection i = true := by simp [hp,Pc.inSection]
  have hkind := hcalls.storing p c _ hp
  refine ⟨fun q q' hq hq' => ?_,fun q x' r' rest hq => ?_,?_⟩
  · have hold : registering i (m.pc q) = true := by
      by_cases hqp : q = p
      · subst q
        obtain ⟨x,r,rfl,_⟩ | ⟨x,rfl,_⟩ := hkind
        · simp [hp,registering]
        · simp [registering] at hq
      · simpa [hqp] using hq
    refine h.alone q q' hold ?_
    by_cases hqp : q' = p
    · rw [hqp,hin]
    · simpa [hqp] using hq'
  · by_cases hqp : q = p
    · subst q
      simp only [Function.update_self,Pc.storing.injEq] at hq
      obtain ⟨rfl,_,rfl⟩ := hq
      obtain ⟨done,d,hdone,hfields⟩ := h.progress p x' r' _ hp
      refine ⟨done++[store],d,by simpa using hdone,?_⟩
      simp [applyStores,hfields]
    · simp only [Function.update_of_ne hqp] at hq
      have := h.alone q p (registering_iff.mpr ⟨x',r',rest,hq⟩) hin
      exact absurd this.symm hqp
  · simp only [Function.update_self]
    obtain ⟨x,r,_,done,hdone⟩ | ⟨x,_,done,hdone⟩ := hkind
    · exact store_metadata (r := r) (.inl (by rw [hdone]; simp)) _ h.metadata
    · exact store_metadata (r := plainRegistration 0 0) (.inr (by rw [hdone]; simp)) _ h.metadata

theorem Ordered.leave {i : SlotIndex} {m : SharedBank P} (h : Ordered i m) {p : P} {c : Call}
    (hp : m.pc p = .storing c i []) :
    Ordered i ⟨Function.update m.slot i { m.slot i with sequence := (m.slot i).sequence+1 },
      Function.update m.pc p (.returned c .done)⟩ := by
  have hin : (m.pc p).inSection i = true := by simp [hp,Pc.inSection]
  refine ⟨fun q q' hq hq' => ?_,fun q x' r' rest hq => ?_,by simpa using h.metadata⟩
  · have hqp : q ≠ p := by rintro rfl; simp [registering] at hq
    have hqp' : q' ≠ p := by rintro rfl; simp [Pc.inSection] at hq'
    simp only [Function.update_of_ne hqp] at hq
    simp only [Function.update_of_ne hqp'] at hq'
    exact h.alone q q' hq hq'
  · have hqp : q ≠ p := by rintro rfl; simp at hq
    simp only [Function.update_of_ne hqp] at hq
    have := h.alone q p (registering_iff.mpr ⟨x',r',rest,hq⟩) hin
    exact absurd this.symm hqp

theorem Ordered.step {i : SlotIndex} {m : SharedBank P} {e : CallEvent P} (h : Ordered i m)
    (hcalls : Registrations i m) (he : Orderly i m e) : Ordered i (step Call.program m e) := by
  obtain hs | ⟨p,c,stores,rfl,hp,hs⟩ | ⟨p,c,store,stores,rfl,hp,hs⟩ | ⟨p,c,rfl,hp,hs⟩ :=
    step_cases Call.program i m e
  · exact h.silent hs
  · rw [hs]
    obtain ⟨x,r,rfl,rfl⟩ | ⟨x,rfl⟩ := hcalls.entering p c stores hp
    · exact h.enter_register (he.register (by simp [startsRegistering,hp])).1 p x r
    · exact h.enter_unregister (he.unregister (by simp [startsUnregistering,hp])) p x stores
  · rw [hs]
    exact h.store hcalls hp
  · rw [hs]
    exact h.leave hp

theorem Taken.unregisters {i : SlotIndex} {m m' : SharedBank P} (h : Taken i m) {p : P}
    {x : BitVec 32} {rest : List (SlotFields → SlotFields)}
    (hpc : m'.pc = Function.update m.pc p (.storing (.unregisterService x) i rest)) :
    Taken i m' := by
  refine ⟨fun q => ?_,.inl ⟨p,by simp [hpc,unregistering]⟩⟩
  by_cases hq : q = p
  · simp [hpc,hq,registering]
  · simp [hpc,hq,h.none_registering q]

theorem Taken.step {i : SlotIndex} {m : SharedBank P} {e : CallEvent P} (h : Taken i m)
    (hcalls : Registrations i m) (he : Orderly i m e)
    (hkeep : ∀ p x, e = .tick p → m.pc p ≠ .storing (.unregisterService x) i []) :
    Taken i (step Call.program m e) := by
  obtain hs | ⟨p,c,stores,rfl,hp,hs⟩ | ⟨p,c,store,stores,rfl,hp,hs⟩ | ⟨p,c,rfl,hp,hs⟩ :=
    step_cases Call.program i m e
  · have hkind : ∀ q c rest, m.pc q = .storing c i rest →
        (SeqLock.step Call.program m e).pc q = .storing c i rest := by
      intro q c rest hq
      obtain hsame | ⟨_,hout⟩ := hs.pc q
      · rw [hsame,hq]
      · simp [hq,Pc.inSection] at hout
    refine ⟨fun q => ?_,?_⟩
    · cases hq : registering i ((SeqLock.step Call.program m e).pc q) with
      | false => rfl
      | true =>
        obtain ⟨x,r,rest,hq⟩ := registering_iff.mp hq
        rw [← h.none_registering q,registering_iff.mpr ⟨x,r,rest,hs.storing hq⟩]
    · obtain ⟨q,hq⟩ | hactive := h.cause
      · obtain ⟨x,rest,hq⟩ := unregistering_iff.mp hq
        exact .inl ⟨q,unregistering_iff.mpr ⟨x,rest,hkind q _ rest hq⟩⟩
      · exact .inr (by rw [hs.slot,hactive])
  · obtain ⟨x,r,rfl,rfl⟩ | ⟨x,rfl⟩ := hcalls.entering p c stores hp
    · obtain ⟨hquiet,hfree⟩ := he.register (by simp [startsRegistering,hp])
      obtain ⟨q,hq⟩ | hactive := h.cause
      · obtain ⟨x',rest,hq⟩ := unregistering_iff.mp hq
        have := hquiet q
        simp [hq,Pc.inSection] at this
      · rw [hactive] at hfree; cases hfree
    · exact h.unregisters (by rw [hs])
  · obtain ⟨x,r,rfl,_⟩ | ⟨x,rfl,_⟩ := hcalls.storing p c _ hp
    · have := h.none_registering p
      simp [hp,registering] at this
    · exact h.unregisters (by rw [hs])
  · obtain ⟨x,r,rfl,_⟩ | ⟨x,rfl,_⟩ := hcalls.storing p c _ hp
    · have := h.none_registering p
      simp [hp,registering] at this
    · exact absurd hp (hkeep p x rfl)

theorem Holds.step {i : SlotIndex} {r : Registration} {m : SharedBank P} {e : CallEvent P}
    (h : Holds i r m) (hcalls : Registrations i m) (he : Orderly i m e)
    (hkeep : ∀ q, unregistering i ((step Call.program m e).pc q) = false) :
    Holds i r (step Call.program m e) := by
  obtain hs | ⟨p,c,stores,rfl,hp,hs⟩ | ⟨p,c,store,stores,rfl,hp,hs⟩ | ⟨p,c,rfl,hp,hs⟩ :=
    step_cases Call.program i m e
  · exact ⟨fun q => by rw [hs.sections q,h.1 q],by rw [hs.slot,h.2]⟩
  · obtain ⟨x,r',rfl,rfl⟩ | ⟨x,rfl⟩ := hcalls.entering p c stores hp
    · have hfree := (he.register (by simp [startsRegistering,hp])).2
      rw [h.2,record_isActive] at hfree; cases hfree
    · have := hkeep p
      simp [hs,unregistering] at this
  · have := h.1 p; simp [hp,Pc.inSection] at this
  · have := h.1 p; simp [hp,Pc.inSection] at this

theorem Ordered.holds {i : SlotIndex} {m : SharedBank P} {p : P} {x : BitVec 32}
    {r : Registration} (h : Ordered i m) (hp : m.pc p = .storing (.registerService x r) i []) :
    Holds i r (SeqLock.step Call.program m (.tick p)) := by
  have hstep := step_tick_busy Call.program (m := m) (p := p) (i := i) (by rw [hp]; rfl)
  obtain ⟨done,d,hdone,hfields⟩ := h.progress p x r [] hp
  rw [List.append_nil] at hdone
  have hmeta := h.metadata
  rw [hfields,← hdone,applyStores_register] at hmeta
  rw [hstep,hp]
  refine ⟨fun q => ?_,?_⟩
  · by_cases hq : q = p
    · simp [hq,Pc.act,Pc.inSection]
    · cases hin : (m.pc q).inSection i with
      | false => simp [hq,hin]
      | true => exact absurd (h.alone p q (registering_iff.mpr ⟨x,r,[],hp⟩) hin) hq
  · have : d.metadata = zeros 64 := hmeta
    simp only [Pc.act,Function.update_self,hfields,← hdone,applyStores_register,this]

def Succeeds (i : SlotIndex) (σ : Nat → CallEvent P) (k : Nat) (r : Registration) : Prop :=
  ∃ p x, validSlot? x = some i ∧
    Returns Call.program (sharedAt σ k) (σ k) p (.registerService x r) .done

def Unregisters (i : SlotIndex) (σ : Nat → CallEvent P) (k : Nat) : Prop :=
  ∃ p x, validSlot? x = some i ∧
    Returns Call.program (sharedAt σ k) (σ k) p (.unregisterService x) .done

/-- No two registrations succeed without an unregistration completed between them. -/
def RegisteredOnce (i : SlotIndex) (σ : Nat → CallEvent P) (n : Nat) : Prop :=
  ∀ a b r r', a < b → b < n → Succeeds i σ a r → Succeeds i σ b r' →
    ∃ c, a < c ∧ c < b ∧ Unregisters i σ c

/-- The record of a registration stays while no unregistration runs. -/
def RecordKept (i : SlotIndex) (σ : Nat → CallEvent P) (n : Nat) : Prop :=
  ∀ a k r, a < k → k ≤ n → Succeeds i σ a r →
    (∀ j, a < j → j ≤ k → ∀ q, unregistering i ((sharedAt σ j).pc q) = false) →
      ((sharedAt σ k).slot i).fields = r.record (zeros 64)

def NoHeartbeat (i : SlotIndex) (σ : Nat → CallEvent P) (n : Nat) : Prop :=
  ∀ k, k < n → ∀ p c, σ k = .call p c → ∀ x t, c = .updateHeartbeat x t → validSlot? x ≠ some i

theorem sharedAt_follows (σ : Nat → CallEvent P) (k : Nat) (p : P) :
    ((sharedAt σ k).pc p).Follows Call.program :=
  follows_at (show ∀ q, ((SharedBank.fresh : SharedBank P).pc q).Follows Call.program
    from fun _ => trivial) σ k p

theorem registrations_at {i : SlotIndex} {σ : Nat → CallEvent P} {n : Nat}
    (hbeat : NoHeartbeat i σ n) {k : Nat} (hk : k ≤ n) : Registrations i (sharedAt σ k) := by
  have hcall : ∀ p c, ((sharedAt σ k).pc p).call? = some c →
      ∀ x t, c = .updateHeartbeat x t → validSlot? x ≠ some i :=
    calls_at (fun _ => rfl) hbeat k hk
  refine ⟨fun p c stores hp => ?_,fun p c rest hp => ?_⟩
  · have h := sharedAt_follows σ k p
    rw [hp] at h
    obtain ⟨x,r,hc,_,hst⟩ | ⟨x,hc,_,_⟩ | ⟨x,t,hc,hx⟩ := writing_call h
    · exact .inl ⟨x,r,hc,hst⟩
    · exact .inr ⟨x,hc⟩
    · exact absurd hx (hcall p c (by rw [hp]; rfl) x t hc)
  · have h := sharedAt_follows σ k p
    rw [hp] at h
    obtain ⟨done,h⟩ := h
    obtain ⟨x,r,hc,_,hst⟩ | ⟨x,hc,_,hst⟩ | ⟨x,t,hc,hx⟩ := writing_call h
    · exact .inl ⟨x,r,hc,done,hst.symm⟩
    · exact .inr ⟨x,hc,done,hst.symm⟩
    · exact absurd hx (hcall p c (by rw [hp]; rfl) x t hc)

theorem ordered_at {i : SlotIndex} {σ : Nat → CallEvent P} {n : Nat} (hbeat : NoHeartbeat i σ n)
    (horder : ∀ k, k < n → Orderly i (sharedAt σ k) (σ k)) :
    ∀ k, k ≤ n → Ordered i (sharedAt σ k) := by
  intro k
  induction k with
  | zero =>
    intro _
    refine ⟨fun p q hp => ?_,fun p x r rest hp => ?_,rfl⟩
    · cases hp
    · cases hp
  | succ k ih =>
    intro hk
    exact (ih (by omega)).step (registrations_at hbeat (by omega)) (horder k (by omega))

theorem completed_slot {σ : Nat → CallEvent P} {k : Nat} {p : P} {c : Call} {x : BitVec 32}
    {i : SlotIndex} (hx : validSlot? x = some i)
    (hc : (∃ r, c = .registerService x r) ∨ c = .unregisterService x)
    (hret : Returns Call.program (sharedAt σ k) (σ k) p c .done) :
    σ k = .tick p ∧ (sharedAt σ k).pc p = .storing c i [] := by
  obtain ⟨he,j,hj⟩ := storing_of_returns hret
  have h := sharedAt_follows σ k p
  rw [hj] at h
  obtain ⟨done,h⟩ := h
  have hij : i = j := by
    obtain ⟨x',r',h',hx',_⟩ | ⟨x',h',hx',_⟩ | ⟨x',t',h',_⟩ := writing_call h <;>
      obtain ⟨r,rfl⟩ | rfl := hc <;> cases h' <;> rw [hx] at hx' <;> exact Option.some.inj hx'
  exact ⟨he,hij ▸ hj⟩

theorem registeredOnce_of_orderly {i : SlotIndex} {σ : Nat → CallEvent P} {n : Nat}
    (hbeat : NoHeartbeat i σ n) (horder : ∀ k, k < n → Orderly i (sharedAt σ k) (σ k)) :
    RegisteredOnce i σ n := by
  rintro a b r r' hab hbn ⟨p,x,hx,ha⟩ ⟨q,y,hy,hb⟩
  obtain ⟨hea,hpa⟩ := completed_slot hx (.inl ⟨r,rfl⟩) ha
  obtain ⟨_,hqb⟩ := completed_slot hy (.inl ⟨r',rfl⟩) hb
  by_contra hnone
  have hfirst : Taken i (sharedAt σ (a+1)) := by
    have := ((ordered_at hbeat horder a (by omega)).holds hpa).taken
    rwa [← hea] at this
  have htaken : Taken i (sharedAt σ b) := by
    refine between_invariant (a := a+1) (b := b) (I := fun k => Taken i (sharedAt σ k)) hfirst ?_
      b (by omega) (Nat.le_refl b)
    intro k hak hkb hk
    refine hk.step (registrations_at hbeat (by omega)) (horder k (by omega)) ?_
    intro p' x' he hp'
    have hs := step_pc_self Call.program (m := sharedAt σ k) (p := p') (i := i) (by rw [hp']; rfl)
    have hx' : validSlot? x' = some i := by
      have h := sharedAt_follows σ k p'
      rw [hp'] at h
      obtain ⟨done,h⟩ := h
      obtain ⟨_,_,h',_,_⟩ | ⟨_,h',h,_⟩ | ⟨_,_,h',_⟩ := writing_call h <;> cases h'
      exact h
    refine hnone ⟨k,by omega,hkb,p',x',hx',?_,?_⟩
    · rw [hp']; simp [Pc.slot?]
    · rw [he,hs,hp']; rfl
  have := htaken.none_registering q
  simp [hqb,registering] at this

theorem recordKept_of_orderly {i : SlotIndex} {σ : Nat → CallEvent P} {n : Nat}
    (hbeat : NoHeartbeat i σ n) (horder : ∀ k, k < n → Orderly i (sharedAt σ k) (σ k)) :
    RecordKept i σ n := by
  rintro a k r hak hkn ⟨p,x,hx,ha⟩ hquiet
  obtain ⟨hea,hpa⟩ := completed_slot hx (.inl ⟨r,rfl⟩) ha
  have hfirst : Holds i r (sharedAt σ (a+1)) := by
    have := (ordered_at hbeat horder a (by omega)).holds hpa
    rwa [← hea] at this
  refine (between_invariant (a := a+1) (b := k) (I := fun j => Holds i r (sharedAt σ j)) hfirst ?_
    k (by omega) (Nat.le_refl k)).2
  intro j haj hjk hj
  exact hj.step (registrations_at hbeat (by omega)) (horder j (by omega))
    (hquiet (j+1) (by omega) (by omega))

/-- Registrations that start to write only on a free slot exclude one another. -/
theorem registration_exclusive_of_orderly (i : SlotIndex) (σ : Nat → CallEvent P) (n : Nat)
    (hbeat : NoHeartbeat i σ n) (horder : ∀ k, k < n → Orderly i (sharedAt σ k) (σ k)) :
    RegisteredOnce i σ n ∧ RecordKept i σ n :=
  ⟨registeredOnce_of_orderly hbeat horder,recordKept_of_orderly hbeat horder⟩

end Orderly

section Contended

def slotOne : SlotIndex := ⟨1,by decide⟩

def handover : Nat → CallEvent Bool :=
  schedule (.call true (.registerService 1 (plainRegistration 1 1)) ::
    List.replicate 15 (.tick true)++.call false (.unregisterService 1) ::
    List.replicate 13 (.tick false)++.call false (.registerService 1 (plainRegistration 1 2)) ::
    List.replicate 15 (.tick false)) (.tick false)

theorem registration_exclusive_of_handover :
    RegisteredOnce slotOne handover 46 ∧ RecordKept slotOne handover 46 := by
  refine registration_exclusive_of_orderly slotOne handover 46 ?_ (by decide +kernel)
  rintro k hk p c hc x t rfl
  interval_cases k <;> cases hc

def contended : Nat → CallEvent Bool :=
  schedule ([.call true (.registerService 1 (plainRegistration 1 1)),
    .call false (.registerService 1 (plainRegistration 1 2)),.tick true,.tick false]++
    List.replicate 14 (.tick true)++List.replicate 14 (.tick false)) (.tick false)

theorem two_registrations_succeed :
    NoHeartbeat slotOne contended 32 ∧ ¬ RegisteredOnce slotOne contended 32 := by
  have hcalls : ∀ k, k < 32 → ∀ p c, contended k = .call p c →
      ∃ x r, c = .registerService x r := by
    intro k hk p c hc
    interval_cases k <;> cases hc <;> exact ⟨_,_,rfl⟩
  refine ⟨fun k hk p c hc x t hbeat => ?_,fun hone => ?_⟩
  · obtain ⟨x',r,rfl⟩ := hcalls k hk p c hc
    cases hbeat
  · obtain ⟨c,_,hc,p,x,_,_,hret⟩ := hone 17 31 _ _ (by omega) (by omega)
      ⟨true,1,rfl,by decide +kernel,rfl⟩ ⟨false,1,rfl,by decide +kernel,rfl⟩
    obtain ⟨x',r,h⟩ := calls_at (fun _ => rfl) hcalls (c+1) (by omega) p _
      (congrArg Pc.call? hret)
    cases h

end Contended

end LapCom.Registry
