import LapCom.Registry.Routing

set_option autoImplicit false

namespace LapCom.Registry
open LapCom.SeqLock LapCom.Machine

def Documented (id : BitVec 64) : Prop :=
  (0x0001 ≤ id.toNat ∧ id.toNat ≤ 0x0417 ∧ id.toNat ≠ 0x0400) ∨
    (0xF001 ≤ id.toNat ∧ id.toNat ≤ 0xF3FE)

instance (id : BitVec 64) : Decidable (Documented id) := inferInstanceAs (Decidable (_ ∨ _))

def SameSlot (a b : BitVec 64) : Prop :=
  selectRegistry a = selectRegistry b ∧ calculateSlot a = calculateSlot b

instance (a b : BitVec 64) : Decidable (SameSlot a b) := inferInstanceAs (Decidable (_ ∧ _))

theorem slotOfId_inj {a b : BitVec 64} :
    slotOfId a = slotOfId b ↔ calculateSlot a = calculateSlot b := by
  rw [← BitVec.toNat_inj,toNat_calculateSlot,toNat_calculateSlot]
  exact ⟨congrArg Fin.val,fun h => Fin.ext h⟩

theorem Documented.slot_pos {id : BitVec 64} (h : Documented id) : id.toNat%1024 ≠ 0 := by
  unfold Documented at h; omega

theorem Documented.ne_zero {id : BitVec 64} (h : Documented id) : id ≠ 0 := by
  rintro rfl
  have := h.slot_pos
  simp at this

theorem Documented.select {id : BitVec 64} (h : Documented id) :
    selectRegistry id = .QM ∨ selectRegistry id = .ASIL := by
  rw [selectRegistry_eq]
  unfold Documented at h
  have h₁ : id.toNat%65536 ≠ 0xFFFF := by omega
  rw [if_neg h₁]
  split
  · exact .inr rfl
  · exact .inl rfl

structure Entry where
  instanceId : BitVec 64
  majorVersion : BitVec 32
  minorVersion : BitVec 32
  deriving DecidableEq, Repr

def SlotFields.entry (d : SlotFields) : Entry := ⟨d.instanceId,d.majorVersion,d.minorVersion⟩

def Registration.entry (r : Registration) : Entry := ⟨r.instanceId,r.majorVersion,r.minorVersion⟩

/-- The last successful registration of each id that no unregistration followed. -/
abbrev ServiceMap := BitVec 64 → Option Entry

def ServiceMap.after (map : ServiceMap) : Op → Reply → ServiceMap
  | .registerService r, .status (.ok _) => Function.update map r.serviceId (some r.entry)
  | .unregisterService id, _ => Function.update map id none
  | _, _ => map

/-- The registry next to the map that its answers define. -/
structure Observed where
  registry : SharedMemoryRegistry
  map : ServiceMap

def Observed.next (s : Observed) (op : Op) : Observed :=
  ⟨Registry.next s.registry op,s.map.after op (op.exec s.registry).1⟩

def observedAt (σ : Nat → Op) (k : Nat) : Observed :=
  stateAt Observed.next ⟨.initialized,fun _ => none⟩ σ k

def Answers (id : BitVec 64) (found : Option ServiceSlot) : Option Entry → Prop
  | none => found = none
  | some e => ∃ s, found = some s ∧ s.fields.serviceId = id ∧ s.fields.entry = e

/-- The operation behaves as it would on the map, and leaves the answers for
other ids alone. -/
structure MapStep (s : Observed) (op : Op) : Prop where
  registers : ∀ r, op = .registerService r →
    ((op.exec s.registry).1 = .status (.ok ()) ↔ s.map r.serviceId = none)
  finds : ∀ id, op = .findService id → Answers id (s.registry.findService id) (s.map id)
  others : ∀ id, Documented id → id ≠ op.serviceId →
    (Registry.next s.registry op).findService id = s.registry.findService id

/-- No other id that shares the slot of the operation is registered. -/
def NoCollision (s : Observed) : Op → Prop
  | .findService _ => True
  | op => ∀ id, Documented id → SameSlot id op.serviceId → id ≠ op.serviceId → s.map id = none

def Op.Ordinary : Op → Prop
  | .updateHeartbeat _ _ => False
  | op => Documented op.serviceId

section Banks

def slotFor (banks : RegistryType → Bank) (id : BitVec 64) : ServiceSlot :=
  banks (selectRegistry id) (slotOfId id)

def mappedOf (banks : RegistryType → Bank) : SharedMemoryRegistry :=
  mapped (banks .QM) (banks .ASIL)

def store (banks : RegistryType → Bank) (id : BitVec 64) (s : ServiceSlot) : RegistryType → Bank :=
  Function.update banks (selectRegistry id)
    (Function.update (banks (selectRegistry id)) (slotOfId id) s)

theorem slotFor_store (banks : RegistryType → Bank) (id id' : BitVec 64) (s : ServiceSlot) :
    slotFor (store banks id s) id' = if SameSlot id' id then s else slotFor banks id' := by
  unfold slotFor store
  simp only [SameSlot,← slotOfId_inj]
  by_cases hreg : selectRegistry id' = selectRegistry id
  · by_cases hslot : slotOfId id' = slotOfId id <;> simp [hreg,hslot]
  · simp [hreg]

theorem store_even {banks : RegistryType → Bank} (h : ∀ t i, writing (banks t i).sequence = false)
    (id : BitVec 64) {s : ServiceSlot} (hs : writing s.sequence = false) (t : RegistryType)
    (i : SlotIndex) : writing (store banks id s t i).sequence = false := by
  unfold store
  by_cases ht : t = selectRegistry id
  · subst ht
    by_cases hi : i = slotOfId id
    · simp [hi,hs]
    · simp [hi,h]
  · simp [ht,h]

theorem findService_documented (banks : RegistryType → Bank) {id : BitVec 64}
    (h : Documented id) : (mappedOf banks).findService id =
      SingleRegistry.filterFound (read (findFunc id) (slotFor banks id)) := by
  have hexec := exec_mapped (banks .QM) (banks .ASIL) (.findService id)
  simp only [Op.exec,Op.serviceId,h.slot_pos,if_false] at hexec
  obtain hreg | hreg := h.select
  all_goals
    rw [hreg] at hexec
    simp only [Prod.mk.injEq,Op.onBank,Reply.found.injEq] at hexec
    rw [mappedOf,hexec.1,slotFor,hreg]

theorem findService_even {banks : RegistryType → Bank} {id : BitVec 64} (h : Documented id)
    (heven : writing (slotFor banks id).sequence = false) : (mappedOf banks).findService id =
      if (slotFor banks id).fields.serviceId = id ∧ (slotFor banks id).fields.isActive = true then
        some (slotFor banks id) else none := by
  rw [findService_documented banks h,read_eq,heven]
  simp only [Bool.false_eq_true,if_false,eval_findFunc]
  by_cases hfound : (slotFor banks id).fields.serviceId = id ∧
      (slotFor banks id).fields.isActive = true
  · have hne := h.ne_zero
    rw [if_pos hfound,if_pos hfound,SingleRegistry.filterFound,hfound.1,if_neg hne]
  · rw [if_neg hfound,if_neg hfound]; rfl

theorem exec_documented (banks : RegistryType → Bank) {op : Op} (h : op.Ordinary) :
    op.exec (mappedOf banks) = match op with
      | .registerService r =>
          if (slotFor banks r.serviceId).fields.isActive then
            (.status (fail .kServiceNotOffered 0),mappedOf banks)
          else (.status (.ok ()),mappedOf (store banks r.serviceId
            (writeSection (registerStores r) (slotFor banks r.serviceId))))
      | .unregisterService id => (.status (.ok ()),
          mappedOf (store banks id (writeSection resetStores (slotFor banks id))))
      | op => (.found ((mappedOf banks).findService op.serviceId),mappedOf banks) := by
  have hdoc : Documented op.serviceId := by
    cases op <;> first | exact h | exact h.elim
  have hexec := exec_mapped (banks .QM) (banks .ASIL) op
  rw [if_neg hdoc.slot_pos] at hexec
  cases op with
  | updateHeartbeat id t => exact h.elim
  | findService id => rfl
  | registerService r =>
    obtain hreg | hreg := hdoc.select
    all_goals
      simp only [Op.serviceId] at hreg
      simp only [Op.serviceId,hreg,Op.onBank] at hexec
      rw [mappedOf,hexec]
      cases hactive : (slotFor banks r.serviceId).fields.isActive <;>
        simp [slotFor,hreg] at hactive <;>
        simp [hactive,slotFor,store,hreg,mappedOf]
  | unregisterService id =>
    obtain hreg | hreg := hdoc.select
    all_goals
      simp only [Op.serviceId] at hreg
      simp only [Op.serviceId,hreg,Op.onBank] at hexec
      rw [mappedOf,hexec]
      simp [slotFor,store,hreg,mappedOf]

/-- The banks hold the map: the active slots are the ones of registered ids. -/
structure Represents (s : Observed) (banks : RegistryType → Bank) : Prop where
  registry : s.registry = mappedOf banks
  even : ∀ t i, writing (banks t i).sequence = false
  owner : ∀ id, Documented id → (slotFor banks id).fields.isActive = true →
    Documented (slotFor banks id).fields.serviceId ∧
      SameSlot (slotFor banks id).fields.serviceId id
  entries : ∀ id, Documented id → s.map id =
    if (slotFor banks id).fields.serviceId = id ∧ (slotFor banks id).fields.isActive = true then
      some (slotFor banks id).fields.entry else none

theorem Represents.find {s : Observed} {banks : RegistryType → Bank} (h : Represents s banks)
    {id : BitVec 64} (hdoc : Documented id) : s.registry.findService id =
      if (slotFor banks id).fields.serviceId = id ∧ (slotFor banks id).fields.isActive = true then
        some (slotFor banks id) else none := by
  rw [h.registry,findService_even hdoc (h.even _ _)]

theorem slotFor_same {banks : RegistryType → Bank} {a b : BitVec 64} (h : SameSlot a b) :
    slotFor banks a = slotFor banks b := by
  rw [slotFor,slotFor,h.1,slotOfId_inj.mpr h.2]

theorem Represents.free_iff {s : Observed} {banks : RegistryType → Bank} (h : Represents s banks)
    {id : BitVec 64} (hdoc : Documented id) :
    (∀ id', Documented id' → SameSlot id' id → id' ≠ id → s.map id' = none) ↔
      ((slotFor banks id).fields.isActive = true → (slotFor banks id).fields.serviceId = id) := by
  constructor
  · intro hfree hactive
    obtain ⟨howner,hsame⟩ := h.owner id hdoc hactive
    by_contra hne
    have hnone := hfree _ howner hsame hne
    rw [h.entries _ howner,slotFor_same hsame,if_pos ⟨rfl,hactive⟩] at hnone
    cases hnone
  · intro hown id' hdoc' hsame hne
    rw [h.entries id' hdoc',slotFor_same hsame,if_neg]
    rintro ⟨hid,hactive⟩
    exact hne (hid.symm.trans (hown hactive))

theorem Represents.register {s : Observed} {banks : RegistryType → Bank} (h : Represents s banks)
    {r : Registration} (hdoc : Documented r.serviceId)
    (hfree : (slotFor banks r.serviceId).fields.isActive = false) :
    Represents (s.next (.registerService r)) (store banks r.serviceId
      (writeSection (registerStores r) (slotFor banks r.serviceId))) := by
  have hexec := exec_documented banks (show Op.Ordinary (.registerService r) from hdoc)
  simp only [hfree,Bool.false_eq_true,if_false] at hexec
  have hfields : (writeSection (registerStores r) (slotFor banks r.serviceId)).fields =
      r.record (slotFor banks r.serviceId).fields.metadata := applyStores_register _ _
  have heven := h.even (selectRegistry r.serviceId) (slotOfId r.serviceId)
  refine ⟨?_,store_even h.even _ ?_,fun id hid hactive => ?_,fun id hid => ?_⟩
  · rw [Observed.next,Registry.next,h.registry,hexec]
  · simpa [writeSection,writing_succ,slotFor] using heven
  · rw [slotFor_store] at hactive ⊢
    by_cases hsame : SameSlot id r.serviceId
    · rw [if_pos hsame,hfields]
      exact ⟨hdoc,hsame.1.symm,hsame.2.symm⟩
    · rw [if_neg hsame] at hactive ⊢
      exact h.owner id hid hactive
  · rw [slotFor_store]
    simp only [Observed.next,h.registry,hexec,ServiceMap.after]
    by_cases hsame : SameSlot id r.serviceId
    · rw [if_pos hsame,hfields]
      by_cases hne : id = r.serviceId
      · subst hne
        simp [Registration.record,SlotFields.isActive,SlotFields.entry,Registration.entry]
      · have hnone := (h.free_iff hdoc).mpr (by simp [hfree]) id hid hsame hne
        simp [hne,hnone,Registration.record,Ne.symm hne]
    · have hne : id ≠ r.serviceId := by rintro rfl; exact hsame ⟨rfl,rfl⟩
      rw [if_neg hsame,Function.update_of_ne hne,h.entries id hid]

theorem Represents.unregister {s : Observed} {banks : RegistryType → Bank}
    (h : Represents s banks) {id : BitVec 64} (hdoc : Documented id)
    (hown : (slotFor banks id).fields.isActive = true → (slotFor banks id).fields.serviceId = id) :
    Represents (s.next (.unregisterService id)) (store banks id
      (writeSection resetStores (slotFor banks id))) := by
  have hexec := exec_documented banks (show Op.Ordinary (.unregisterService id) from hdoc)
  have hfields : (writeSection resetStores (slotFor banks id)).fields = .empty :=
    applyStores_reset _
  have heven := h.even (selectRegistry id) (slotOfId id)
  refine ⟨?_,store_even h.even _ ?_,fun id' hid hactive => ?_,fun id' hid => ?_⟩
  · rw [Observed.next,Registry.next,h.registry,hexec]
  · simpa [writeSection,writing_succ,slotFor] using heven
  · rw [slotFor_store] at hactive ⊢
    by_cases hsame : SameSlot id' id
    · rw [if_pos hsame,hfields] at hactive; cases hactive
    · rw [if_neg hsame] at hactive ⊢
      exact h.owner id' hid hactive
  · rw [slotFor_store]
    simp only [Observed.next,ServiceMap.after]
    by_cases hsame : SameSlot id' id
    · rw [if_pos hsame,hfields]
      by_cases hne : id' = id
      · simp [hne]
      · simp [hne,(h.free_iff hdoc).mpr hown id' hid hsame hne]
    · have hne : id' ≠ id := by rintro rfl; exact hsame ⟨rfl,rfl⟩
      rw [if_neg hsame,Function.update_of_ne hne,h.entries id' hid]

theorem find_store {banks : RegistryType → Bank} (h : ∀ t i, writing (banks t i).sequence = false)
    (id : BitVec 64) {id' : BitVec 64} (hdoc : Documented id') {s : ServiceSlot}
    (hs : writing s.sequence = false) : (mappedOf (store banks id s)).findService id' =
      if SameSlot id' id then
        if s.fields.serviceId = id' ∧ s.fields.isActive = true then some s else none
      else (mappedOf banks).findService id' := by
  have heven : writing (slotFor (store banks id s) id').sequence = false := store_even h id hs _ _
  rw [findService_even hdoc heven,slotFor_store]
  by_cases hsame : SameSlot id' id
  · simp only [if_pos hsame]
  · simp only [if_neg hsame]
    rw [findService_even hdoc (h _ _)]

theorem Represents.mapStep_find {s : Observed} {banks : RegistryType → Bank}
    (h : Represents s banks) {id : BitVec 64} (hdoc : Documented id) :
    MapStep s (.findService id) := by
  refine ⟨fun r hr => (by cases hr),fun id' hid => ?_,fun _ _ _ => rfl⟩
  cases hid
  rw [h.find hdoc,h.entries id hdoc]
  by_cases hfound : (slotFor banks id).fields.serviceId = id ∧
      (slotFor banks id).fields.isActive = true
  · simp only [if_pos hfound]
    exact ⟨_,rfl,hfound.1,rfl⟩
  · simp only [if_neg hfound]
    rfl

theorem Represents.mapStep_register {s : Observed} {banks : RegistryType → Bank}
    (h : Represents s banks) {r : Registration} (hdoc : Documented r.serviceId) :
    MapStep s (.registerService r) ↔ ((slotFor banks r.serviceId).fields.isActive = true →
      (slotFor banks r.serviceId).fields.serviceId = r.serviceId) := by
  have hexec := exec_documented banks (show Op.Ordinary (.registerService r) from hdoc)
  have hentry := h.entries r.serviceId hdoc
  constructor
  · intro hstep hactive
    by_contra hne
    simp only [hactive,if_true] at hexec
    rw [if_neg (by simp [hne])] at hentry
    have hok := (hstep.registers r rfl).mpr hentry
    rw [h.registry,hexec] at hok
    simp [fail] at hok
  · intro hown
    cases hactive : (slotFor banks r.serviceId).fields.isActive with
    | true =>
      simp only [hactive,if_true] at hexec
      rw [if_pos ⟨hown hactive,hactive⟩] at hentry
      refine ⟨fun r' hr => ?_,fun id hid => by (cases hid),fun id hid _ => ?_⟩
      · cases hr
        rw [h.registry,hexec,hentry]
        simp [fail]
      · rw [Registry.next,h.registry,hexec]
    | false =>
      simp only [hactive,Bool.false_eq_true,if_false] at hexec
      rw [if_neg (by simp [hactive])] at hentry
      refine ⟨fun r' hr => ?_,fun id hid => by (cases hid),fun id hid hne => ?_⟩
      · cases hr
        rw [h.registry,hexec,hentry]
        simp
      · have heven := h.even (selectRegistry r.serviceId) (slotOfId r.serviceId)
        have hfields : (writeSection (registerStores r) (slotFor banks r.serviceId)).fields =
            r.record (slotFor banks r.serviceId).fields.metadata := applyStores_register _ _
        rw [Registry.next,h.registry,hexec,find_store h.even _ hid
          (by simpa [writeSection,writing_succ,slotFor] using heven)]
        by_cases hsame : SameSlot id r.serviceId
        · have hother : r.serviceId ≠ id := fun heq => hne heq.symm
          rw [if_pos hsame,hfields,findService_even hid (h.even _ _),slotFor_same hsame,hactive]
          simp [Registration.record,hother]
        · rw [if_neg hsame]

theorem Represents.mapStep_unregister {s : Observed} {banks : RegistryType → Bank}
    (h : Represents s banks) {id : BitVec 64} (hdoc : Documented id) :
    MapStep s (.unregisterService id) ↔ ((slotFor banks id).fields.isActive = true →
      (slotFor banks id).fields.serviceId = id) := by
  have hexec := exec_documented banks (show Op.Ordinary (.unregisterService id) from hdoc)
  have heven := h.even (selectRegistry id) (slotOfId id)
  have hafter : ∀ id', Documented id' →
      (Registry.next s.registry (.unregisterService id)).findService id' =
        if SameSlot id' id then none else s.registry.findService id' := by
    intro id' hid'
    have hfields : (writeSection resetStores (slotFor banks id)).fields = .empty :=
      applyStores_reset _
    rw [Registry.next,h.registry,hexec,find_store h.even _ hid'
      (by simpa [writeSection,writing_succ,slotFor] using heven),hfields]
    simp
  constructor
  · intro hstep hactive
    obtain ⟨howner,hsame⟩ := h.owner id hdoc hactive
    by_contra hne
    have hgone := hstep.others _ howner hne
    rw [hafter _ howner,if_pos hsame,h.find howner,slotFor_same hsame,
      if_pos ⟨rfl,hactive⟩] at hgone
    cases hgone
  · intro hown
    refine ⟨fun r hr => (by cases hr),fun id' hid => by (cases hid),fun id' hid hne => ?_⟩
    rw [hafter id' hid]
    by_cases hsame : SameSlot id' id
    · rw [if_pos hsame,h.find hid,slotFor_same hsame,if_neg]
      rintro ⟨hid',hactive⟩
      exact hne (hid'.symm.trans (hown hactive))
    · rw [if_neg hsame]

theorem Represents.mapStep_iff {s : Observed} {banks : RegistryType → Bank}
    (h : Represents s banks) {op : Op} (hop : op.Ordinary) : MapStep s op ↔ NoCollision s op := by
  cases op with
  | updateHeartbeat id t => exact hop.elim
  | findService id => exact ⟨fun _ => trivial,fun _ => h.mapStep_find hop⟩
  | registerService r => exact (h.mapStep_register hop).trans (h.free_iff hop).symm
  | unregisterService id => exact (h.mapStep_unregister hop).trans (h.free_iff hop).symm

theorem Represents.next {s : Observed} {banks : RegistryType → Bank} (h : Represents s banks)
    {op : Op} (hop : op.Ordinary) (hfree : NoCollision s op) :
    ∃ banks', Represents (s.next op) banks' := by
  cases op with
  | updateHeartbeat id t => exact hop.elim
  | findService id =>
    refine ⟨banks,?_⟩
    exact ⟨h.registry,h.even,h.owner,h.entries⟩
  | unregisterService id => exact ⟨_,h.unregister hop ((h.free_iff hop).mp hfree)⟩
  | registerService r =>
    cases hactive : (slotFor banks r.serviceId).fields.isActive with
    | false => exact ⟨_,h.register hop hactive⟩
    | true =>
      have hexec := exec_documented banks (show Op.Ordinary (.registerService r) from hop)
      simp only [hactive,if_true] at hexec
      refine ⟨banks,?_,h.even,h.owner,?_⟩
      · rw [Observed.next,Registry.next,h.registry,hexec]
      · intro id hid
        simp only [Observed.next,h.registry,hexec,ServiceMap.after,fail]
        exact h.entries id hid

end Banks

theorem represents_initial : Represents ⟨.initialized,fun _ => none⟩ (fun _ => Bank.fresh) := by
  refine ⟨rfl,fun _ _ => (by decide : writing 0 = false),fun id _ hactive => ?_,fun id _ => ?_⟩
  · cases hactive
  · exact (if_neg (by rintro ⟨_,hactive⟩; cases hactive)).symm

/-- The registry behaves as the map in just the runs without a collision. -/
theorem refinesMap_iff (σ : Nat → Op) (n : Nat) (hops : ∀ k, (σ k).Ordinary) :
    (∀ k, k < n → MapStep (observedAt σ k) (σ k)) ↔
      ∀ k, k < n → NoCollision (observedAt σ k) (σ k) := by
  refine forall_iff_of_invariant (I := fun k => ∃ banks, Represents (observedAt σ k) banks)
    ⟨_,represents_initial⟩ ?_ ?_
  · rintro k ⟨banks,hk⟩ hfree
    exact hk.next (hops k) hfree
  · rintro k ⟨banks,hk⟩
    exact hk.mapStep_iff (hops k)

section Colliding

def colliding : Nat → Op :=
  schedule [.registerService (plainRegistration 0x0001 1),
    .registerService (plainRegistration 0x0401 1)] (.findService 0x0001)

theorem colliding_ordinary (k : Nat) : (colliding k).Ordinary := by
  have h₁ : Documented 0x0001 := by decide
  have h₂ : Documented 0x0401 := by decide
  have hlast : Op.Ordinary (.findService 0x0001) := h₁
  refine schedule_forall (fun op hop => ?_) hlast k
  simp only [List.mem_cons,List.not_mem_nil,or_false] at hop
  rcases hop with rfl | rfl
  · exact h₁
  · exact h₂

theorem refinesMap_iff_colliding : (∀ k, k < 2 → MapStep (observedAt colliding k) (colliding k)) ↔
    ∀ k, k < 2 → NoCollision (observedAt colliding k) (colliding k) :=
  refinesMap_iff colliding 2 colliding_ordinary

theorem second_service_refused :
    ¬ ∀ k, k < 2 → MapStep (observedAt colliding k) (colliding k) := by
  intro h
  have hok := ((h 1 (by omega)).registers _ rfl).mpr rfl
  cases hok

end Colliding

end LapCom.Registry
