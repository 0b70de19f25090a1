import LapCom.Registry.Routing
import LapCom.Runtime.Services

set_option autoImplicit false

namespace LapCom.Runtime
open LapCom.SeqLock LapCom.Registry LapCom.Machine

def ready (qm asil : Bank) : Globals := ⟨true,some (mapped qm asil)⟩

def Globals.qmSlots (rt : Globals) : Option Bank := rt.dualRegistry.bind fun reg => reg.qm.slots

def Globals.asilSlots (rt : Globals) : Option Bank := rt.dualRegistry.bind fun reg => reg.asil.slots

def Globals.withAsil (rt : Globals) (asil : Bank) : Globals :=
  { rt with dualRegistry := rt.dualRegistry.map fun reg => { reg with asil := ⟨some asil⟩ } }

structure Isolated (rt : Globals) (op : Op) : Prop where
  asil : isAsilRange op.serviceId = true → op.serviceId ≠ 0xFFFF →
    (next rt op).qmSlots = rt.qmSlots
  qm : isQmRange op.serviceId = true → (next rt op).asilSlots = rt.asilSlots
  outcome : isQmRange op.serviceId = true → ∀ asil,
    (op.exec (rt.withAsil asil)).1 = (op.exec rt).1 ∧
      (next (rt.withAsil asil) op).qmSlots = (next rt op).qmSlots

/-- The ids that are accepted as ASIL, lie outside the ASIL range of the registry
and have a slot. -/
def Misrouted (serviceId : BitVec 16) : Prop :=
  0xF3FF ≤ serviceId.toNat ∧ serviceId.toNat ≤ 0xFFFE ∧ serviceId.toNat%1024 ≠ 0

/-- No service under a misrouted id is unregistered, or registered where the QM
slot that it hashes to is free. -/
def KeepsToRange (rt : Globals) : Op → Prop
  | .registerService serviceId instanceId _ _ _ => Misrouted serviceId →
      instanceId = 0 ∨ instanceId = 0xffff ∨
        ∀ qm, rt.qmSlots = some qm → (qm (slotOfId (serviceId.setWidth 64))).fields.isActive = true
  | .unregisterService serviceId => ¬ Misrouted serviceId
  | .findService _ => True

/-- The operation of the registry that a call comes down to, once it is checked. -/
def Op.delegate : Op → Registry.Op
  | .registerService serviceId instanceId networkBinding now pid =>
      .registerService (registration serviceId instanceId networkBinding now pid)
  | .findService serviceId => .findService (serviceId.setWidth 64)
  | .unregisterService serviceId => .unregisterService (serviceId.setWidth 64)

def Op.accepted (op : Op) : Bool :=
  (isQmRange op.serviceId || isAsilRange op.serviceId) &&
    match op with
    | .registerService _ instanceId _ _ _ => instanceId ≠ 0 ∧ instanceId ≠ 0xffff
    | _ => true

def Op.refused : Op → Reply
  | .registerService serviceId instanceId _ _ _ => .status (fail .kInvalidArgument
      (if isQmRange serviceId = false ∧ isAsilRange serviceId = false then serviceId.toNat
        else instanceId.toNat))
  | .findService _ => .found none
  | .unregisterService serviceId => .status (fail .kInvalidArgument serviceId.toNat)

theorem delegate_serviceId (op : Op) : op.delegate.serviceId = op.serviceId.setWidth 64 := by
  cases op <;> rfl

theorem toNat_serviceId (op : Op) : op.delegate.serviceId.toNat = op.serviceId.toNat := by
  rw [delegate_serviceId,BitVec.toNat_setWidth]
  have := op.serviceId.isLt
  omega

theorem isQmRange_iff (serviceId : BitVec 16) :
    isQmRange serviceId = true ↔ 1 ≤ serviceId.toNat ∧ serviceId.toNat ≤ 0x3fff := by
  simp [isQmRange,BitVec.le_def]

theorem isAsilRange_iff (serviceId : BitVec 16) :
    isAsilRange serviceId = true ↔ 0xF000 ≤ serviceId.toNat := by
  simp [isAsilRange,BitVec.le_def]

theorem select_delegate (op : Op) : selectRegistry op.delegate.serviceId =
    if op.serviceId.toNat = 0xFFFF then .BOTH
    else if 0xF001 ≤ op.serviceId.toNat ∧ op.serviceId.toNat ≤ 0xF3FE then .ASIL else .QM := by
  have hlt := op.serviceId.isLt
  have hmod : op.serviceId.toNat%65536 = op.serviceId.toNat := by omega
  rw [selectRegistry_eq,toNat_serviceId,hmod]

def Op.failed : Op → ComErrc → Reply
  | .registerService _ _ _ _ _, code => .status (fail code 0)
  | .findService _, _ => .found none
  | .unregisterService _, code => .status (fail code 0)

theorem exec_checked (reg : SharedMemoryRegistry) (op : Op) : op.exec ⟨true,some reg⟩ =
    if op.accepted = true then ((op.delegate.exec reg).1,⟨true,some (op.delegate.exec reg).2⟩)
    else (op.refused,⟨true,some reg⟩) := by
  cases hrange : isQmRange op.serviceId || isAsilRange op.serviceId with
  | false =>
    obtain ⟨hq,ha⟩ := Bool.or_eq_false_iff.mp hrange
    cases op <;> simp only [Op.serviceId] at hq ha <;>
      simp [Op.exec,registerService,findService,unregisterService,checked,Op.accepted,
        Op.refused,Op.serviceId,hq,ha]
  | true =>
    have hsome : ¬ (isQmRange op.serviceId = false ∧ isAsilRange op.serviceId = false) := by
      rw [← Bool.or_eq_false_iff,hrange]; simp
    cases op with
    | findService sid =>
      simp only [Op.serviceId] at hrange hsome
      simp [Op.exec,findService,Op.accepted,Op.serviceId,hrange,hsome,Op.delegate,
        Registry.Op.exec]
    | unregisterService sid =>
      simp only [Op.serviceId] at hrange hsome
      simp [Op.exec,unregisterService,checked,Op.accepted,Op.serviceId,hrange,hsome,
        Op.delegate,Registry.Op.exec]
    | registerService sid iid binding now pid =>
      simp only [Op.serviceId] at hrange hsome
      by_cases hiid : iid = 0 ∨ iid = 0xffff
      · have hacc : ¬ (iid ≠ 0 ∧ iid ≠ 0xffff) := by rintro ⟨h₁,h₂⟩; exact hiid.elim h₁ h₂
        simp only [Op.exec,registerService,checked,Op.accepted,Op.refused,Op.serviceId,
          hrange,hsome,hiid,hacc]
        simp
      · have hacc : iid ≠ 0 ∧ iid ≠ 0xffff := not_or.mp hiid
        simp only [Op.exec,registerService,checked,Op.accepted,Op.serviceId,hrange,hsome,
          hacc,Op.delegate,Registry.Op.exec]
        have h₁ : ¬ iid = 0#16 := hacc.1
        have h₂ : ¬ iid = 65535#16 := hacc.2
        simp [h₁,h₂]

theorem exec_ready (qm asil : Bank) (op : Op) : op.exec (ready qm asil) =
    if op.accepted = true then ((op.delegate.exec (mapped qm asil)).1,
      ⟨true,some (op.delegate.exec (mapped qm asil)).2⟩)
    else (op.refused,ready qm asil) := exec_checked (mapped qm asil) op

theorem exec_eq (rt : Globals) (op : Op) : op.exec rt =
    if rt.initialized = false then (op.failed .kNotInitialized,rt)
    else match rt.dualRegistry with
      | none => (op.failed .kInternal,rt)
      | some reg =>
        if op.accepted = true then
          ((op.delegate.exec reg).1,{ rt with dualRegistry := some (op.delegate.exec reg).2 })
        else (op.refused,rt) := by
  obtain ⟨initialized,dualRegistry⟩ := rt
  cases initialized with
  | false =>
    cases op with
    | _ => rfl
  | true =>
    cases dualRegistry with
    | none =>
      cases op with
      | _ => rfl
    | some reg => exact exec_checked reg op

section Routed

theorem write_ne (bank : Bank) (i : SlotIndex) (stores : List (SlotFields → SlotFields)) :
    Function.update bank i (writeSection stores (bank i)) ≠ bank := by
  intro h
  have hseq := congrArg Slot.sequence (congrFun h i)
  simp only [Function.update_self,writeSection] at hseq
  have := congrArg BitVec.toNat hseq
  simp only [BitVec.toNat_add] at this
  have hlt := (bank i).sequence.isLt
  have h1 : (1 : BitVec 64).toNat = 1 := rfl
  omega

theorem onBank_same_iff (bank : Bank) (i : SlotIndex) (op : Registry.Op) :
    (op.onBank bank i).2 = bank ↔ match op with
      | .registerService _ => (bank i).fields.isActive = true
      | .findService _ => True
      | _ => False := by
  cases op with
  | findService id => simp [Registry.Op.onBank]
  | unregisterService id => simpa [Registry.Op.onBank] using write_ne bank i _
  | updateHeartbeat id t => simpa [Registry.Op.onBank] using write_ne bank i _
  | registerService r =>
    cases hactive : (bank i).fields.isActive with
    | true => simp [Registry.Op.onBank,hactive]
    | false => simpa [Registry.Op.onBank,hactive] using write_ne bank i _

theorem exec_routed (qm asil : Bank) (op : Op) : op.exec (ready qm asil) =
    if op.accepted = false then (op.refused,ready qm asil)
    else if op.serviceId.toNat%1024 = 0 then (op.delegate.refusal,ready qm asil)
    else
      let i := slotOfId op.delegate.serviceId
      match selectRegistry op.delegate.serviceId with
      | .QM => ((op.delegate.onBank qm i).1,ready (op.delegate.onBank qm i).2 asil)
      | .ASIL => ((op.delegate.onBank asil i).1,ready qm (op.delegate.onBank asil i).2)
      | .BOTH => (op.delegate.both (op.delegate.onBank qm i).1 (op.delegate.onBank asil i).1,
          ready (op.delegate.onBank qm i).2 (op.delegate.onBank asil i).2) := by
  rw [exec_ready]
  cases hacc : op.accepted with
  | false => rfl
  | true =>
    rw [if_pos rfl,if_neg (by simp),exec_mapped,toNat_serviceId]
    by_cases h0 : op.serviceId.toNat%1024 = 0
    · rw [if_pos h0,if_pos h0]; rfl
    · rw [if_neg h0,if_neg h0]
      cases selectRegistry op.delegate.serviceId <;> rfl

theorem isolated_of_unchanged {qm asil : Bank} {op : Op} {reply : Reply}
    (h : ∀ asil', op.exec (ready qm asil') = (reply,ready qm asil')) :
    Isolated (ready qm asil) op := by
  have hother : ∀ asil', (ready qm asil).withAsil asil' = ready qm asil' := fun _ => rfl
  refine ⟨fun _ _ => ?_,fun _ => ?_,fun _ asil' => ?_⟩
  · rw [next,h]
  · rw [next,h]
  · rw [next,next,hother,h,h]
    exact ⟨rfl,rfl⟩

theorem keeps_of_not_misrouted {rt : Globals} {op : Op} (h : ¬ Misrouted op.serviceId) :
    KeepsToRange rt op := by
  cases op with
  | findService sid => trivial
  | unregisterService sid => exact h
  | registerService sid iid binding now pid => exact fun hmis => absurd hmis h

/-- Keeping to the range, for an accepted call under a misrouted id. -/
theorem keeps_iff_same {qm asil : Bank} {op : Op} (hacc : op.accepted = true)
    (hmis : Misrouted op.serviceId) : KeepsToRange (ready qm asil) op ↔
      (op.delegate.onBank qm (slotOfId op.delegate.serviceId)).2 = qm := by
  rw [onBank_same_iff]
  cases op with
  | findService sid => exact Iff.rfl
  | unregisterService sid => exact ⟨fun h => h hmis,fun h => h.elim⟩
  | registerService sid iid binding now pid =>
    have hiid : iid ≠ 0 ∧ iid ≠ 0xffff := by
      simpa using (Bool.and_eq_true_iff.mp hacc).2
    constructor
    · intro h
      obtain h | h | h := h hmis
      · exact absurd h hiid.1
      · exact absurd h hiid.2
      · exact h qm rfl
    · rintro h _
      refine .inr (.inr ?_)
      rintro _ ⟨⟩
      exact h

theorem keeps_of_refused {rt : Globals} {op : Op} (hacc : op.accepted = false) :
    KeepsToRange rt op := by
  have hlt := op.serviceId.isLt
  cases op with
  | findService sid => trivial
  | unregisterService sid =>
    rintro ⟨hlow,_⟩
    have ha := (isAsilRange_iff sid).mpr (by omega)
    simp [Op.accepted,Op.serviceId,ha] at hacc
  | registerService sid iid binding now pid =>
    rintro ⟨hlow,_⟩
    have ha := (isAsilRange_iff sid).mpr (by omega)
    by_contra hneg
    have h₁ : ¬ iid = 0#16 := fun h => hneg (.inl h)
    have h₂ : ¬ iid = 65535#16 := fun h => hneg (.inr (.inl h))
    simp [Op.accepted,Op.serviceId,ha,h₁,h₂] at hacc

theorem isolated_of_high {rt : Globals} {op : Op} (hhigh : 0x3fff < op.serviceId.toNat)
    (h : op.serviceId ≠ 0xFFFF → (next rt op).qmSlots = rt.qmSlots) : Isolated rt op := by
  have hnq : isQmRange op.serviceId ≠ true := by
    intro hq
    have := ((isQmRange_iff _).mp hq).2
    omega
  exact ⟨fun _ hne => h hne,fun hq => absurd hq hnq,fun hq => absurd hq hnq⟩

theorem isolated_iff (qm asil : Bank) (op : Op) :
    Isolated (ready qm asil) op ↔ KeepsToRange (ready qm asil) op := by
  have hlt := op.serviceId.isLt
  have hexec := fun asil' => exec_routed qm asil' op
  cases hacc : op.accepted with
  | false =>
    simp only [hacc,if_true] at hexec
    exact iff_of_true (isolated_of_unchanged hexec) (keeps_of_refused hacc)
  | true =>
    by_cases h0 : op.serviceId.toNat%1024 = 0
    · simp only [hacc,Bool.true_eq_false,if_false,h0,if_true] at hexec
      exact iff_of_true (isolated_of_unchanged hexec) (keeps_of_not_misrouted fun h => h.2.2 h0)
    simp only [hacc,Bool.true_eq_false,if_false,h0,select_delegate] at hexec
    by_cases hboth : op.serviceId.toNat = 0xFFFF
    · exact iff_of_true
        (isolated_of_high (by omega) fun hne => absurd (BitVec.eq_of_toNat_eq hboth) hne)
        (keeps_of_not_misrouted fun h => by have := h.2.1; omega)
    by_cases hasil : 0xF001 ≤ op.serviceId.toNat ∧ op.serviceId.toNat ≤ 0xF3FE
    · simp only [if_neg hboth,if_pos hasil] at hexec
      refine iff_of_true (isolated_of_high (by omega) fun _ => ?_)
        (keeps_of_not_misrouted fun h => by have := h.1; omega)
      rw [next,hexec]; rfl
    simp only [if_neg hboth,if_neg hasil] at hexec
    by_cases hq : isQmRange op.serviceId = true
    · have hle := ((isQmRange_iff _).mp hq).2
      refine iff_of_true ⟨fun ha => ?_,fun _ => ?_,fun _ asil' => ?_⟩
        (keeps_of_not_misrouted fun h => by have := h.1; omega)
      · have := (isAsilRange_iff _).mp ha; omega
      · rw [next,hexec]; rfl
      · rw [next,next,show (ready qm asil).withAsil asil' = ready qm asil' from rfl,hexec,hexec]
        exact ⟨rfl,rfl⟩
    · have ha : isAsilRange op.serviceId = true := by
        have := (Bool.and_eq_true_iff.mp hacc).1
        simpa [hq] using this
      have hlow := (isAsilRange_iff _).mp ha
      have hne : op.serviceId ≠ 0xFFFF := fun h => hboth (by rw [h]; rfl)
      rw [keeps_iff_same hacc ⟨by omega,by omega,h0⟩]
      constructor
      · intro h
        have hsame := h.asil ha hne
        rw [next,hexec] at hsame
        exact Option.some.inj hsame
      · intro hsame
        refine isolated_of_high (by omega) fun _ => ?_
        rw [next,hexec]
        exact congrArg some hsame

end Routed

theorem next_ready (qm asil : Bank) (op : Op) :
    ∃ qm' asil', next (ready qm asil) op = ready qm' asil' := by
  rw [next,exec_routed]
  split
  · exact ⟨_,_,rfl⟩
  · split
    · exact ⟨_,_,rfl⟩
    · cases selectRegistry op.delegate.serviceId <;> exact ⟨_,_,rfl⟩

/-- The two registries stay apart in just the runs that keep to the ASIL range of
the registry. -/
theorem isolation_iff (qm asil : Bank) (σ : Nat → Op) (n : Nat) :
    (∀ k, k < n → Isolated (stateAt next (ready qm asil) σ k) (σ k)) ↔
      ∀ k, k < n → KeepsToRange (stateAt next (ready qm asil) σ k) (σ k) := by
  refine forall_iff_of_invariant
    (I := fun k => ∃ qm' asil', stateAt next (ready qm asil) σ k = ready qm' asil')
    ⟨qm,asil,rfl⟩ ?_ ?_
  · rintro k ⟨qm',asil',hk⟩ _
    rw [stateAt_succ,hk]
    exact next_ready qm' asil' (σ k)
  · rintro k ⟨qm',asil',hk⟩
    rw [hk]
    exact isolated_iff qm' asil' (σ k)

/-- A QM service, and an unregistration under an id that only the runtime takes
for an ASIL one. -/
def intrusion : Nat → Op :=
  schedule [.registerService 0x0001 1 0 0 0] (.unregisterService 0xF401)

theorem asil_id_erases_qm_service :
    ¬ ∀ k, k < 2 → Isolated (stateAt next (ready .fresh .fresh) intrusion k) (intrusion k) := by
  intro h
  have hsame := (h 1 (by omega)).asil rfl (by decide)
  have hslot := congrArg (fun slots => (slots.map fun bank : Bank =>
    (bank ⟨1,by decide⟩).fields.serviceId).getD 0) hsame
  revert hslot
  decide +kernel

end LapCom.Runtime
