import LapCom.Registry.SharedMemory

set_option autoImplicit false

namespace LapCom.Registry
open LapCom.SeqLock

def slotOfId (serviceId : BitVec 64) : SlotIndex :=
  ⟨serviceId.toNat%1024,Nat.mod_lt _ (by decide)⟩

theorem toNat_calculateSlot (id : BitVec 64) : (calculateSlot id).toNat = id.toNat%1024 := by
  have h : (id &&& 1023).toNat = id.toNat%1024 := by
    rw [BitVec.toNat_and]
    exact Nat.and_two_pow_sub_one_eq_mod id.toNat 10
  rw [calculateSlot,BitVec.toNat_setWidth,h]
  omega

theorem calculateSlot_eq_zero (id : BitVec 64) :
    calculateSlot id = 0 ↔ id.toNat%1024 = 0 := by
  rw [← toNat_calculateSlot,← BitVec.toNat_inj]; rfl

theorem validSlot_calculateSlot (id : BitVec 64) : validSlot? (calculateSlot id) =
    if id.toNat%1024 = 0 then none else some (slotOfId id) := by
  have hlt : id.toNat%1024 < maxSlots := Nat.mod_lt _ (by decide)
  simp only [validSlot?,toNat_calculateSlot]
  by_cases h : id.toNat%1024 = 0
  · simp [h]
  · simp [h,hlt,slotOfId,Nat.pos_of_ne_zero h]

theorem selectRegistry_eq (id : BitVec 64) : selectRegistry id =
    if id.toNat%65536 = 0xFFFF then .BOTH
    else if 0xF001 ≤ id.toNat%65536 ∧ id.toNat%65536 ≤ 0xF3FE then .ASIL else .QM := by
  have h : ((id &&& 0xFFFF).setWidth 16).toNat = id.toNat%65536 := by
    have hand : (id &&& 0xFFFF).toNat = id.toNat%65536 := by
      rw [BitVec.toNat_and]
      exact Nat.and_two_pow_sub_one_eq_mod id.toNat 16
    rw [BitVec.toNat_setWidth,hand]
    omega
  simp only [selectRegistry,← BitVec.toNat_inj,ge_iff_le,BitVec.le_def,h,ite_self]
  rfl

def mapped (qm asil : Bank) : SharedMemoryRegistry := ⟨⟨some qm⟩,⟨some asil⟩⟩

def Op.onBank (bank : Bank) (i : SlotIndex) : Op → Reply × Bank
  | .registerService r =>
      if (bank i).fields.isActive then (.status (fail .kServiceNotOffered 0),bank)
      else (.status (.ok ()),Function.update bank i (writeSection (registerStores r) (bank i)))
  | .unregisterService _ =>
      (.status (.ok ()),Function.update bank i (writeSection resetStores (bank i)))
  | .findService id => (.found (SingleRegistry.filterFound (read (findFunc id) (bank i))),bank)
  | .updateHeartbeat _ t =>
      (.status (.ok ()),Function.update bank i (writeSection (heartbeatStores t) (bank i)))

def Op.refusal : Op → Reply
  | .findService _ => .found none
  | _ => .status (fail .kInvalidArgument 0)

def Op.both : Op → Reply → Reply → Reply
  | .registerService _, .status (.error e), _ => .status (.error e)
  | .findService _, qm, _ => qm
  | _, _, asil => asil

/-- Everything an operation can do to an initialised registry. -/
theorem exec_mapped (qm asil : Bank) (op : Op) : op.exec (mapped qm asil) =
    if op.serviceId.toNat%1024 = 0 then (op.refusal,mapped qm asil)
    else
      let i := slotOfId op.serviceId
      match selectRegistry op.serviceId with
      | .QM => ((op.onBank qm i).1,mapped (op.onBank qm i).2 asil)
      | .ASIL => ((op.onBank asil i).1,mapped qm (op.onBank asil i).2)
      | .BOTH => (op.both (op.onBank qm i).1 (op.onBank asil i).1,
          mapped (op.onBank qm i).2 (op.onBank asil i).2) := by
  cases op with
  | registerService r =>
    have hv := validSlot_calculateSlot r.serviceId
    simp only [Op.exec,SharedMemoryRegistry.registerService,calculateSlot_eq_zero,Op.serviceId]
    by_cases h0 : r.serviceId.toNat%1024 = 0
    · simp [h0,Op.refusal]
    · simp only [h0,if_false] at hv ⊢
      simp only [mapped,SingleRegistry.registerService,SingleRegistry.onSlot,hv,Op.onBank]
      cases selectRegistry r.serviceId <;>
        cases hq : (qm (slotOfId r.serviceId)).fields.isActive <;>
        cases ha : (asil (slotOfId r.serviceId)).fields.isActive <;>
        simp [Result.hasValue,fail,Op.both]
  | unregisterService id =>
    have hv := validSlot_calculateSlot id
    simp only [Op.exec,SharedMemoryRegistry.unregisterService,SharedMemoryRegistry.onSelected,
      calculateSlot_eq_zero,Op.serviceId]
    by_cases h0 : id.toNat%1024 = 0
    · simp [h0,Op.refusal]
    · simp only [h0,if_false] at hv ⊢
      simp only [mapped,SingleRegistry.unregisterService,SingleRegistry.onSlot,hv,Op.onBank]
      cases selectRegistry id <;> rfl
  | updateHeartbeat id t =>
    have hv := validSlot_calculateSlot id
    simp only [Op.exec,SharedMemoryRegistry.updateHeartbeat,SharedMemoryRegistry.onSelected,
      calculateSlot_eq_zero,Op.serviceId]
    by_cases h0 : id.toNat%1024 = 0
    · simp [h0,Op.refusal]
    · simp only [h0,if_false] at hv ⊢
      simp only [mapped,SingleRegistry.updateHeartbeat,SingleRegistry.onSlot,hv,Op.onBank]
      cases selectRegistry id <;> rfl
  | findService id =>
    have hv : validSlot? ((id &&& 1023).setWidth 32) = _ := validSlot_calculateSlot id
    simp only [Op.exec,SharedMemoryRegistry.findService,SingleRegistry.findService,mapped,hv,
      Op.serviceId]
    by_cases h0 : id.toNat%1024 = 0
    · cases selectRegistry id <;> simp [h0,Op.refusal]
    · simp only [h0,if_false,Op.onBank]
      cases selectRegistry id <;> rfl

end LapCom.Registry
