import LapCom.Registry.Representation

set_option autoImplicit false

namespace LapCom.Registry
open LapCom.SeqLock LapCom.Machine

/-- Operations on this id go to its slot of the registry `t`. -/
def Addresses (t : RegistryType) (id : BitVec 64) : Prop := id.toNat%1024 ≠ 0 ∧ Routes t id

instance (t : RegistryType) (id : BitVec 64) : Decidable (Addresses t id) :=
  inferInstanceAs (Decidable (_ ∧ (_ ∨ _)))

def SharesSlot (a b : BitVec 64) : Prop :=
  slotOfId a = slotOfId b ∧
    ((Addresses .QM a ∧ Addresses .QM b) ∨ (Addresses .ASIL a ∧ Addresses .ASIL b))

instance (a b : BitVec 64) : Decidable (SharesSlot a b) :=
  inferInstanceAs (Decidable (_ ∧ (_ ∨ _)))

def Op.onRegistry (t : RegistryType) (op : Op) (bank : Bank) : Bank :=
  if Addresses t op.serviceId then
    Function.update bank (slotOfId op.serviceId) (op.onSlot (bank (slotOfId op.serviceId)))
  else bank

theorem onBank_bank (op : Op) (bank : Bank) (i : SlotIndex) :
    (op.onBank bank i).2 = Function.update bank i (op.onSlot (bank i)) := by
  funext j
  rw [onBank_apply,Function.update_apply]

theorem onBank_reply {op : Op} {bank bank' : Bank} {i : SlotIndex} (h : bank i = bank' i) :
    (op.onBank bank i).1 = (op.onBank bank' i).1 := by
  cases op with
  | registerService r => cases hactive : (bank' i).fields.isActive <;> simp [Op.onBank,h,hactive]
  | unregisterService id => rfl
  | findService id => simp [Op.onBank,h]
  | updateHeartbeat id t => rfl

theorem next_mapped (qm asil : Bank) (op : Op) :
    next (mapped qm asil) op = mapped (op.onRegistry .QM qm) (op.onRegistry .ASIL asil) := by
  rw [next,exec_mapped]
  by_cases h0 : op.serviceId.toNat%1024 = 0
  · simp [Op.onRegistry,Addresses,h0]
  · cases hselect : selectRegistry op.serviceId <;>
      simp [Op.onRegistry,Addresses,Routes,h0,hselect,onBank_bank]

theorem reply_congr {qm asil qm' asil' : Bank} {op : Op}
    (hqm : Addresses .QM op.serviceId → qm (slotOfId op.serviceId) = qm' (slotOfId op.serviceId))
    (hasil : Addresses .ASIL op.serviceId →
      asil (slotOfId op.serviceId) = asil' (slotOfId op.serviceId)) :
    (op.exec (mapped qm asil)).1 = (op.exec (mapped qm' asil')).1 := by
  rw [exec_mapped,exec_mapped]
  by_cases h0 : op.serviceId.toNat%1024 = 0
  · simp [h0]
  · simp only [h0,if_false]
    cases hselect : selectRegistry op.serviceId with
    | QM => exact onBank_reply (hqm ⟨h0,.inl hselect⟩)
    | ASIL => exact onBank_reply (hasil ⟨h0,.inl hselect⟩)
    | BOTH =>
      have hqm' : (op.onBank qm (slotOfId op.serviceId)).1 = (op.onBank qm' _).1 :=
        onBank_reply (hqm ⟨h0,.inr hselect⟩)
      have hasil' : (op.onBank asil (slotOfId op.serviceId)).1 = (op.onBank asil' _).1 :=
        onBank_reply (hasil ⟨h0,.inr hselect⟩)
      simp only [hqm',hasil']

section Apart
variable {t : RegistryType} {a b : Op}

theorem onRegistry_of_ne {bank : Bank} {i : SlotIndex}
    (h : Addresses t a.serviceId → i ≠ slotOfId a.serviceId) : a.onRegistry t bank i = bank i := by
  rw [Op.onRegistry]
  split_ifs with haddr
  · exact Function.update_of_ne (h haddr) _ _
  · rfl

theorem onRegistry_comm (bank : Bank) (h : Addresses t a.serviceId → Addresses t b.serviceId →
      slotOfId a.serviceId ≠ slotOfId b.serviceId) :
    b.onRegistry t (a.onRegistry t bank) = a.onRegistry t (b.onRegistry t bank) := by
  by_cases ha : Addresses t a.serviceId
  · by_cases hb : Addresses t b.serviceId
    · have hne := h ha hb
      simp only [Op.onRegistry,ha,hb,if_true,Function.update_of_ne hne,
        Function.update_of_ne hne.symm]
      exact Function.update_comm hne _ _ bank
    · simp only [Op.onRegistry,hb,if_false]
  · simp only [Op.onRegistry,ha,if_false]

theorem reply_apart (qm asil : Bank) (h : ¬ SharesSlot a.serviceId b.serviceId) :
    (a.exec (mapped qm asil)).1 = (a.exec (next (mapped qm asil) b)).1 := by
  rw [next_mapped]
  apply reply_congr
  · intro ha
    exact (onRegistry_of_ne fun hb hslot => h ⟨hslot,.inl ⟨ha,hb⟩⟩).symm
  · intro ha
    exact (onRegistry_of_ne fun hb hslot => h ⟨hslot,.inr ⟨ha,hb⟩⟩).symm

end Apart

theorem SharesSlot.symm {a b : BitVec 64} (h : SharesSlot a b) : SharesSlot b a :=
  ⟨h.1.symm,h.2.imp And.symm And.symm⟩

/-- In every reachable state two operations that share no slot give the same results and the same
registries in either order. -/
theorem operations_commute (σ : Nat → Op) (k : Nat) (a b : Op)
    (h : ¬ SharesSlot a.serviceId b.serviceId) :
    (a.exec (stateAt next .initialized σ k)).1 =
        (a.exec (next (stateAt next .initialized σ k) b)).1 ∧
      (b.exec (next (stateAt next .initialized σ k) a)).1 =
        (b.exec (stateAt next .initialized σ k)).1 ∧
      next (next (stateAt next .initialized σ k) a) b =
        next (next (stateAt next .initialized σ k) b) a := by
  obtain ⟨qm,asil,hreg,_,_⟩ := registry_represented σ k
  have h' : ¬ SharesSlot b.serviceId a.serviceId := fun hshare => h hshare.symm
  rw [hreg]
  refine ⟨reply_apart qm asil h,(reply_apart qm asil h').symm,?_⟩
  simp only [next_mapped]
  rw [onRegistry_comm qm fun ha hb hslot => h ⟨hslot,.inl ⟨ha,hb⟩⟩,
    onRegistry_comm asil fun ha hb hslot => h ⟨hslot,.inr ⟨ha,hb⟩⟩]

theorem operations_commute_neighbours :
    ¬ SharesSlot 0x0001 0x0002 ∧
      next (next .initialized (.registerService (plainRegistration 0x0001 1)))
          (.updateHeartbeat 0x0002 7) =
        next (next .initialized (.updateHeartbeat 0x0002 7))
          (.registerService (plainRegistration 0x0001 1)) := by
  have hapart : ¬ SharesSlot 0x0001 0x0002 := by decide
  exact ⟨hapart,(operations_commute (fun _ => .findService 1) 0
    (.registerService (plainRegistration 0x0001 1)) (.updateHeartbeat 0x0002 7) hapart).2.2⟩

end LapCom.Registry
