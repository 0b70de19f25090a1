import LapCom.Registry.Broadcast

set_option autoImplicit false

namespace LapCom.Registry
open LapCom.SeqLock LapCom.Machine

def Routes (t : RegistryType) (id : BitVec 64) : Prop :=
  selectRegistry id = t ∨ selectRegistry id = .BOTH

def Terminated {n : Nat} (text : Vector Byte n) : Prop := 0 ∈ text

/-- What a slot of the registry `t` is at the index `k`. A slot that is not active is empty, but for
the time of a heartbeat that came to it. -/
structure SlotInv (t : RegistryType) (k : SlotIndex) (s : ServiceSlot) : Prop where
  even : s.sequence.toNat%2 = 0
  status : s.fields.status = SlotStatus.IDLE.code ∨ s.fields.status = SlotStatus.ACTIVE.code
  active : s.fields.isActive = true →
    (s.fields.serviceId &&& 1023).toNat = k.val ∧ k.val ≠ 0 ∧ Routes t s.fields.serviceId
  inactive : s.fields.isActive = false →
    s.fields = { SlotFields.empty with lastHeartbeatNs := s.fields.lastHeartbeatNs }
  bindingType : Terminated s.fields.bindingType
  endpoint : Terminated s.fields.endpoint
  metadata : Terminated s.fields.metadata

structure BankInv (t : RegistryType) (bank : Bank) : Prop where
  reserved : bank ⟨0,by decide⟩ = .new
  slots : ∀ k, SlotInv t k (bank k)

def RegistryInv (reg : SharedMemoryRegistry) : Prop :=
  ∃ qm asil, reg = mapped qm asil ∧ BankInv .QM qm ∧ BankInv .ASIL asil

theorem terminated_zeros {n : Nat} (h : 0 < n) : Terminated (zeros n) := by
  have hne : n ≠ 0 := by omega
  simp [Terminated,zeros,hne]

theorem terminated_stringField (n : Nat) (src : CString) : Terminated (stringField n src) := by
  have hlast : (stringField n src)[n] = 0 := by simp [stringField]
  rw [Terminated,← hlast]
  exact Vector.getElem_mem _

theorem writeSection_even {stores : List (SlotFields → SlotFields)} {s : ServiceSlot}
    (h : s.sequence.toNat%2 = 0) : (writeSection stores s).sequence.toNat%2 = 0 := by
  simp only [writeSection,BitVec.toNat_add]
  omega

theorem and_slotOfId (id : BitVec 64) : (id &&& 1023).toNat = (slotOfId id).val := by
  rw [BitVec.toNat_and]
  exact Nat.and_two_pow_sub_one_eq_mod id.toNat 10

theorem SlotInv.new (t : RegistryType) (k : SlotIndex) : SlotInv t k .new :=
  ⟨rfl,.inl rfl,nofun,fun _ => rfl,terminated_zeros (by decide),terminated_zeros (by decide),
    terminated_zeros (by decide)⟩

section Slots
variable {t : RegistryType} {k : SlotIndex} {s : ServiceSlot}

theorem SlotInv.register (h : SlotInv t k s) {r : Registration} (hk : k = slotOfId r.serviceId)
    (h0 : k.val ≠ 0) (hroutes : Routes t r.serviceId) :
    SlotInv t k (writeSection (registerStores r) s) := by
  have hfields : (writeSection (registerStores r) s).fields = r.record s.fields.metadata :=
    applyStores_register _ _
  refine ⟨writeSection_even h.even,?_,?_,?_,?_,?_,?_⟩
  all_goals rw [hfields]
  · exact .inr rfl
  · intro _
    rw [hk] at h0 ⊢
    exact ⟨and_slotOfId r.serviceId,h0,hroutes⟩
  · intro hidle
    rw [record_isActive] at hidle
    cases hidle
  · exact terminated_stringField 15 r.bindingType
  · exact terminated_stringField 79 r.endpoint
  · exact h.metadata

theorem SlotInv.reset (h : SlotInv t k s) : SlotInv t k (writeSection resetStores s) := by
  have hnew := SlotInv.new t k
  have hfields : (writeSection resetStores s).fields = .empty := applyStores_reset _
  refine ⟨writeSection_even h.even,?_,?_,?_,?_,?_,?_⟩
  all_goals rw [hfields]
  · exact hnew.status
  · exact hnew.active
  · exact hnew.inactive
  · exact hnew.bindingType
  · exact hnew.endpoint
  · exact hnew.metadata

theorem SlotInv.heartbeat (h : SlotInv t k s) (timestampNs : BitVec 64) :
    SlotInv t k (writeSection (heartbeatStores timestampNs) s) := by
  have hfields : (writeSection (heartbeatStores timestampNs) s).fields =
      { s.fields with lastHeartbeatNs := timestampNs } := rfl
  refine ⟨writeSection_even h.even,h.status,h.active,fun hidle => ?_,h.bindingType,h.endpoint,
    h.metadata⟩
  rw [hfields,h.inactive hidle]

/-- What one operation keeps of the slot that it goes to. -/
theorem SlotInv.onSlot (h : SlotInv t k s) {op : Op} (hk : k = slotOfId op.serviceId)
    (h0 : k.val ≠ 0) (hroutes : Routes t op.serviceId) : SlotInv t k (op.onSlot s) := by
  cases op with
  | registerService r =>
    rw [Op.onSlot]
    split_ifs
    · exact h
    · exact h.register hk h0 hroutes
  | unregisterService id => exact h.reset
  | findService id => exact h
  | updateHeartbeat id timestampNs => exact h.heartbeat timestampNs

end Slots

theorem BankInv.fresh (t : RegistryType) : BankInv t .fresh := ⟨rfl,SlotInv.new t⟩

theorem BankInv.onBank {t : RegistryType} {bank : Bank} (h : BankInv t bank) {op : Op}
    (h0 : op.serviceId.toNat%1024 ≠ 0) (hroutes : Routes t op.serviceId) :
    BankInv t (op.onBank bank (slotOfId op.serviceId)).2 := by
  have hpos : (slotOfId op.serviceId).val ≠ 0 := h0
  refine ⟨?_,fun k => ?_⟩
  · have hne : (⟨0,by decide⟩ : SlotIndex) ≠ slotOfId op.serviceId := by
      intro heq
      rw [← heq] at hpos
      exact hpos rfl
    rw [onBank_apply,if_neg hne,h.reserved]
  · rw [onBank_apply]
    split_ifs with hk
    · subst hk
      exact (h.slots _).onSlot rfl hpos hroutes
    · exact h.slots k

theorem RegistryInv.initialized : RegistryInv .initialized :=
  ⟨.fresh,.fresh,rfl,.fresh .QM,.fresh .ASIL⟩

theorem RegistryInv.next {reg : SharedMemoryRegistry} (h : RegistryInv reg) (op : Op) :
    RegistryInv (Registry.next reg op) := by
  obtain ⟨qm,asil,rfl,hqm,hasil⟩ := h
  rw [Registry.next,exec_mapped]
  split_ifs with h0
  · exact ⟨qm,asil,rfl,hqm,hasil⟩
  · cases hselect : selectRegistry op.serviceId with
    | QM => exact ⟨_,asil,rfl,hqm.onBank h0 (.inl hselect),hasil⟩
    | ASIL => exact ⟨qm,_,rfl,hqm,hasil.onBank h0 (.inl hselect)⟩
    | BOTH => exact ⟨_,_,rfl,hqm.onBank h0 (.inr hselect),hasil.onBank h0 (.inr hselect)⟩

/-- Over every run: both registries keep their representation. -/
theorem registry_represented (σ : Nat → Op) (k : Nat) :
    RegistryInv (stateAt Registry.next .initialized σ k) :=
  stateAt_invariant (C := fun _ _ => True) .initialized (fun _ _ => trivial)
    (fun _ op h _ => h.next op) k (Nat.le_refl k)

end LapCom.Registry
