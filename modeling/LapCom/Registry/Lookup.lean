import LapCom.Registry.Independence

set_option autoImplicit false

namespace LapCom.Registry
open LapCom.SeqLock LapCom.Machine

def HoldsService (id : BitVec 64) (s : ServiceSlot) : Prop :=
  s.fields.isActive = true ∧ s.fields.serviceId = id

instance (id : BitVec 64) (s : ServiceSlot) : Decidable (HoldsService id s) :=
  inferInstanceAs (Decidable (_ ∧ _))

def searched (id : BitVec 64) (qm asil : Bank) : Bank :=
  if selectRegistry id = .ASIL then asil else qm

theorem findService_mapped {qm asil : Bank} {id : BitVec 64}
    (heven : writing (searched id qm asil (slotOfId id)).sequence = false) :
    (mapped qm asil).findService id =
      if id.toNat%1024 ≠ 0 ∧ HoldsService id (searched id qm asil (slotOfId id)) then
        some (searched id qm asil (slotOfId id)) else none := by
  have hexec := exec_mapped qm asil (.findService id)
  simp only [Op.exec,Op.serviceId,Op.refusal] at hexec
  by_cases h0 : id.toNat%1024 = 0
  · simp only [h0,if_true,Prod.mk.injEq,Reply.found.injEq] at hexec
    rw [hexec.1,if_neg fun h => h.1 h0]
  · have hid : id ≠ 0 := by
      rintro rfl
      exact h0 rfl
    have hread : (mapped qm asil).findService id = SingleRegistry.filterFound
        (read (findFunc id) (searched id qm asil (slotOfId id))) := by
      cases hselect : selectRegistry id <;>
        simpa [h0,hselect,Op.onBank,Op.both,searched] using (congrArg Prod.fst hexec)
    rw [hread,read_eq,heven,if_neg Bool.false_ne_true,eval_findFunc]
    by_cases hholds : HoldsService id (searched id qm asil (slotOfId id))
    · rw [if_pos ⟨hholds.2,hholds.1⟩,if_pos ⟨h0,hholds⟩,SingleRegistry.filterFound,hholds.2,
        if_neg hid]
    · rw [if_neg fun h => hholds ⟨h.2,h.1⟩,if_neg fun h => hholds h.2]
      rfl

theorem SlotInv.not_writing {t : RegistryType} {k : SlotIndex} {s : ServiceSlot}
    (h : SlotInv t k s) : writing s.sequence = false := by
  rw [← Bool.not_eq_true,writing_iff,h.even]
  decide

/-- A string of a slot: the first bytes of the argument, then zeros to the end of the field. -/
def zeroFilled (n : Nat) (bytes : List Byte) : List Byte :=
  bytes ++ List.replicate (n-bytes.length) 0

/-- Every field of the slot is the one of this registration. -/
structure RecordOf (r : Registration) (slot : ServiceSlot) : Prop where
  serviceId : slot.fields.serviceId = r.serviceId
  instanceId : slot.fields.instanceId = r.instanceId
  majorVersion : slot.fields.majorVersion = r.majorVersion
  minorVersion : slot.fields.minorVersion = r.minorVersion
  bindingType : slot.fields.bindingType.toList = zeroFilled 16 (r.bindingType.bytes.take 15)
  endpoint : slot.fields.endpoint.toList = zeroFilled 80 (r.endpoint.bytes.take 79)
  lastHeartbeatNs : slot.fields.lastHeartbeatNs = r.now
  heartbeatIntervalMs : slot.fields.heartbeatIntervalMs = 100
  status : slot.fields.status = SlotStatus.ACTIVE.code
  ownerPid : slot.fields.ownerPid = r.pid
  metadata : slot.fields.metadata = zeros 64

theorem stringField_toList (n : Nat) (src : CString) :
    (stringField n src).toList = zeroFilled (n+1) (src.bytes.take n) := by
  apply List.ext_getElem
  · simp [zeroFilled]
  · intro i hi hi'
    simp only [stringField,zeroFilled,Vector.getElem_toList,Vector.getElem_ofFn]
    by_cases hlt : i < (src.bytes.take n).length
    · have hin : i < n ∧ i < src.bytes.length := by simpa using hlt
      rw [List.getElem_append_left hlt]
      simp [hin.1,hin.2]
    · rw [List.getElem_append_right (Nat.le_of_not_lt hlt),List.getElem_replicate]
      rw [List.length_take] at hlt
      split_ifs with hn
      · rw [List.getD_eq_default _ _ (by omega)]
      · rfl

theorem registerService_free {qm asil : Bank} {r : Registration}
    (h : ((mapped qm asil).registerService r).1 = .ok ()) : r.serviceId.toNat%1024 ≠ 0 ∧
      (searched r.serviceId qm asil (slotOfId r.serviceId)).fields.isActive = false := by
  have hexec := exec_mapped qm asil (.registerService r)
  have hreply := congrArg Prod.fst hexec
  simp only [Op.exec,Op.serviceId,h] at hreply
  by_cases h0 : r.serviceId.toNat%1024 = 0
  · simp [h0,Op.refusal,fail] at hreply
  · refine ⟨h0,?_⟩
    simp only [h0,if_false] at hreply
    rw [← Bool.not_eq_true]
    intro hactive
    cases hselect : selectRegistry r.serviceId <;>
      simp [searched,hselect] at hactive <;>
      simp [hselect,Op.onBank,hactive,Op.both,fail] at hreply

theorem searched_onRegistry (qm asil : Bank) (op : Op) (h0 : op.serviceId.toNat%1024 ≠ 0) :
    searched op.serviceId (op.onRegistry .QM qm) (op.onRegistry .ASIL asil)
        (slotOfId op.serviceId) =
      op.onSlot (searched op.serviceId qm asil (slotOfId op.serviceId)) := by
  cases hselect : selectRegistry op.serviceId <;>
    simp [searched,Op.onRegistry,Addresses,Routes,h0,hselect]

theorem BankInv.searched {qm asil : Bank} (hqm : BankInv .QM qm) (hasil : BankInv .ASIL asil)
    (id : BitVec 64) : ∃ t, SlotInv t (slotOfId id) (searched id qm asil (slotOfId id)) := by
  rw [Registry.searched]
  split_ifs
  · exact ⟨_,hasil.slots _⟩
  · exact ⟨_,hqm.slots _⟩

theorem SlotInv.record {t : RegistryType} {k : SlotIndex} {s : ServiceSlot} (h : SlotInv t k s)
    (hfree : s.fields.isActive = false) (r : Registration) :
    RecordOf r (writeSection (registerStores r) s) := by
  have hfields : (writeSection (registerStores r) s).fields = r.record s.fields.metadata :=
    applyStores_register _ _
  have hmetadata : s.fields.metadata = zeros 64 := by
    rw [h.inactive hfree]
    rfl
  constructor
  all_goals rw [hfields]
  · rfl
  · rfl
  · rfl
  · rfl
  · exact stringField_toList 15 r.bindingType
  · exact stringField_toList 79 r.endpoint
  · rfl
  · rfl
  · rfl
  · rfl
  · exact hmetadata

/-- In every reachable state: what is registered is found, as it was given. -/
theorem find_after_register (σ : Nat → Op) (k : Nat) (r : Registration)
    (h : ((stateAt next .initialized σ k).registerService r).1 = .ok ()) :
    ∃ slot, ((stateAt next .initialized σ k).registerService r).2.findService r.serviceId =
      some slot ∧ RecordOf r slot := by
  obtain ⟨qm,asil,hreg,hqm,hasil⟩ := registry_represented σ k
  rw [hreg] at h ⊢
  obtain ⟨h0,hfree⟩ := registerService_free h
  obtain ⟨t,hinv⟩ := hqm.searched hasil r.serviceId
  have hnext : ((mapped qm asil).registerService r).2 = _ :=
    next_mapped qm asil (.registerService r)
  have hslot : searched r.serviceId (Op.onRegistry .QM (.registerService r) qm)
        (Op.onRegistry .ASIL (.registerService r) asil) (slotOfId r.serviceId) =
      writeSection (registerStores r) (searched r.serviceId qm asil (slotOfId r.serviceId)) := by
    have hsearched := searched_onRegistry qm asil (.registerService r) h0
    simpa only [Op.serviceId,Op.onSlot,hfree,Bool.false_eq_true,if_false] using hsearched
  have hrecord := hinv.record hfree r
  have heven : writing (writeSection (registerStores r)
      (searched r.serviceId qm asil (slotOfId r.serviceId))).sequence = false := by
    rw [← Bool.not_eq_true,writing_iff,writeSection_even hinv.even]
    decide
  rw [hnext,findService_mapped (by rwa [hslot]),hslot]
  exact ⟨_,if_pos ⟨h0,rfl,hrecord.serviceId⟩,hrecord⟩

def longRegistration : Registration :=
  ⟨0x0401,1,1,0,⟨List.replicate 16 120,by decide⟩,noText,7,1⟩

theorem find_after_register_long :
    ((SharedMemoryRegistry.initialized).registerService longRegistration).1 = .ok () ∧
    ∃ slot, ((SharedMemoryRegistry.initialized).registerService longRegistration).2.findService
      0x0401 = some slot ∧ RecordOf longRegistration slot := by
  have hok : ((SharedMemoryRegistry.initialized).registerService longRegistration).1 = .ok () := by
    decide +kernel
  exact ⟨hok,find_after_register (fun _ => .findService 1) 0 longRegistration hok⟩

end LapCom.Registry
