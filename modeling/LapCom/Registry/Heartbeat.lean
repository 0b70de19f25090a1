import LapCom.Registry.Lookup

set_option autoImplicit false

namespace LapCom.Registry
open LapCom.SeqLock LapCom.Machine

/-- No slot of the registry has other data. -/
def SameData (before after : SingleRegistry) : Prop :=
  ∀ i, (after.slotAt i).map Slot.fields = (before.slotAt i).map Slot.fields

/-- No slot has other data, but for the heartbeat time of those that hold the service. -/
def OnlyHeartbeatOf (id : BitVec 64) (before after : SingleRegistry) : Prop :=
  ∀ i s s', before.slotAt i = some s → after.slotAt i = some s' → s'.fields = s.fields ∨
    (HoldsService id s ∧
      s'.fields = { s.fields with lastHeartbeatNs := s'.fields.lastHeartbeatNs })

structure TouchesOwn (reg : SharedMemoryRegistry) (id timestampNs : BitVec 64) : Prop where
  absent : reg.findService id = none →
    SameData reg.qm (reg.updateHeartbeat id timestampNs).2.qm ∧
      SameData reg.asil (reg.updateHeartbeat id timestampNs).2.asil
  present : ∀ found, reg.findService id = some found →
    OnlyHeartbeatOf id reg.qm (reg.updateHeartbeat id timestampNs).2.qm ∧
      OnlyHeartbeatOf id reg.asil (reg.updateHeartbeat id timestampNs).2.asil

def AddressedSlot (reg : SharedMemoryRegistry) (id : BitVec 64) (s : ServiceSlot) : Prop :=
  (Addresses .QM id ∧ reg.qm.slotAt (slotOfId id) = some s) ∨
    (Addresses .ASIL id ∧ reg.asil.slotAt (slotOfId id) = some s)

def Listed (reg : SharedMemoryRegistry) (id : BitVec 64) : Prop :=
  ∃ s, HoldsService id s ∧
    (if selectRegistry id = .ASIL then reg.asil else reg.qm).slotAt (slotOfId id) = some s

/-- Every addressed slot has the heartbeat time already, or is one of a service that is listed. -/
def Spares (reg : SharedMemoryRegistry) (id timestampNs : BitVec 64) : Prop :=
  ∀ s, AddressedSlot reg id s →
    s.fields.lastHeartbeatNs = timestampNs ∨ (Listed reg id ∧ HoldsService id s)

section Banks
variable {t : RegistryType} {bank : Bank} {id timestampNs : BitVec 64}

def beaten (t : RegistryType) (id timestampNs : BitVec 64) (bank : Bank) : Bank :=
  Op.onRegistry t (.updateHeartbeat id timestampNs) bank

theorem beaten_fields (i : SlotIndex) : (beaten t id timestampNs bank i).fields =
    if Addresses t id ∧ i = slotOfId id then
      { (bank i).fields with lastHeartbeatNs := timestampNs } else (bank i).fields := by
  by_cases haddr : Addresses t id
  · by_cases hi : i = slotOfId id
    · subst hi
      rw [if_pos ⟨haddr,rfl⟩,beaten,Op.onRegistry,Op.serviceId,if_pos haddr,Function.update_self]
      rfl
    · rw [if_neg fun h => hi h.2,beaten,onRegistry_of_ne fun _ => hi]
  · rw [if_neg fun h => haddr h.1,beaten,Op.onRegistry,Op.serviceId,if_neg haddr]

theorem beaten_same_iff : SameData ⟨some bank⟩ ⟨some (beaten t id timestampNs bank)⟩ ↔
    (Addresses t id → (bank (slotOfId id)).fields.lastHeartbeatNs = timestampNs) := by
  simp only [SameData,SingleRegistry.slotAt,Option.map_some,Option.some.injEq,beaten_fields]
  constructor
  · intro h haddr
    have hslot := h (slotOfId id)
    rw [if_pos ⟨haddr,rfl⟩] at hslot
    exact (congrArg SlotFields.lastHeartbeatNs hslot).symm
  · intro h i
    split_ifs with hi
    · obtain ⟨haddr,rfl⟩ := hi
      rw [← h haddr]
    · rfl

theorem beaten_only_iff : OnlyHeartbeatOf id ⟨some bank⟩ ⟨some (beaten t id timestampNs bank)⟩ ↔
    (Addresses t id → (bank (slotOfId id)).fields.lastHeartbeatNs = timestampNs ∨
      HoldsService id (bank (slotOfId id))) := by
  simp only [OnlyHeartbeatOf,SingleRegistry.slotAt,Option.map_some,Option.some.injEq]
  constructor
  · intro h haddr
    rcases h _ _ _ rfl rfl with hsame | ⟨hholds,_⟩
    · rw [beaten_fields,if_pos ⟨haddr,rfl⟩] at hsame
      exact .inl (congrArg SlotFields.lastHeartbeatNs hsame).symm
    · exact .inr hholds
  · rintro h i _ _ rfl rfl
    rw [beaten_fields]
    split_ifs with hi
    · obtain ⟨haddr,rfl⟩ := hi
      rcases h haddr with hsame | hholds
      · exact .inl (by rw [← hsame])
      · exact .inr ⟨hholds,rfl⟩
    · exact .inl rfl

end Banks

theorem listed_mapped (qm asil : Bank) (id : BitVec 64) :
    Listed (mapped qm asil) id ↔ HoldsService id (searched id qm asil (slotOfId id)) := by
  by_cases hselect : selectRegistry id = .ASIL <;>
    simp [Listed,searched,mapped,SingleRegistry.slotAt,hselect]

theorem spares_mapped (qm asil : Bank) (id timestampNs : BitVec 64) :
    Spares (mapped qm asil) id timestampNs ↔
      (Addresses .QM id → (qm (slotOfId id)).fields.lastHeartbeatNs = timestampNs ∨
        (Listed (mapped qm asil) id ∧ HoldsService id (qm (slotOfId id)))) ∧
      (Addresses .ASIL id → (asil (slotOfId id)).fields.lastHeartbeatNs = timestampNs ∨
        (Listed (mapped qm asil) id ∧ HoldsService id (asil (slotOfId id)))) := by
  simp only [Spares,AddressedSlot,mapped,SingleRegistry.slotAt,Option.map_some,Option.some.injEq]
  constructor
  · intro h
    exact ⟨fun hq => h _ (.inl ⟨hq,rfl⟩),fun ha => h _ (.inr ⟨ha,rfl⟩)⟩
  · rintro ⟨hqm,hasil⟩ s (⟨hq,rfl⟩ | ⟨ha,rfl⟩)
    · exact hqm hq
    · exact hasil ha

theorem findService_listed {qm asil : Bank} (hqm : BankInv .QM qm) (hasil : BankInv .ASIL asil)
    (id : BitVec 64) :
    (Listed (mapped qm asil) id → ∃ s, (mapped qm asil).findService id = some s) ∧
      (¬ Listed (mapped qm asil) id → (mapped qm asil).findService id = none) := by
  obtain ⟨t,hinv⟩ := hqm.searched hasil id
  rw [listed_mapped,findService_mapped hinv.not_writing]
  constructor
  · intro hholds
    have h0 : (slotOfId id).val ≠ 0 := (hinv.active hholds.1).2.1
    exact ⟨_,if_pos ⟨h0,hholds⟩⟩
  · intro hother
    exact if_neg fun h => hother h.2

/-- In every reachable state: a heartbeat touches its own service only, just where every slot that
it goes to is one of that service, or has the time already. -/
theorem heartbeat_iff (σ : Nat → Op) (k : Nat) (id timestampNs : BitVec 64) :
    TouchesOwn (stateAt next .initialized σ k) id timestampNs ↔
      Spares (stateAt next .initialized σ k) id timestampNs := by
  obtain ⟨qm,asil,hreg,hqm,hasil⟩ := registry_represented σ k
  rw [hreg,spares_mapped]
  obtain ⟨hfound,hnone⟩ := findService_listed hqm hasil id
  have hbeaten : ((mapped qm asil).updateHeartbeat id timestampNs).2 =
      mapped (beaten .QM id timestampNs qm) (beaten .ASIL id timestampNs asil) :=
    next_mapped qm asil (.updateHeartbeat id timestampNs)
  by_cases hlisted : Listed (mapped qm asil) id
  · obtain ⟨s,hs⟩ := hfound hlisted
    have htouches : TouchesOwn (mapped qm asil) id timestampNs ↔
        OnlyHeartbeatOf id ⟨some qm⟩ ⟨some (beaten .QM id timestampNs qm)⟩ ∧
          OnlyHeartbeatOf id ⟨some asil⟩ ⟨some (beaten .ASIL id timestampNs asil)⟩ := by
      constructor
      · intro h
        have := h.present s hs
        rwa [hbeaten] at this
      · intro h
        refine ⟨fun habsent => ?_,fun _ _ => ?_⟩
        · rw [hs] at habsent
          cases habsent
        · rwa [hbeaten]
    rw [htouches,beaten_only_iff,beaten_only_iff]
    simp only [hlisted,true_and]
  · have htouches : TouchesOwn (mapped qm asil) id timestampNs ↔
        SameData ⟨some qm⟩ ⟨some (beaten .QM id timestampNs qm)⟩ ∧
          SameData ⟨some asil⟩ ⟨some (beaten .ASIL id timestampNs asil)⟩ := by
      constructor
      · intro h
        have := h.absent (hnone hlisted)
        rwa [hbeaten] at this
      · intro h
        refine ⟨fun _ => ?_,fun found hsome => ?_⟩
        · rwa [hbeaten]
        · rw [hnone hlisted] at hsome
          cases hsome
    rw [htouches,beaten_same_iff,beaten_same_iff]
    simp only [hlisted,false_and,or_false]

def neighbourFirst : Nat → Op :=
  schedule [.registerService (plainRegistration 0x0001 1)] (.findService 1)

theorem heartbeat_reaches_neighbour :
    (stateAt next .initialized neighbourFirst 1).findService 0x0401 = none ∧
      ¬ TouchesOwn (stateAt next .initialized neighbourFirst 1) 0x0401 7 := by
  have habsent : (stateAt next .initialized neighbourFirst 1).findService 0x0401 = none := by
    decide +kernel
  refine ⟨habsent,fun h => ?_⟩
  have hslot := (h.absent habsent).1 ⟨1,by decide⟩
  have htime := congrArg (Option.map SlotFields.lastHeartbeatNs) hslot
  revert htime
  decide +kernel

end LapCom.Registry
