import LapCom.Registry.Routing

set_option autoImplicit false

namespace LapCom.Registry
open LapCom.SeqLock LapCom.Machine RegistryConfig

def Broadcast (id : BitVec 64) : Prop := id.toNat%65536 = 0xFFFF

def Stray (id : BitVec 64) : Prop := id.toNat%1024 = 1023 ∧ ¬ Broadcast id

theorem select_eq_both {id : BitVec 64} : selectRegistry id = .BOTH ↔ Broadcast id := by
  rw [selectRegistry_eq,Broadcast]
  split
  · simp [*]
  · split <;> simp [*]

theorem Broadcast.slot {id : BitVec 64} (h : Broadcast id) : slotOfId id = broadcastSlot := by
  apply Fin.ext
  have : id.toNat%65536 = 0xFFFF := h
  show id.toNat%1024 = 1023
  omega

theorem Stray.slot {id : BitVec 64} (h : Stray id) : slotOfId id = broadcastSlot :=
  Fin.ext h.1

theorem Stray.select {id : BitVec 64} (h : Stray id) : selectRegistry id = .QM := by
  obtain ⟨hslot,hne⟩ := h
  have hrange : ¬ (0xF001 ≤ id.toNat%65536 ∧ id.toNat%65536 ≤ 0xF3FE) := by omega
  have hne' : ¬ id.toNat%65536 = 0xFFFF := hne
  rw [selectRegistry_eq,if_neg hne',if_neg hrange]

def Op.onSlot : Op → ServiceSlot → ServiceSlot
  | .registerService r, s =>
      if s.fields.isActive then s else writeSection (registerStores r) s
  | .unregisterService _, s => writeSection resetStores s
  | .findService _, s => s
  | .updateHeartbeat _ t, s => writeSection (heartbeatStores t) s

theorem onBank_apply (op : Op) (bank : Bank) (i j : SlotIndex) :
    (op.onBank bank i).2 j = if j = i then op.onSlot (bank i) else bank j := by
  by_cases hj : j = i
  · subst hj
    cases op with
    | registerService r => cases h : (bank j).fields.isActive <;> simp [Op.onBank,Op.onSlot,h]
    | findService id => simp [Op.onBank,Op.onSlot]
    | unregisterService id => simp [Op.onBank,Op.onSlot]
    | updateHeartbeat id t => simp [Op.onBank,Op.onSlot]
  · cases op with
    | registerService r => cases h : (bank i).fields.isActive <;> simp [Op.onBank,h,hj]
    | findService id => simp [Op.onBank,hj]
    | unregisterService id => simp [Op.onBank,hj]
    | updateHeartbeat id t => simp [Op.onBank,hj]

theorem next_broadcastSlots (qm asil : Bank) (op : Op) :
    ∃ qm' asil', next (mapped qm asil) op = mapped qm' asil' ∧
      ((Broadcast op.serviceId ∧ qm' broadcastSlot = op.onSlot (qm broadcastSlot) ∧
          asil' broadcastSlot = op.onSlot (asil broadcastSlot)) ∨
        (Stray op.serviceId ∧ qm' broadcastSlot = op.onSlot (qm broadcastSlot) ∧
          asil' broadcastSlot = asil broadcastSlot) ∨
        (¬ Broadcast op.serviceId ∧ ¬ Stray op.serviceId ∧
          qm' broadcastSlot = qm broadcastSlot ∧ asil' broadcastSlot = asil broadcastSlot)) := by
  rw [next,exec_mapped]
  by_cases h0 : op.serviceId.toNat%1024 = 0
  · have hb : ¬ Broadcast op.serviceId := by unfold Broadcast; omega
    have hs : ¬ Stray op.serviceId := fun h => by have := h.1; omega
    rw [if_pos h0]
    exact ⟨qm,asil,rfl,.inr (.inr ⟨hb,hs,rfl,rfl⟩)⟩
  rw [if_neg h0]
  by_cases hb : Broadcast op.serviceId
  · rw [select_eq_both.mpr hb,hb.slot]
    exact ⟨_,_,rfl,.inl ⟨hb,by simp [onBank_apply],by simp [onBank_apply]⟩⟩
  by_cases hs : Stray op.serviceId
  · rw [hs.select,hs.slot]
    exact ⟨_,_,rfl,.inr (.inl ⟨hs,by simp [onBank_apply],rfl⟩)⟩
  have hslot : broadcastSlot ≠ slotOfId op.serviceId := by
    intro h
    have hmod : 1023 = op.serviceId.toNat%1024 := congrArg Fin.val h
    exact hs ⟨hmod.symm,hb⟩
  cases hreg : selectRegistry op.serviceId with
  | QM => exact ⟨_,_,rfl,.inr (.inr ⟨hb,hs,by simp [onBank_apply,hslot],rfl⟩)⟩
  | ASIL => exact ⟨_,_,rfl,.inr (.inr ⟨hb,hs,rfl,by simp [onBank_apply,hslot]⟩)⟩
  | BOTH => exact absurd (select_eq_both.mp hreg) hb

def SingleRegistry.slotAt (reg : SingleRegistry) (i : SlotIndex) : Option ServiceSlot :=
  reg.slots.map fun bank => bank i

def SingleRegistry.Registered (reg : SingleRegistry) (id : BitVec 64) : Prop :=
  ∃ s, reg.slotAt broadcastSlot = some s ∧ s.fields.isActive = true ∧ s.fields.serviceId = id

/-- What a broadcast asks of one operation: an error changes neither slot, and
afterwards the two registries agree. -/
structure AllOrNothing (reg : SharedMemoryRegistry) (op : Op) : Prop where
  refused : ∀ e, Broadcast op.serviceId → (op.exec reg).1 = .status (.error e) →
    (∃ r, op = .registerService r) ∨ (∃ id, op = .unregisterService id) →
      (next reg op).qm.slotAt broadcastSlot = reg.qm.slotAt broadcastSlot ∧
        (next reg op).asil.slotAt broadcastSlot = reg.asil.slotAt broadcastSlot
  agree : ∀ id, Broadcast id → ((next reg op).qm.Registered id ↔ (next reg op).asil.Registered id)

/-- No broadcast is registered while an ordinary id holds the QM slot, and no
ordinary id is unregistered while a broadcast holds it. -/
def KeepsBroadcastSlot (reg : SharedMemoryRegistry) : Op → Prop
  | .registerService r => Broadcast r.serviceId → ∀ s, reg.qm.slotAt broadcastSlot = some s →
      s.fields.isActive = true → Broadcast s.fields.serviceId
  | .unregisterService id => Stray id → ∀ s, reg.qm.slotAt broadcastSlot = some s →
      s.fields.isActive = true → ¬ Broadcast s.fields.serviceId
  | _ => True

def InStep (q a : ServiceSlot) : Prop :=
  (q.fields.isActive = true ∧ a.fields.isActive = true ∧ Broadcast q.fields.serviceId ∧
      q.fields.serviceId = a.fields.serviceId) ∨
    (a.fields.isActive = false ∧ (q.fields.isActive = true → ¬ Broadcast q.fields.serviceId))

theorem registered_iff (qm asil : Bank) (id : BitVec 64) :
    ((mapped qm asil).qm.Registered id ↔ (qm broadcastSlot).fields.isActive = true ∧
        (qm broadcastSlot).fields.serviceId = id) ∧
      ((mapped qm asil).asil.Registered id ↔ (asil broadcastSlot).fields.isActive = true ∧
        (asil broadcastSlot).fields.serviceId = id) := by
  simp [SingleRegistry.Registered,SingleRegistry.slotAt,mapped]

theorem InStep.agree {qm asil : Bank} (h : InStep (qm broadcastSlot) (asil broadcastSlot))
    {id : BitVec 64} (hid : Broadcast id) :
    (mapped qm asil).qm.Registered id ↔ (mapped qm asil).asil.Registered id := by
  rw [(registered_iff qm asil id).1,(registered_iff qm asil id).2]
  obtain ⟨hq,ha,_,hsame⟩ | ⟨ha,hq⟩ := h
  · rw [hq,ha,hsame]
  · constructor
    · rintro ⟨hactive,rfl⟩
      exact absurd hid (hq hactive)
    · rintro ⟨hactive,_⟩
      rw [ha] at hactive; cases hactive

theorem exec_broadcast (qm asil : Bank) {op : Op} (h : Broadcast op.serviceId) :
    (op.exec (mapped qm asil)).1 = op.both (op.onBank qm broadcastSlot).1
      (op.onBank asil broadcastSlot).1 := by
  have h0 : ¬ op.serviceId.toNat%1024 = 0 := by unfold Broadcast at h; omega
  rw [exec_mapped,if_neg h0,select_eq_both.mpr h,h.slot]

theorem onSlot_register (r : Registration) (s : ServiceSlot) :
    (Op.registerService r).onSlot s =
      if s.fields.isActive = true then s else
        ⟨s.sequence+1+1,r.record s.fields.metadata⟩ := by
  simp [Op.onSlot,writeSection,applyStores_register]

theorem onSlot_unregister (id : BitVec 64) (s : ServiceSlot) :
    ((Op.unregisterService id).onSlot s).fields = .empty := applyStores_reset _

theorem onSlot_heartbeat (id t : BitVec 64) (s : ServiceSlot) :
    ((Op.updateHeartbeat id t).onSlot s).fields = { s.fields with lastHeartbeatNs := t } := rfl

theorem InStep.broadcast {q a : ServiceSlot} {op : Op} (h : InStep q a)
    (hop : Broadcast op.serviceId) (hfree : ∀ r, op = .registerService r →
      q.fields.isActive = true → Broadcast q.fields.serviceId) :
    InStep (op.onSlot q) (op.onSlot a) := by
  cases op with
  | findService id => exact h
  | unregisterService id => exact .inr (by simp [onSlot_unregister])
  | updateHeartbeat id t =>
    simp only [InStep,onSlot_heartbeat]
    exact h
  | registerService r =>
    rw [onSlot_register,onSlot_register]
    obtain ⟨hq,ha,hb,hsame⟩ | ⟨ha,hq⟩ := h
    · rw [if_pos hq,if_pos ha]
      exact .inl ⟨hq,ha,hb,hsame⟩
    · have hidle : ¬ q.fields.isActive = true := fun hactive => hq hactive (hfree r rfl hactive)
      rw [if_neg hidle,if_neg (by simp [ha])]
      exact .inl ⟨rfl,rfl,hop,rfl⟩

theorem InStep.stray {q a : ServiceSlot} {op : Op} (h : InStep q a) (hop : Stray op.serviceId)
    (hfree : ∀ id, op = .unregisterService id → q.fields.isActive = true →
      ¬ Broadcast q.fields.serviceId) : InStep (op.onSlot q) a := by
  cases op with
  | findService id => exact h
  | updateHeartbeat id t =>
    simp only [InStep,onSlot_heartbeat]
    exact h
  | unregisterService id =>
    obtain ⟨hq,_,hb,_⟩ | ⟨ha,_⟩ := h
    · exact absurd hb (hfree id rfl hq)
    · exact .inr ⟨ha,by simp [onSlot_unregister]⟩
  | registerService r =>
    rw [onSlot_register]
    by_cases hactive : q.fields.isActive = true
    · rw [if_pos hactive]
      exact h
    · rw [if_neg hactive]
      obtain ⟨hq,_⟩ | ⟨ha,_⟩ := h
      · exact absurd hq hactive
      · exact .inr ⟨ha,fun _ => hop.2⟩

theorem refused_slots {qm asil : Bank} {op : Op} {e : ErrorCode}
    (hinstep : InStep (qm broadcastSlot) (asil broadcastSlot)) (hop : Broadcast op.serviceId)
    (hfree : KeepsBroadcastSlot (mapped qm asil) op)
    (hkind : (∃ r, op = .registerService r) ∨ ∃ id, op = .unregisterService id)
    (herr : (op.exec (mapped qm asil)).1 = .status (.error e)) :
    op.onSlot (qm broadcastSlot) = qm broadcastSlot ∧
      op.onSlot (asil broadcastSlot) = asil broadcastSlot := by
  rw [exec_broadcast qm asil hop] at herr
  obtain ⟨r,rfl⟩ | ⟨id,rfl⟩ := hkind
  · rw [onSlot_register,onSlot_register]
    obtain ⟨hq,ha,_⟩ | ⟨ha,hq⟩ := hinstep
    · rw [if_pos hq,if_pos ha]
      exact ⟨rfl,rfl⟩
    · have hidle : (qm broadcastSlot).fields.isActive = false := by
        cases hactive : (qm broadcastSlot).fields.isActive with
        | false => rfl
        | true => exact absurd (hfree hop _ rfl hactive) (hq hactive)
      simp [Op.onBank,hidle,ha,Op.both] at herr
  · simp [Op.onBank,Op.both] at herr

theorem InStep.next {qm asil : Bank} {op : Op}
    (h : InStep (qm broadcastSlot) (asil broadcastSlot))
    (hfree : KeepsBroadcastSlot (mapped qm asil) op) :
    ∃ qm' asil', Registry.next (mapped qm asil) op = mapped qm' asil' ∧
      InStep (qm' broadcastSlot) (asil' broadcastSlot) := by
  obtain ⟨qm',asil',hnext,⟨hb,hq,ha⟩ | ⟨hs,hq,ha⟩ | ⟨_,_,hq,ha⟩⟩ := next_broadcastSlots qm asil op
  · refine ⟨qm',asil',hnext,?_⟩
    rw [hq,ha]
    refine h.broadcast hb ?_
    rintro r rfl hactive
    exact hfree hb _ rfl hactive
  · refine ⟨qm',asil',hnext,?_⟩
    rw [hq,ha]
    refine h.stray hs ?_
    rintro id rfl hactive
    exact hfree hs _ rfl hactive
  · exact ⟨qm',asil',hnext,by rw [hq,ha]; exact h⟩

theorem slotAt_mapped (qm asil : Bank) (i : SlotIndex) :
    (mapped qm asil).qm.slotAt i = some (qm i) ∧ (mapped qm asil).asil.slotAt i = some (asil i) :=
  ⟨rfl,rfl⟩

/-- While the slots are in step, an operation is all-or-nothing just where it
keeps the broadcast slot. -/
theorem allOrNothing_iff {qm asil : Bank} (op : Op)
    (h : InStep (qm broadcastSlot) (asil broadcastSlot)) :
    AllOrNothing (mapped qm asil) op ↔ KeepsBroadcastSlot (mapped qm asil) op := by
  constructor
  · intro hall
    obtain ⟨qm',asil',hnext,hslots⟩ := next_broadcastSlots qm asil op
    cases op with
    | findService id => trivial
    | updateHeartbeat id t => trivial
    | registerService r =>
      rintro hb s ⟨⟩ hactive
      obtain ⟨_,_,hbq,_⟩ | ⟨ha,_⟩ := h
      · exact hbq
      · have herr : ((Op.registerService r).exec (mapped qm asil)).1 =
            .status (fail .kServiceNotOffered 0) := by
          rw [exec_broadcast qm asil (show Broadcast (Op.registerService r).serviceId from hb)]
          simp [Op.onBank,hactive,ha,Op.both,fail]
        obtain ⟨_,hsame⟩ := hall.refused _ hb herr (.inl ⟨r,rfl⟩)
        obtain ⟨_,_,ha'⟩ | ⟨hs,_⟩ | ⟨hne,_⟩ := hslots
        · rw [hnext,(slotAt_mapped qm' asil' _).2,(slotAt_mapped qm asil _).2,ha',
            onSlot_register,if_neg (by simp [ha]),Option.some.injEq] at hsame
          rw [← hsame] at ha
          cases ha
        · exact absurd hb hs.2
        · exact absurd hb hne
    | unregisterService id =>
      rintro hs s ⟨⟩ hactive hb
      obtain ⟨_,ha,_,hid⟩ | ⟨_,hq⟩ := h
      · obtain ⟨hne,_⟩ | ⟨_,hq',ha'⟩ | ⟨_,hne,_⟩ := hslots
        · exact absurd hne hs.2
        · have hagree := hall.agree _ hb
          rw [hnext,(registered_iff qm' asil' _).1,(registered_iff qm' asil' _).2,hq',ha',
            onSlot_unregister] at hagree
          have := hagree.mpr ⟨ha,hid.symm⟩
          cases this.1
        · exact absurd hs hne
      · exact hq hactive hb
  · intro hfree
    obtain ⟨qm',asil',hnext,hinstep⟩ := h.next hfree
    refine ⟨fun e hb herr hkind => ?_,fun id hid => by rw [hnext]; exact hinstep.agree hid⟩
    obtain ⟨hq,ha⟩ := refused_slots h hb hfree hkind herr
    obtain ⟨qm'',asil'',hnext',⟨_,hq',ha'⟩ | ⟨hs,_⟩ | ⟨hne,_⟩⟩ := next_broadcastSlots qm asil op
    · rw [hnext',(slotAt_mapped qm'' asil'' _).1,(slotAt_mapped qm'' asil'' _).2,hq',ha',hq,ha]
      exact ⟨rfl,rfl⟩
    · exact absurd hb hs.2
    · exact absurd hb hne

/-- Broadcasts are all-or-nothing in just the runs that keep the QM broadcast slot
for them. -/
theorem broadcast_allOrNothing_iff (σ : Nat → Op) (n : Nat) :
    (∀ k, k < n → AllOrNothing (stateAt next .initialized σ k) (σ k)) ↔
      ∀ k, k < n → KeepsBroadcastSlot (stateAt next .initialized σ k) (σ k) := by
  refine forall_iff_of_invariant (I := fun k => ∃ qm asil, stateAt next .initialized σ k =
    mapped qm asil ∧ InStep (qm broadcastSlot) (asil broadcastSlot))
    ⟨_,_,rfl,.inr ⟨rfl,fun h => by cases h⟩⟩ ?_ ?_
  · rintro k ⟨qm,asil,hk,hinstep⟩ hfree
    rw [hk] at hfree
    rw [stateAt_succ,hk]
    exact hinstep.next hfree
  · rintro k ⟨qm,asil,hk,hinstep⟩
    rw [hk]
    exact allOrNothing_iff (σ k) hinstep

def strayFirst : Nat → Op :=
  schedule [.registerService (plainRegistration 0x03FF 1)]
    (.registerService (plainRegistration 0xFFFF 1))

theorem half_registered_broadcast :
    ¬ ∀ k, k < 2 → AllOrNothing (stateAt next .initialized strayFirst k) (strayFirst k) := by
  intro h
  have hagree := (h 1 (by omega)).agree 0xFFFF rfl
  obtain ⟨s,hs,_,hid⟩ := hagree.mpr ⟨_,rfl,rfl,rfl⟩
  cases hs
  revert hid
  decide +kernel

end LapCom.Registry
