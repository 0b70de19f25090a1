import LapCom.Registry.Lookup
import LapCom.Registry.Processes

set_option autoImplicit false

/-! What the processes find in the memories that they share. -/

namespace LapCom.Processes
open LapCom.SeqLock LapCom.Machine LapCom.Registry

/-- What a slot is for: the registration that has taken it, and the time of its last heartbeat. -/
abbrev Cell := Option (Registration × BitVec 64)

abbrev Cells := SlotIndex → Cell

def onCell : Op → Cell → Cell
  | .registerService r, none => some (r,r.now)
  | .registerService _, some held => some held
  | .unregisterService _, _ => none
  | .findService _, cell => cell
  | .updateHeartbeat _ t, cell => cell.map fun held => (held.1,t)

def onCells (t : RegistryType) (op : Op) (cells : Cells) : Cells :=
  if Addresses t op.serviceId then
    Function.update cells (slotOfId op.serviceId) (onCell op (cells (slotOfId op.serviceId)))
  else cells

def Taken (t : RegistryType) (cells : Cells) (id : BitVec 64) : Prop :=
  Addresses t id ∧ (cells (slotOfId id)).isSome

instance (t : RegistryType) (cells : Cells) (id : BitVec 64) : Decidable (Taken t cells id) :=
  inferInstanceAs (Decidable (_ ∧ _))

/-- What a process sees of a reply. -/
inductive Seen where
  | status (result : Result Unit)
  | found (fields : Option SlotFields)

def seen : Reply → Seen
  | .status result => .status result
  | .found slot => .found (slot.map fun s => s.fields)

def recordOf (held : Registration × BitVec 64) : SlotFields :=
  { held.1.record (zeros 64) with lastHeartbeatNs := held.2 }

def foundIn (id : BitVec 64) : Cell → Option SlotFields
  | none => none
  | some held => if held.1.serviceId = id then some (recordOf held) else none

def answer (qm asil : Cells) : Op → Seen
  | .registerService r =>
    if r.serviceId.toNat%1024 = 0 then .status (fail .kInvalidArgument 0)
    else if Taken .QM qm r.serviceId ∨ Taken .ASIL asil r.serviceId then
      .status (fail .kServiceNotOffered 0)
    else .status (.ok ())
  | .unregisterService id =>
    if id.toNat%1024 = 0 then .status (fail .kInvalidArgument 0) else .status (.ok ())
  | .findService id =>
    .found (foundIn id ((if selectRegistry id = .ASIL then asil else qm) (slotOfId id)))
  | .updateHeartbeat id _ =>
    if id.toNat%1024 = 0 then .status (fail .kInvalidArgument 0) else .status (.ok ())

def Side.type : Side → RegistryType
  | .qm => .QM
  | .asil => .ASIL

/-- The cells of the memory `o`: every process that has it attached operates on them. -/
def cellsAt (σ : Nat → Event) (side : Side) (o : Nat) : Nat → Cells
  | 0 => fun _ => none
  | n+1 =>
    match σ n with
    | .operate p op =>
      if (systemAt σ n).attached p side = some o then onCells side.type op (cellsAt σ side o n)
      else cellsAt σ side o n
    | _ => cellsAt σ side o n

section Slots
variable {t : RegistryType} {k : SlotIndex} {s : ServiceSlot} {cell : Cell}

def HoldsCell (s : ServiceSlot) : Cell → Prop
  | none => s.fields.isActive = false
  | some held => s.fields = recordOf held

theorem HoldsCell.isActive (h : HoldsCell s cell) : s.fields.isActive = cell.isSome := by
  cases cell with
  | none => exact h
  | some held =>
    rw [show s.fields = recordOf held from h]
    rfl

theorem HoldsCell.onSlot (h : HoldsCell s cell) (hinv : SlotInv t k s) (op : Op) :
    HoldsCell (op.onSlot s) (onCell op cell) := by
  cases op with
  | registerService r =>
    have hactive := h.isActive
    rw [onSlot_register]
    cases cell with
    | none =>
      have hfree : s.fields.isActive = false := hactive
      have hmetadata : s.fields.metadata = zeros 64 := by
        rw [hinv.inactive hfree]
        rfl
      rw [hfree,if_neg Bool.false_ne_true,hmetadata]
      rfl
    | some held =>
      have htaken : s.fields.isActive = true := hactive
      rw [if_pos htaken]
      exact h
  | unregisterService id =>
    show (Op.onSlot (.unregisterService id) s).fields.isActive = false
    rw [onSlot_unregister]
    rfl
  | findService id => exact h
  | updateHeartbeat id timestampNs =>
    cases cell with
    | none => exact h
    | some held =>
      have hfields : s.fields = recordOf held := h
      show (Op.onSlot (.updateHeartbeat id timestampNs) s).fields = recordOf (held.1,timestampNs)
      rw [onSlot_heartbeat,hfields]
      rfl

end Slots

section Banks
variable {t : RegistryType} {bank qm asil : Bank} {cells : Cells}

/-- The memory of a registry holds the cells. -/
structure HoldsCells (t : RegistryType) (bank : Bank) (cells : Cells) : Prop where
  inv : BankInv t bank
  slots : ∀ k, HoldsCell (bank k) (cells k)

theorem HoldsCells.fresh (t : RegistryType) : HoldsCells t .fresh fun _ => none :=
  ⟨.fresh t,fun _ => rfl⟩

theorem bankInv_onRegistry (h : BankInv t bank) (op : Op) : BankInv t (op.onRegistry t bank) := by
  rw [Op.onRegistry]
  split_ifs with haddr
  · rw [← onBank_bank]
    exact h.onBank haddr.1 haddr.2
  · exact h

theorem HoldsCells.onRegistry (h : HoldsCells t bank cells) (op : Op) :
    HoldsCells t (op.onRegistry t bank) (onCells t op cells) := by
  refine ⟨bankInv_onRegistry h.inv op,fun k => ?_⟩
  rw [Op.onRegistry,onCells]
  split_ifs
  · by_cases hk : k = slotOfId op.serviceId
    · subst hk
      rw [Function.update_self,Function.update_self]
      exact (h.slots _).onSlot (h.inv.slots _) op
    · rw [Function.update_of_ne hk,Function.update_of_ne hk]
      exact h.slots k
  · exact h.slots k

theorem HoldsCells.taken_iff (h : HoldsCells t bank cells) {id : BitVec 64} :
    Taken t cells id ↔ Addresses t id ∧ (bank (slotOfId id)).fields.isActive = true := by
  rw [Taken,(h.slots (slotOfId id)).isActive]

theorem foundIn_eq {s : ServiceSlot} {cell : Cell} (h : HoldsCell s cell) (id : BitVec 64) :
    foundIn id cell = if HoldsService id s then some s.fields else none := by
  cases cell with
  | none =>
    have hfree : s.fields.isActive = false := h
    rw [if_neg]
    · rfl
    · rintro ⟨hactive,_⟩
      rw [hfree] at hactive
      cases hactive
  | some held =>
    have hfields : s.fields = recordOf held := h
    have hholds : HoldsService id s ↔ held.1.serviceId = id := by
      rw [HoldsService,hfields]
      exact ⟨fun h => h.2,fun h => ⟨rfl,h⟩⟩
    by_cases hid : held.1.serviceId = id
    · rw [if_pos (hholds.mpr hid),hfields,foundIn,if_pos hid]
    · rw [if_neg (hid ∘ hholds.mp),foundIn,if_neg hid]

/-- What an initialised registry answers is what its cells answer. -/
theorem exec_answer {qmCells asilCells : Cells} (hqm : HoldsCells .QM qm qmCells)
    (hasil : HoldsCells .ASIL asil asilCells) (op : Op) :
    seen (op.exec (mapped qm asil)).1 = answer qmCells asilCells op := by
  cases op with
  | registerService r =>
    simp only [answer,hqm.taken_iff,hasil.taken_iff]
    rw [exec_mapped]
    by_cases h0 : r.serviceId.toNat%1024 = 0
    · simp [Op.serviceId,h0,Op.refusal,seen]
    · cases hselect : selectRegistry r.serviceId <;>
        cases hq : (qm (slotOfId r.serviceId)).fields.isActive <;>
        cases ha : (asil (slotOfId r.serviceId)).fields.isActive <;>
        simp [Op.serviceId,h0,hselect,hq,ha,Addresses,Routes,Op.onBank,Op.both,seen,fail]
  | unregisterService id =>
    rw [answer,exec_mapped]
    by_cases h0 : id.toNat%1024 = 0
    · simp [Op.serviceId,h0,Op.refusal,seen]
    · cases hselect : selectRegistry id <;> simp [Op.serviceId,h0,hselect,Op.onBank,Op.both,seen]
  | updateHeartbeat id timestampNs =>
    rw [answer,exec_mapped]
    by_cases h0 : id.toNat%1024 = 0
    · simp [Op.serviceId,h0,Op.refusal,seen]
    · cases hselect : selectRegistry id <;> simp [Op.serviceId,h0,hselect,Op.onBank,Op.both,seen]
  | findService id =>
    have hcell : HoldsCell (searched id qm asil (slotOfId id))
        ((if selectRegistry id = .ASIL then asilCells else qmCells) (slotOfId id)) := by
      rw [searched]
      split_ifs
      · exact hasil.slots _
      · exact hqm.slots _
    obtain ⟨t,hinv⟩ := BankInv.searched hqm.inv hasil.inv id
    have heven := hinv.not_writing
    show Seen.found (((mapped qm asil).findService id).map fun s => s.fields) = _
    rw [findService_mapped heven,answer,foundIn_eq hcell]
    by_cases hholds : HoldsService id (searched id qm asil (slotOfId id))
    · have h0 : id.toNat%1024 ≠ 0 := by
        have hactive := hinv.active hholds.1
        rw [hholds.2,and_slotOfId] at hactive
        exact hactive.2.1
      rw [if_pos ⟨h0,hholds⟩,if_pos hholds]
      rfl
    · rw [if_neg fun h => hholds h.2,if_neg hholds]
      rfl

end Banks

section Sides

theorem next_apart (reg reg' : SharedMemoryRegistry) (op : Op) :
    (reg.qm = reg'.qm → (next reg op).qm = (next reg' op).qm) ∧
      (reg.asil = reg'.asil → (next reg op).asil = (next reg' op).asil) := by
  obtain ⟨qm,asil⟩ := reg
  obtain ⟨qm',asil'⟩ := reg'
  constructor
  all_goals
    rintro rfl
    cases op with
    | registerService r =>
      simp only [next,Op.exec,SharedMemoryRegistry.registerService]
      by_cases h0 : calculateSlot r.serviceId = 0
      · simp only [if_pos h0]
      · simp only [if_neg h0]
        cases selectRegistry r.serviceId <;> rfl
    | unregisterService id =>
      simp only [next,Op.exec,SharedMemoryRegistry.unregisterService,
        SharedMemoryRegistry.onSelected]
      by_cases h0 : calculateSlot id = 0
      · simp only [if_pos h0]
      · simp only [if_neg h0]
        cases selectRegistry id <;> rfl
    | findService id => rfl
    | updateHeartbeat id timestampNs =>
      simp only [next,Op.exec,SharedMemoryRegistry.updateHeartbeat,
        SharedMemoryRegistry.onSelected]
      by_cases h0 : calculateSlot id = 0
      · simp only [if_pos h0]
      · simp only [if_neg h0]
        cases selectRegistry id <;> rfl

theorem written_self (f : Fleet) (o : Nat) (bank : Bank) :
    (f.written (some o) ⟨some bank⟩).kernel.memory o = bank :=
  Function.update_self (β := fun _ => Bank) o bank f.kernel.memory

theorem memory_operate {s : System} {p o : Nat} {side : Side}
    (h : s.attached p side = some o) (op : Op) :
    ((s.operate p op).fleets side).kernel.memory o =
      op.onRegistry side.type ((s.fleets side).kernel.memory o) := by
  cases side with
  | qm =>
    have hreg : (s.registry p).qm = ⟨some ((s.fleets .qm).kernel.memory o)⟩ := by
      rw [System.registry,h]
      rfl
    have hnext := (next_apart (s.registry p) (mapped _ .fresh) op).1 hreg
    rw [next_mapped] at hnext
    show ((s.fleets .qm).written (s.attached p .qm) (next (s.registry p) op).qm).kernel.memory o = _
    rw [hnext,h]
    exact written_self _ _ _
  | asil =>
    have hreg : (s.registry p).asil = ⟨some ((s.fleets .asil).kernel.memory o)⟩ := by
      rw [System.registry,h]
      rfl
    have hnext := (next_apart (s.registry p) (mapped .fresh _) op).2 hreg
    rw [next_mapped] at hnext
    show ((s.fleets .asil).written (s.attached p .asil)
      (next (s.registry p) op).asil).kernel.memory o = _
    rw [hnext,h]
    exact written_self _ _ _

end Sides

theorem cells_held (σ : Nat → Event) (side : Side) (o n : Nat) :
    HoldsCells side.type (((systemAt σ n).fleets side).kernel.memory o) (cellsAt σ side o n) := by
  induction n with
  | zero => exact .fresh _
  | succ n ih =>
    have hquiet : (∀ p op, σ n ≠ .operate p op) → HoldsCells side.type
        (((systemAt σ (n+1)).fleets side).kernel.memory o) (cellsAt σ side o n) := by
      intro he
      rw [systemAt,stateAt_succ,memory_next (numbered_at σ n) he]
      exact ih
    rw [cellsAt]
    cases he : σ n with
    | operate p op =>
      have hsucc : systemAt σ (n+1) = (systemAt σ n).operate p op := by
        rw [systemAt,stateAt_succ,he]
        rfl
      rw [hsucc]
      by_cases hattached : (systemAt σ n).attached p side = some o
      · simp only [if_pos hattached]
        rw [memory_operate hattached]
        exact ih.onRegistry op
      · simp only [if_neg hattached]
        rw [(operate_frame (systemAt σ n) p op side).2.2.2 o hattached]
        exact ih
    | daemon side d e => exact hquiet (by simp [he])
    | receive p side client => exact hquiet (by simp [he])
    | detach p => exact hquiet (by simp [he])

/-- In every run of daemons and processes each slot of each memory is a cell, which the first
registration takes and the next unregistration of any id of that slot frees: all that a process with
two memories is answered is what their cells answer. -/
theorem answered_by_cells (σ : Nat → Event) (n p q x : Nat) (h : (systemAt σ n).Has p q x)
    (op : Op) :
    seen ((systemAt σ n).reply p op) = answer (cellsAt σ .qm q n) (cellsAt σ .asil x n) op := by
  rw [System.reply,Has.registry h]
  exact exec_answer (cells_held σ .qm q n) (cells_held σ .asil x n) op

theorem answered_by_cells_neighbours :
    seen ((systemAt neighbours 25).reply 2 (.findService 5)) =
      .found (some (recordOf (plainRegistration 5 1,0))) := by
  have hcell : foundIn 5 (cellsAt neighbours .qm 0 25 (slotOfId 5)) =
      some (recordOf (plainRegistration 5 1,0)) := by decide +kernel
  rw [answered_by_cells neighbours 25 2 0 0 (by decide +kernel) (.findService 5)]
  exact congrArg Seen.found hcell

end LapCom.Processes
