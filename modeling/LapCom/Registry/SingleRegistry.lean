import LapCom.Registry.ServiceSlot
import LapCom.SeqLock.Solo

set_option autoImplicit false

namespace LapCom.Registry
open LapCom.SeqLock

def maxSlots : Nat := 1024

abbrev SlotIndex := Fin maxSlots

def validSlot? (slotIndex : BitVec 32) : Option SlotIndex :=
  if h : 0 < slotIndex.toNat ∧ slotIndex.toNat < maxSlots then some ⟨slotIndex.toNat,h.2⟩ else none

abbrev Bank := SlotIndex → ServiceSlot

def Bank.fresh : Bank := fun _ => .new

/-- `slots_` is null until the registry is initialised. -/
structure SingleRegistry where
  slots : Option Bank

namespace SingleRegistry

/-- The checks every operation on a given slot starts with. -/
def onSlot (reg : SingleRegistry) (slotIndex : BitVec 32)
    (body : Bank → SlotIndex → Result Unit × Bank) : Result Unit × SingleRegistry :=
  match reg.slots with
  | none => (fail .kNotInitialized 0,reg)
  | some bank =>
    match validSlot? slotIndex with
    | none => (fail .kInvalidArgument 0,reg)
    | some i => ((body bank i).1,⟨some (body bank i).2⟩)

def registerService (reg : SingleRegistry) (slotIndex : BitVec 32) (r : Registration) :
    Result Unit × SingleRegistry :=
  reg.onSlot slotIndex fun bank i =>
    if (bank i).fields.isActive then (fail .kServiceNotOffered 0,bank)
    else (.ok (),Function.update bank i (writeSection (registerStores r) (bank i)))

def unregisterService (reg : SingleRegistry) (slotIndex : BitVec 32) :
    Result Unit × SingleRegistry :=
  reg.onSlot slotIndex fun bank i =>
    (.ok (),Function.update bank i (writeSection resetStores (bank i)))

def updateHeartbeat (reg : SingleRegistry) (slotIndex : BitVec 32) (timestampNs : BitVec 64) :
    Result Unit × SingleRegistry :=
  reg.onSlot slotIndex fun bank i =>
    (.ok (),Function.update bank i (writeSection (heartbeatStores timestampNs) (bank i)))

/-- A slot read under the id 0 means not found. -/
def filterFound : Option ServiceSlot → Option ServiceSlot
  | some slot => if slot.fields.serviceId = 0 then none else some slot
  | none => none

def findService (reg : SingleRegistry) (serviceId : BitVec 64) : Option ServiceSlot :=
  match reg.slots with
  | none => none
  | some bank =>
    match validSlot? ((serviceId &&& 1023).setWidth 32) with
    | none => none
    | some i => filterFound (read (findFunc serviceId) (bank i))

def readSlot (reg : SingleRegistry) (slotIndex : BitVec 32) : Option ServiceSlot :=
  match reg.slots with
  | none => none
  | some bank =>
    match validSlot? slotIndex with
    | none => none
    | some i => read copySlot (bank i)

end SingleRegistry

inductive Call where
  | registerService : BitVec 32 → Registration → Call
  | unregisterService : BitVec 32 → Call
  | updateHeartbeat : BitVec 32 → BitVec 64 → Call
  | findService : BitVec 64 → Call
  | readSlot : BitVec 32 → Call

def onValid (slotIndex : BitVec 32)
    (body : SlotIndex → Program SlotIndex SlotFields ServiceSlot) :
    Program SlotIndex SlotFields ServiceSlot :=
  match validSlot? slotIndex with
  | none => .reject
  | some i => body i

def Call.program : Call → Program SlotIndex SlotFields ServiceSlot
  | .registerService slotIndex r =>
      onValid slotIndex fun i => .checkedWrite i (fun d => !d.isActive) (registerStores r)
  | .unregisterService slotIndex => onValid slotIndex fun i => .write i resetStores
  | .updateHeartbeat slotIndex timestampNs =>
      onValid slotIndex fun i => .write i (heartbeatStores timestampNs)
  | .findService serviceId =>
      onValid ((serviceId &&& 1023).setWidth 32) fun i => .read i (findFunc serviceId)
  | .readSlot slotIndex => onValid slotIndex fun i => .read i copySlot

/-- The registry that processes of type `P` share. -/
abbrev SharedBank (P : Type) := Machine P Call SlotIndex SlotFields ServiceSlot

abbrev CallEvent (P : Type) := Event P Call

def statusOf : Outcome ServiceSlot → Result Unit
  | .rejected => fail .kInvalidArgument 0
  | .refused => fail .kServiceNotOffered 0
  | _ => .ok ()

def slotOf : Outcome ServiceSlot → Option ServiceSlot
  | .value v => v
  | _ => none

def foundOf (outcome : Outcome ServiceSlot) : Option ServiceSlot :=
  SingleRegistry.filterFound (slotOf outcome)

theorem registerService_solo (bank : Bank) (slotIndex : BitVec 32) (r : Registration) :
    SingleRegistry.registerService ⟨some bank⟩ slotIndex r =
      (statusOf (soloRun (Call.registerService slotIndex r).program bank).1,
        ⟨some (soloRun (Call.registerService slotIndex r).program bank).2⟩) := by
  simp only [SingleRegistry.registerService,SingleRegistry.onSlot,Call.program,onValid]
  cases validSlot? slotIndex with
  | none => rfl
  | some i => cases h : (bank i).fields.isActive <;> simp [soloRun,h,statusOf]

theorem unregisterService_solo (bank : Bank) (slotIndex : BitVec 32) :
    SingleRegistry.unregisterService ⟨some bank⟩ slotIndex =
      (statusOf (soloRun (Call.unregisterService slotIndex).program bank).1,
        ⟨some (soloRun (Call.unregisterService slotIndex).program bank).2⟩) := by
  simp only [SingleRegistry.unregisterService,SingleRegistry.onSlot,Call.program,onValid]
  cases validSlot? slotIndex <;> rfl

theorem updateHeartbeat_solo (bank : Bank) (slotIndex : BitVec 32) (timestampNs : BitVec 64) :
    SingleRegistry.updateHeartbeat ⟨some bank⟩ slotIndex timestampNs =
      (statusOf (soloRun (Call.updateHeartbeat slotIndex timestampNs).program bank).1,
        ⟨some (soloRun (Call.updateHeartbeat slotIndex timestampNs).program bank).2⟩) := by
  simp only [SingleRegistry.updateHeartbeat,SingleRegistry.onSlot,Call.program,onValid]
  cases validSlot? slotIndex <;> rfl

theorem findService_solo (bank : Bank) (serviceId : BitVec 64) :
    SingleRegistry.findService ⟨some bank⟩ serviceId =
      foundOf (soloRun (Call.findService serviceId).program bank).1 := by
  simp only [SingleRegistry.findService,Call.program,onValid]
  cases validSlot? ((serviceId &&& 1023).setWidth 32) <;> rfl

theorem readSlot_solo (bank : Bank) (slotIndex : BitVec 32) :
    SingleRegistry.readSlot ⟨some bank⟩ slotIndex =
      slotOf (soloRun (Call.readSlot slotIndex).program bank).1 := by
  simp only [SingleRegistry.readSlot,Call.program,onValid]
  cases validSlot? slotIndex <;> rfl

end LapCom.Registry
