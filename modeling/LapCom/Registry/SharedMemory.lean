import LapCom.Registry.SingleRegistry

set_option autoImplicit false

namespace LapCom.Registry

inductive RegistryType where
  | QM | ASIL | BOTH
  deriving DecidableEq, Repr

namespace RegistryConfig

def qmServiceIdMin : BitVec 16 := 0x0001
def qmServiceIdMax : BitVec 16 := 0x0417
def asilServiceIdMin : BitVec 16 := 0xF001
def asilServiceIdMax : BitVec 16 := 0xF3FE
def broadcastServiceId : BitVec 16 := 0xFFFF
def broadcastSlot : SlotIndex := ⟨1023,by decide⟩

end RegistryConfig
open RegistryConfig

structure SharedMemoryRegistry where
  qm : SingleRegistry
  asil : SingleRegistry

def calculateSlot (serviceId : BitVec 64) : BitVec 32 := (serviceId &&& 1023).setWidth 32

def selectRegistry (serviceId : BitVec 64) : RegistryType :=
  let sid : BitVec 16 := (serviceId &&& 0xFFFF).setWidth 16
  if sid = broadcastServiceId then .BOTH
  else if sid ≥ asilServiceIdMin ∧ sid ≤ asilServiceIdMax then .ASIL
  else if sid ≥ qmServiceIdMin ∧ sid ≤ qmServiceIdMax then .QM
  else .QM

namespace SharedMemoryRegistry

def initialized : SharedMemoryRegistry := ⟨⟨some .fresh⟩,⟨some .fresh⟩⟩

/-- The first error of the two registries is the one reported. -/
def registerService (reg : SharedMemoryRegistry) (r : Registration) :
    Result Unit × SharedMemoryRegistry :=
  let slotIndex := calculateSlot r.serviceId
  if slotIndex = 0 then (fail .kInvalidArgument 0,reg)
  else match selectRegistry r.serviceId with
    | .BOTH =>
      let qm := reg.qm.registerService slotIndex r
      let asil := reg.asil.registerService slotIndex r
      (if Result.hasValue qm.1 = false then qm.1 else asil.1,⟨qm.2,asil.2⟩)
    | .ASIL =>
      let asil := reg.asil.registerService slotIndex r
      (asil.1,{ reg with asil := asil.2 })
    | .QM =>
      let qm := reg.qm.registerService slotIndex r
      (qm.1,{ reg with qm := qm.2 })

/-- `UnregisterService` and `UpdateHeartbeat`: the same routing, but for both
registries only the result of the second one is reported. -/
def onSelected (reg : SharedMemoryRegistry) (serviceId : BitVec 64)
    (body : SingleRegistry → BitVec 32 → Result Unit × SingleRegistry) :
    Result Unit × SharedMemoryRegistry :=
  let slotIndex := calculateSlot serviceId
  if slotIndex = 0 then (fail .kInvalidArgument 0,reg)
  else match selectRegistry serviceId with
    | .BOTH => ((body reg.asil slotIndex).1,⟨(body reg.qm slotIndex).2,(body reg.asil slotIndex).2⟩)
    | .ASIL => ((body reg.asil slotIndex).1,{ reg with asil := (body reg.asil slotIndex).2 })
    | .QM => ((body reg.qm slotIndex).1,{ reg with qm := (body reg.qm slotIndex).2 })

def unregisterService (reg : SharedMemoryRegistry) (serviceId : BitVec 64) :
    Result Unit × SharedMemoryRegistry :=
  reg.onSelected serviceId fun bank slotIndex => bank.unregisterService slotIndex

def updateHeartbeat (reg : SharedMemoryRegistry) (serviceId timestampNs : BitVec 64) :
    Result Unit × SharedMemoryRegistry :=
  reg.onSelected serviceId fun bank slotIndex => bank.updateHeartbeat slotIndex timestampNs

def findService (reg : SharedMemoryRegistry) (serviceId : BitVec 64) : Option ServiceSlot :=
  match selectRegistry serviceId with
  | .ASIL => reg.asil.findService serviceId
  | _ => reg.qm.findService serviceId

end SharedMemoryRegistry

inductive Op where
  | registerService : Registration → Op
  | unregisterService : BitVec 64 → Op
  | findService : BitVec 64 → Op
  | updateHeartbeat : BitVec 64 → BitVec 64 → Op

inductive Reply where
  | status : Result Unit → Reply
  | found : Option ServiceSlot → Reply

def Op.serviceId : Op → BitVec 64
  | .registerService r => r.serviceId
  | .unregisterService serviceId => serviceId
  | .findService serviceId => serviceId
  | .updateHeartbeat serviceId _ => serviceId

def Op.exec (reg : SharedMemoryRegistry) : Op → Reply × SharedMemoryRegistry
  | .registerService r => (.status (reg.registerService r).1,(reg.registerService r).2)
  | .unregisterService id => (.status (reg.unregisterService id).1,(reg.unregisterService id).2)
  | .findService id => (.found (reg.findService id),reg)
  | .updateHeartbeat id t => (.status (reg.updateHeartbeat id t).1,(reg.updateHeartbeat id t).2)

def next (reg : SharedMemoryRegistry) (op : Op) : SharedMemoryRegistry := (op.exec reg).2

end LapCom.Registry
