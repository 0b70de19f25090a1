import LapCom.Registry.SharedMemory

set_option autoImplicit false

namespace LapCom.Runtime
open LapCom.Registry

structure Globals where
  initialized : Bool
  dualRegistry : Option SharedMemoryRegistry

def isQmRange (serviceId : BitVec 16) : Bool := serviceId ≥ 0x0001 ∧ serviceId ≤ 0x3fff

def isAsilRange (serviceId : BitVec 16) : Bool := serviceId ≥ 0xF000

def ascii (s : String) : List Byte := s.toList.map fun c => BitVec.ofNat 8 c.toNat

def bindingStr (networkBinding : BitVec 8) : CString :=
  if networkBinding = 0 then ⟨ascii "iceoryx2",by decide⟩
  else if networkBinding = 1 then ⟨ascii "dds",by decide⟩
  else if networkBinding = 2 then ⟨ascii "socket",by decide⟩
  else if networkBinding = 3 then ⟨ascii "dbus",by decide⟩
  else if networkBinding = 4 then ⟨ascii "someip",by decide⟩
  else ⟨ascii "unknown",by decide⟩

inductive Op where
  | registerService (serviceId instanceId : BitVec 16) (networkBinding : BitVec 8)
      (now : BitVec 64) (pid : BitVec 32) : Op
  | findService : BitVec 16 → Op
  | unregisterService : BitVec 16 → Op

def Op.serviceId : Op → BitVec 16
  | .registerService serviceId _ _ _ _ => serviceId
  | .findService serviceId => serviceId
  | .unregisterService serviceId => serviceId

/-- What is handed to the registry: version 1.0 and an empty endpoint. -/
def registration (serviceId instanceId : BitVec 16) (networkBinding : BitVec 8)
    (now : BitVec 64) (pid : BitVec 32) : Registration :=
  ⟨serviceId.setWidth 64,instanceId.setWidth 64,1,0,bindingStr networkBinding,noText,now,pid⟩

def checked (rt : Globals) (serviceId : BitVec 16)
    (body : SharedMemoryRegistry → Result Unit × SharedMemoryRegistry) : Result Unit × Globals :=
  if rt.initialized = false then (fail .kNotInitialized 0,rt)
  else match rt.dualRegistry with
    | none => (fail .kInternal 0,rt)
    | some reg =>
      if isQmRange serviceId = false ∧ isAsilRange serviceId = false then
        (fail .kInvalidArgument serviceId.toNat,rt)
      else ((body reg).1,{ rt with dualRegistry := some (body reg).2 })

def registerService (rt : Globals) (serviceId instanceId : BitVec 16)
    (networkBinding : BitVec 8) (now : BitVec 64) (pid : BitVec 32) : Result Unit × Globals :=
  checked rt serviceId fun reg =>
    if instanceId = 0 ∨ instanceId = 0xffff then (fail .kInvalidArgument instanceId.toNat,reg)
    else reg.registerService (registration serviceId instanceId networkBinding now pid)

def unregisterService (rt : Globals) (serviceId : BitVec 16) : Result Unit × Globals :=
  checked rt serviceId fun reg => reg.unregisterService (serviceId.setWidth 64)

def findService (rt : Globals) (serviceId : BitVec 16) : Option ServiceSlot :=
  if rt.initialized = false then none
  else match rt.dualRegistry with
    | none => none
    | some reg =>
      if isQmRange serviceId = false ∧ isAsilRange serviceId = false then none
      else reg.findService (serviceId.setWidth 64)

def Op.exec (rt : Globals) : Op → Reply × Globals
  | .registerService sid iid binding now pid =>
      (.status (LapCom.Runtime.registerService rt sid iid binding now pid).1,
        (LapCom.Runtime.registerService rt sid iid binding now pid).2)
  | .findService sid => (.found (LapCom.Runtime.findService rt sid),rt)
  | .unregisterService sid =>
      (.status (LapCom.Runtime.unregisterService rt sid).1,
        (LapCom.Runtime.unregisterService rt sid).2)

def next (rt : Globals) (op : Op) : Globals := (op.exec rt).2

end LapCom.Runtime
