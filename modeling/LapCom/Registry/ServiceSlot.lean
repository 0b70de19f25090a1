import LapCom.ComTypes
import LapCom.SeqLock.Protocol

set_option autoImplicit false

namespace LapCom.Registry
open LapCom.SeqLock

/-- The bytes of a NUL-terminated string before its terminator. -/
structure CString where
  bytes : List Byte
  noNul : 0 ∉ bytes

/-- `strncpy(dest, src, count)`: the bytes of `src`, then zeros up to `count`. -/
def strncpy {n : Nat} (dest : Vector Byte n) (src : CString) (count : Nat) : Vector Byte n :=
  Vector.ofFn fun i => if i.val < count then src.bytes.getD i.val 0 else dest[i]

inductive SlotStatus where
  | IDLE | ACTIVE | UNREGISTERING
  deriving DecidableEq, Repr

def SlotStatus.code : SlotStatus → BitVec 32
  | .IDLE => 0
  | .ACTIVE => 1
  | .UNREGISTERING => 2

/-- Every field of `ServiceSlot` but the sequence counter and the padding. -/
structure SlotFields where
  serviceId : BitVec 64
  instanceId : BitVec 64
  majorVersion : BitVec 32
  minorVersion : BitVec 32
  bindingType : Vector Byte 16
  endpoint : Vector Byte 80
  lastHeartbeatNs : BitVec 64
  heartbeatIntervalMs : BitVec 32
  status : BitVec 32
  ownerPid : BitVec 32
  metadata : Vector Byte 64
  deriving DecidableEq, Repr

abbrev ServiceSlot := Slot SlotFields

def SlotFields.isActive (d : SlotFields) : Bool := d.status = SlotStatus.ACTIVE.code

def zeros (n : Nat) : Vector Byte n := Vector.replicate n 0

def SlotFields.empty : SlotFields :=
  ⟨0,0,0,0,zeros 16,zeros 80,0,0,SlotStatus.IDLE.code,0,zeros 64⟩

def ServiceSlot.new : ServiceSlot := ⟨0,.empty⟩

/-- The arguments of `RegisterService` other than the slot, with the clock
reading and the process id that it takes from its environment. -/
structure Registration where
  serviceId : BitVec 64
  instanceId : BitVec 64
  majorVersion : BitVec 32
  minorVersion : BitVec 32
  bindingType : CString
  endpoint : CString
  now : BitVec 64
  pid : BitVec 32

def noText : CString := ⟨[],by simp⟩

def plainRegistration (serviceId instanceId : BitVec 64) : Registration :=
  ⟨serviceId,instanceId,1,0,noText,noText,0,0⟩

def registerStores (r : Registration) : List (SlotFields → SlotFields) :=
  [ fun d => { d with serviceId := r.serviceId },
    fun d => { d with instanceId := r.instanceId },
    fun d => { d with majorVersion := r.majorVersion },
    fun d => { d with minorVersion := r.minorVersion },
    fun d => { d with bindingType := strncpy d.bindingType r.bindingType 15 },
    fun d => { d with bindingType := d.bindingType.set 15 0 },
    fun d => { d with endpoint := strncpy d.endpoint r.endpoint 79 },
    fun d => { d with endpoint := d.endpoint.set 79 0 },
    fun d => { d with lastHeartbeatNs := r.now },
    fun d => { d with heartbeatIntervalMs := 100 },
    fun d => { d with ownerPid := r.pid },
    fun d => { d with status := SlotStatus.ACTIVE.code } ]

def resetStores : List (SlotFields → SlotFields) :=
  [ fun d => { d with serviceId := 0 },
    fun d => { d with instanceId := 0 },
    fun d => { d with majorVersion := 0 },
    fun d => { d with minorVersion := 0 },
    fun d => { d with bindingType := zeros 16 },
    fun d => { d with endpoint := zeros 80 },
    fun d => { d with lastHeartbeatNs := 0 },
    fun d => { d with heartbeatIntervalMs := 0 },
    fun d => { d with status := SlotStatus.IDLE.code },
    fun d => { d with ownerPid := 0 },
    fun d => { d with metadata := zeros 64 } ]

def heartbeatStores (timestampNs : BitVec 64) : List (SlotFields → SlotFields) :=
  [fun d => { d with lastHeartbeatNs := timestampNs }]

def copySlot : ReadFunc SlotFields ServiceSlot :=
  .load (fun s => s.sequence) fun sequence =>
  .load (fun s => s.fields.serviceId) fun serviceId =>
  .load (fun s => s.fields.instanceId) fun instanceId =>
  .load (fun s => s.fields.majorVersion) fun majorVersion =>
  .load (fun s => s.fields.minorVersion) fun minorVersion =>
  .load (fun s => s.fields.lastHeartbeatNs) fun lastHeartbeatNs =>
  .load (fun s => s.fields.heartbeatIntervalMs) fun heartbeatIntervalMs =>
  .load (fun s => s.fields.status) fun status =>
  .load (fun s => s.fields.ownerPid) fun ownerPid =>
  .load (fun s => s.fields.bindingType) fun bindingType =>
  .load (fun s => s.fields.endpoint) fun endpoint =>
  .load (fun s => s.fields.metadata) fun metadata =>
  .ret ⟨sequence,⟨serviceId,instanceId,majorVersion,minorVersion,bindingType,endpoint,
    lastHeartbeatNs,heartbeatIntervalMs,status,ownerPid,metadata⟩⟩

def findFunc (serviceId : BitVec 64) : ReadFunc SlotFields ServiceSlot :=
  .load (fun s => s.fields.serviceId) fun id =>
    if id = serviceId then
      .load (fun s => s.fields.status) fun status =>
        if status = SlotStatus.ACTIVE.code then copySlot else .ret .new
    else .ret .new

@[simp] theorem eval_copySlot (s : ServiceSlot) : copySlot.eval s = s := rfl

theorem eval_findFunc (serviceId : BitVec 64) (s : ServiceSlot) :
    (findFunc serviceId).eval s =
      if s.fields.serviceId = serviceId ∧ s.fields.isActive = true then s else .new := by
  by_cases hid : s.fields.serviceId = serviceId
  · by_cases hst : s.fields.status = SlotStatus.ACTIVE.code <;>
      simp [findFunc,ReadFunc.eval,hid,hst,SlotFields.isActive]
  · simp [findFunc,ReadFunc.eval,hid]

def stringField (n : Nat) (src : CString) : Vector Byte (n+1) :=
  Vector.ofFn fun i => if i.val < n then src.bytes.getD i.val 0 else 0

theorem strncpy_terminated {n : Nat} (dest : Vector Byte (n+1)) (src : CString) :
    (strncpy dest src n).set n 0 = stringField n src := by
  apply Vector.ext
  intro i hi
  by_cases h : i = n
  · simp [stringField,h]
  · have hlt : i < n := by omega
    simp [stringField,strncpy,hlt,Ne.symm h]

/-- What a whole registration leaves in a slot, the untouched metadata apart. -/
def Registration.record (r : Registration) (metadata : Vector Byte 64) : SlotFields :=
  ⟨r.serviceId,r.instanceId,r.majorVersion,r.minorVersion,stringField 15 r.bindingType,
    stringField 79 r.endpoint,r.now,100,SlotStatus.ACTIVE.code,r.pid,metadata⟩

theorem applyStores_register (r : Registration) (d : SlotFields) :
    applyStores (registerStores r) d = r.record d.metadata := by
  have hb := strncpy_terminated d.bindingType r.bindingType
  have he := strncpy_terminated d.endpoint r.endpoint
  simp only [applyStores,registerStores,List.foldl_cons,List.foldl_nil,Registration.record,hb,he]

theorem applyStores_reset (d : SlotFields) : applyStores resetStores d = .empty := rfl

@[simp] theorem record_isActive (r : Registration) (metadata : Vector Byte 64) :
    (r.record metadata).isActive = true := rfl

@[simp] theorem empty_isActive : SlotFields.empty.isActive = false := rfl

end LapCom.Registry
