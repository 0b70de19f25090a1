import LapCom.ComTypes
import LapCom.Kernel.Ledger
import LapCom.Machine.Run

set_option autoImplicit false

/-! `Runtime::Initialize` and `Runtime::Deinitialize` by thread, with `g_init_mutex`, the
descriptors and regions of the registry and the heartbeat thread. -/

namespace LapCom.Lifecycle
open LapCom.Kernel LapCom.Machine

inductive RegistryType where
  | QM
  | ASIL
  deriving DecidableEq

/-- A descriptor and a region are what the kernel has given out under that number. -/
structure SingleRegistry where
  memfd : Option Nat
  slots : Option Nat
  deriving DecidableEq

def SingleRegistry.new : SingleRegistry := ⟨none,none⟩

structure SharedMemoryRegistry where
  qmRegistry : SingleRegistry
  asilRegistry : SingleRegistry
  deriving DecidableEq

namespace SharedMemoryRegistry

def new : SharedMemoryRegistry := ⟨.new,.new⟩

def get (reg : SharedMemoryRegistry) : RegistryType → SingleRegistry
  | .QM => reg.qmRegistry
  | .ASIL => reg.asilRegistry

def set (reg : SharedMemoryRegistry) (x : SingleRegistry) : RegistryType → SharedMemoryRegistry
  | .QM => { reg with qmRegistry := x }
  | .ASIL => { reg with asilRegistry := x }

def memfds (reg : SharedMemoryRegistry) : List Nat :=
  reg.asilRegistry.memfd.toList++reg.qmRegistry.memfd.toList

def regions (reg : SharedMemoryRegistry) : List Nat :=
  reg.asilRegistry.slots.toList++reg.qmRegistry.slots.toList

end SharedMemoryRegistry

/-- The globals of the runtime. `workers` are the threads in `HeartbeatWorker`. -/
structure Globals where
  initialized : Bool
  dualRegistry : Option SharedMemoryRegistry
  heartbeatRunning : Bool
  heartbeatThread : Option Nat
  workers : Nat → Bool
  spawned : Nat
  descriptors : Ledger
  regions : Ledger

inductive Op where
  | initializeRuntime
  | deinitializeRuntime
  deriving DecidableEq

/-- Where a thread stands in its call. The socket and the descriptor that is received are local
variables of `receiveMemfdFromSocket`. -/
inductive Phase where
  | idle
  | entered (op : Op)
  | check (op : Op)
  | create
  | socket (r : RegistryType)
  | connect (r : RegistryType) (sock : Nat)
  | receive (r : RegistryType) (sock : Nat)
  | closeSocket (r : RegistryType) (sock : Nat) (memfd : Option Nat)
  | map (r : RegistryType)
  | abandon
  | setRunning
  | startThread
  | publish
  | stop
  | join
  | resetRegistry
  | unpublish
  | returning (op : Op) (r : Result Unit)

namespace Globals

def initial : Globals :=
  { initialized := false, dualRegistry := none, heartbeatRunning := false
    heartbeatThread := none, workers := fun _ => false, spawned := 0
    descriptors := .initial, regions := .initial }

def resetRegistry (g : Globals) : Globals :=
  match g.dualRegistry with
  | none => g
  | some reg =>
    { g with
      dualRegistry := none
      descriptors := g.descriptors.releaseAll reg.memfds
      regions := g.regions.releaseAll reg.regions }

def registry (g : Globals) (r : RegistryType) : SingleRegistry :=
  (g.dualRegistry.getD .new).get r

def setRegistry (g : Globals) (r : RegistryType) (x : SingleRegistry) : Globals :=
  { g with dualRegistry := g.dualRegistry.map fun reg => reg.set x r }

def openDescriptor (g : Globals) : Globals := { g with descriptors := g.descriptors.acquire }

def closeDescriptor (g : Globals) (fd : Nat) : Globals :=
  { g with descriptors := g.descriptors.release fd }

def worker (g : Globals) (w : Nat) : Globals :=
  if g.heartbeatRunning then g else { g with workers := Function.update g.workers w false }

end Globals

def Phase.next : RegistryType → Phase
  | .QM => .socket .ASIL
  | .ASIL => .setRunning

/-- What a thread that holds the mutex does next; `ok` says whether a system call succeeds. A
`recvmsg` without a descriptor of `SCM_RIGHTS` is no success. -/
def advance (g : Globals) (ok : Bool) : Phase → Option (Globals × Phase)
  | .check .initializeRuntime =>
    if g.initialized then some (g,.returning .initializeRuntime (fail .kInvalidState 0))
    else some (g,.create)
  | .create => some ({ g.resetRegistry with dualRegistry := some .new },.socket .QM)
  | .socket r =>
    if (g.registry r).slots.isSome then some (g,.next r)
    else if ok then some (g.openDescriptor,.connect r g.descriptors.acquired)
    else some (g,.abandon)
  | .connect r sock =>
    if ok then some (g,.receive r sock) else some (g.closeDescriptor sock,.abandon)
  | .receive r sock =>
    if ok then some (g.openDescriptor,.closeSocket r sock (some g.descriptors.acquired))
    else some (g,.closeSocket r sock none)
  | .closeSocket r sock memfd =>
    match memfd with
    | none => some (g.closeDescriptor sock,.abandon)
    | some fd =>
      let g := g.closeDescriptor sock
      some (g.setRegistry r { g.registry r with memfd := some fd },.map r)
  | .map r =>
    let x := g.registry r
    if ok then
      let g := g.setRegistry r { x with slots := some g.regions.acquired }
      some ({ g with regions := g.regions.acquire },.next r)
    else
      let g := g.setRegistry r { x with memfd := none }
      some ({ g with descriptors := g.descriptors.releaseAll x.memfd.toList },.abandon)
  | .abandon => some (g.resetRegistry,.returning .initializeRuntime (fail .kInternal 0))
  | .setRunning => some ({ g with heartbeatRunning := true },.startThread)
  | .startThread =>
    some ({ g with
      heartbeatThread := some g.spawned, workers := Function.update g.workers g.spawned true
      spawned := g.spawned+1 },.publish)
  | .publish => some ({ g with initialized := true },.returning .initializeRuntime (.ok ()))
  | .check .deinitializeRuntime =>
    if g.initialized = false then some (g,.returning .deinitializeRuntime (fail .kNotInitialized 0))
    else some (g,.stop)
  | .stop =>
    if g.heartbeatThread.isSome && g.heartbeatRunning then
      some ({ g with heartbeatRunning := false },.join)
    else some (g,.resetRegistry)
  | .join =>
    match g.heartbeatThread with
    | none => some (g,.resetRegistry)
    | some w =>
      if g.workers w then none else some ({ g with heartbeatThread := none },.resetRegistry)
  | .resetRegistry => some (g.resetRegistry,.unpublish)
  | .unpublish => some ({ g with initialized := false },.returning .deinitializeRuntime (.ok ()))
  | .idle => none
  | .entered _ => none
  | .returning _ _ => none

structure System where
  mutex : Option Nat
  globals : Globals
  phase : Nat → Phase

inductive Event where
  | call (t : Nat) (op : Op)
  | run (t : Nat) (ok : Bool)
  | worker (w : Nat)

def System.initial : System := ⟨none,.initial,fun _ => .idle⟩

/-- A thread that waits for the mutex or for the heartbeat thread does nothing. -/
def step (s : System) : Event → System
  | .call t op =>
    match s.phase t with
    | .idle => { s with phase := Function.update s.phase t (.entered op) }
    | _ => s
  | .run t ok =>
    match s.phase t with
    | .entered op =>
      if s.mutex.isSome then s
      else { s with mutex := some t, phase := Function.update s.phase t (.check op) }
    | .returning _ _ => { s with mutex := none, phase := Function.update s.phase t .idle }
    | p =>
      match advance s.globals ok p with
      | none => s
      | some (g,p') => { s with globals := g, phase := Function.update s.phase t p' }
  | .worker w => { s with globals := s.globals.worker w }

abbrev systemAt (σ : Nat → Event) (k : Nat) : System := stateAt step .initial σ k

end LapCom.Lifecycle
