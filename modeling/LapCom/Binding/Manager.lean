import LapCom.Binding.Config
import LapCom.Container.PriorityMap
import Mathlib.Data.List.AList
import Mathlib.Order.Fin.Basic

set_option autoImplicit false

namespace LapCom.Binding
open LapCom.Container

abbrev Obj := Nat

/-- A shared library; `dlopen` of an open one hands out the same handle again. -/
abbrev Lib := Nat

inductive BindingManagerError where
  | CONFIG_LOAD_FAILED
  | LIBRARY_LOAD_FAILED
  | SYMBOL_NOT_FOUND
  | BINDING_INIT_FAILED
  | BINDING_NOT_FOUND
  deriving DecidableEq, Repr

inductive ManagerError where
  | manager : BindingManagerError → ManagerError
  | init : Nat → ManagerError
  deriving DecidableEq, Repr

/-- What the manager does to the world outside its containers. `accept` marks
that a binding was stored; `destroy` is the end of an object, through
`DestroyBindingInstance` or, without that symbol, its own destructor. -/
inductive Action where
  | lock
  | unlock
  | dlopen : Lib → Action
  | dlclose : Lib → Action
  | factory : Lib → Option Obj → Action
  | init : Obj → Action
  | accept : String → Obj → Priority → Action
  | shutdown : Obj → Action
  | destroy : Obj → Action
  deriving DecidableEq, Repr

abbrev NameMap (V : Type) := AList fun _ : String => V

structure Manager where
  bindings : PriorityMap Priority Obj
  bindingsByName : NameMap Obj
  libraryHandles : NameMap Lib
  staticMappings : List StaticBindingMapping
  nextObj : Obj

def Manager.empty : Manager := ⟨.empty,∅,∅,[],0⟩

structure LoadOutcome where
  opened : Option Lib
  createSymbol : Bool
  created : Bool
  initError : Option Nat
  deriving DecidableEq, Repr

structure Iteration where
  order : List String → List String
  perm : ∀ names, (order names).Perm names

def Iteration.plain : Iteration := ⟨id,fun _ => List.Perm.refl _⟩

abbrev Effect := Manager × List Action

namespace Manager

def named (m : Manager) : List Obj := m.bindingsByName.entries.map Sigma.snd

def grown (m : Manager) : Manager := { m with nextObj := m.nextObj+1 }

def holds (m : Manager) (o : Obj) : Bool := o ∈ m.bindings.values ∨ o ∈ m.named

def dropped (m : Manager) (objs : List Obj) : List Action :=
  (objs.filter fun o => !m.holds o).map .destroy

def store (m : Manager) (config : BindingConfig) (o : Obj) (handle : Option Lib) : Effect :=
  let m' : Manager :=
    { m with
      bindings := m.bindings.emplace config.priority o
      bindingsByName := m.bindingsByName.insert config.name o
      libraryHandles := match handle with
        | some lib => m.libraryHandles.insert config.name lib
        | none => m.libraryHandles }
  (m',.accept config.name o config.priority ::
    m'.dropped (m.bindingsByName.lookup config.name).toList)

def registerBinding (m : Manager) (config : BindingConfig) (given : Bool) :
    Except ManagerError Unit × Effect :=
  if given then
    let stored := m.grown.store config m.nextObj none
    (.ok (),stored.1,.lock :: stored.2++[.unlock])
  else (.error (.manager .BINDING_INIT_FAILED),m,[])

/-- From `dlopen` to `Initialize`. On the way out of a failed `Initialize` the
handle is closed before the local `shared_ptr` goes. -/
def openBinding (m : Manager) (outcome : LoadOutcome) :
    Except ManagerError (Lib × Obj) × Effect :=
  match outcome.opened with
  | none => (.error (.manager .LIBRARY_LOAD_FAILED),m,[])
  | some lib =>
    if outcome.createSymbol = false then
      (.error (.manager .SYMBOL_NOT_FOUND),m,[.dlopen lib,.dlclose lib])
    else if outcome.created = false then
      (.error (.manager .BINDING_INIT_FAILED),m,[.dlopen lib,.factory lib none,.dlclose lib])
    else match outcome.initError with
      | some code => (.error (.init code),m.grown,
          [.dlopen lib,.factory lib (some m.nextObj),.init m.nextObj,.dlclose lib,
            .destroy m.nextObj])
      | none => (.ok (lib,m.nextObj),m.grown,
          [.dlopen lib,.factory lib (some m.nextObj),.init m.nextObj])

def loadBinding (m : Manager) (config : BindingConfig) (outcome : LoadOutcome) :
    Except ManagerError Unit × Effect :=
  match m.openBinding outcome with
  | (.error e,m',log) => (.error e,m',log)
  | (.ok (lib,o),m',log) =>
    let stored := m'.store config o (some lib)
    (.ok (),stored.1,log++.lock :: stored.2++[.unlock])

def eraseBinding (m : Manager) (name : String) (o : Obj) : Manager :=
  { m with
    bindings := m.bindings.filterValues fun other => other ≠ o
    bindingsByName := m.bindingsByName.erase name }

def closeHandle (m : Manager) (name : String) : Effect :=
  match m.libraryHandles.lookup name with
  | none => (m,[])
  | some lib => ({ m with libraryHandles := m.libraryHandles.erase name },[.dlclose lib])

def unloadBinding (m : Manager) (name : String) : Except ManagerError Unit × Effect :=
  match m.bindingsByName.lookup name with
  | none => (.error (.manager .BINDING_NOT_FOUND),m,[.lock,.unlock])
  | some o =>
    let erased := m.eraseBinding name o
    let closed := erased.closeHandle name
    (.ok (),closed.1,[.lock,.shutdown o]++erased.dropped [o]++closed.2++[.unlock])

def shutdown (m : Manager) (iteration : Iteration) : Except ManagerError Unit × Effect :=
  let objs := (iteration.order m.bindingsByName.keys).filterMap m.bindingsByName.lookup
  let libs := (iteration.order m.libraryHandles.keys).filterMap m.libraryHandles.lookup
  let unnamed := m.bindings.values.dedup.filter fun o => o ∉ m.named
  (.ok (),{ Manager.empty with nextObj := m.nextObj },
    .lock :: objs.map .shutdown++libs.map .dlclose++unnamed.map .destroy++
      objs.dedup.map .destroy++[.unlock])

/-- What `ReloadConfiguration` does to one name of the old configuration, and with
one enabled binding of the new one. -/
inductive Task where
  | remove : String → Task
  | add : BindingConfig → LoadOutcome → Task

/-- Unlike in `UnloadBinding`, the name is erased after the handle is closed. -/
def remove (m : Manager) (name : String) : Effect :=
  match m.bindingsByName.lookup name with
  | none => (m,[])
  | some o =>
    let closed := (m.eraseBinding name o).closeHandle name
    (closed.1,.shutdown o :: closed.2++closed.1.dropped [o])

def add (m : Manager) (config : BindingConfig) (outcome : LoadOutcome) : Effect :=
  if (m.bindingsByName.lookup config.name).isSome then (m,[])
  else match m.openBinding outcome with
    | (.error _,m',log) => (m',log)
    | (.ok (lib,o),m',log) =>
      let stored := m'.store config o (some lib)
      (stored.1,log++stored.2)

def Task.exec (m : Manager) : Task → Effect
  | .remove name => m.remove name
  | .add config outcome => m.add config outcome

def runTasks (m : Manager) : List Task → Effect
  | [] => (m,[])
  | task :: tasks =>
    ((runTasks (task.exec m).1 tasks).1,(task.exec m).2++(runTasks (task.exec m).1 tasks).2)

/-- The loaded names that the new configuration no longer has, then its enabled
bindings in order. -/
def tasks (m : Manager) (configs : List BindingConfig) (iteration : Iteration)
    (outcomes : Nat → LoadOutcome) : List Task :=
  let newNames := (configs.filter fun config => config.enabled).map fun config => config.name
  ((iteration.order m.bindingsByName.keys).filter fun name => name ∉ newNames).map .remove++
    (configs.zipIdx.filter fun c => c.1.enabled).map fun c => .add c.1 (outcomes c.2)

def pushMappings (m : Manager) (file : Option Document) : Manager :=
  { m with staticMappings := m.staticMappings++(parseYamlConfig file).1 }

def reloadConfiguration (m : Manager) (file : Option Document) (iteration : Iteration)
    (outcomes : Nat → LoadOutcome) : Except ManagerError Unit × Effect :=
  let m := m.pushMappings file
  match (parseYamlConfig file).2 with
  | none => (.error (.manager .CONFIG_LOAD_FAILED),m,[])
  | some configs =>
    let done := m.runTasks (m.tasks configs iteration outcomes)
    (.ok (),done.1,.lock :: done.2++[.unlock])

def findStaticMapping (m : Manager) (serviceId instanceId : BitVec 64) : Option String :=
  (m.staticMappings.find? fun mapping => mapping.serviceId = serviceId ∧
    (mapping.instanceId = 0 ∨ mapping.instanceId = instanceId)).map fun mapping =>
      mapping.bindingName

/-- `supports` is `SupportsService` of the objects. -/
def selectBinding (m : Manager) (supports : Obj → BitVec 64 → Bool)
    (serviceId instanceId : BitVec 64) : Option Obj :=
  match (m.findStaticMapping serviceId instanceId).bind m.bindingsByName.lookup with
  | some o => some o
  | none => (m.bindings.entries.find? fun e => supports e.2 serviceId).map Prod.snd

theorem mem_named {m : Manager} {o : Obj} :
    o ∈ m.named ↔ ∃ name, m.bindingsByName.lookup name = some o := by
  simp only [named,List.mem_map]
  constructor
  · rintro ⟨⟨name,_⟩,he,rfl⟩
    exact ⟨name,AList.mem_lookup_iff.mpr he⟩
  · rintro ⟨name,h⟩
    exact ⟨⟨name,o⟩,AList.mem_lookup_iff.mp h,rfl⟩

theorem name_unique {m : Manager} (h : m.named.Nodup) {name name' : String} {o : Obj}
    (h₁ : m.bindingsByName.lookup name = some o) (h₂ : m.bindingsByName.lookup name' = some o) :
    name = name' := by
  have := List.inj_on_of_nodup_map h (AList.mem_lookup_iff.mp h₁) (AList.mem_lookup_iff.mp h₂) rfl
  exact congrArg Sigma.fst this

theorem store_values_perm (m : Manager) (config : BindingConfig) (o : Obj) (handle : Option Lib) :
    (m.store config o handle).1.bindings.values.Perm (o :: m.bindings.values) :=
  m.bindings.emplace_values_perm _ _

theorem store_named (m : Manager) (config : BindingConfig) (o : Obj) (handle : Option Lib) :
    (m.store config o handle).1.named =
      o :: (List.kerase config.name m.bindingsByName.entries).map Sigma.snd := by
  show (m.bindingsByName.insert config.name o).entries.map Sigma.snd = _
  rw [AList.entries_insert,List.map_cons]

theorem mem_named_erase {m : Manager} (hn : m.named.Nodup) {name : String} {o o' : Obj}
    (h : m.bindingsByName.lookup name = some o) :
    o' ∈ (m.eraseBinding name o).named ↔ o' ∈ m.named ∧ o' ≠ o := by
  rw [mem_named,mem_named]
  constructor
  · rintro ⟨name',h'⟩
    have h'' : (m.bindingsByName.erase name).lookup name' = some o' := h'
    by_cases hne : name' = name
    · rw [hne,AList.lookup_erase] at h''; cases h''
    · rw [AList.lookup_erase_ne hne] at h''
      refine ⟨⟨name',h''⟩,?_⟩
      rintro rfl
      exact hne (name_unique hn h'' h)
  · rintro ⟨⟨name',h'⟩,hne⟩
    refine ⟨name',?_⟩
    have hne' : name' ≠ name := by
      rintro rfl
      rw [h] at h'; exact hne (Option.some.inj h').symm
    exact (AList.lookup_erase_ne hne').trans h'

theorem nodup_named_erase {m : Manager} (hn : m.named.Nodup) (name : String) (o : Obj) :
    (m.eraseBinding name o).named.Nodup :=
  hn.sublist ((List.kerase_sublist _ _).map _)

theorem eraseBinding_values (m : Manager) (name : String) (o : Obj) :
    (m.eraseBinding name o).bindings.values = m.bindings.values.filter fun o' => o' ≠ o :=
  m.bindings.filterValues_values _

theorem closeHandle_erase {m : Manager} {name : String} {o : Obj} {lib : Lib}
    (h : m.libraryHandles.lookup name = some lib) :
    (m.eraseBinding name o).closeHandle name =
      ({ m.eraseBinding name o with libraryHandles := m.libraryHandles.erase name },
        [.dlclose lib]) := by
  rw [closeHandle,show (m.eraseBinding name o).libraryHandles.lookup name = some lib from h]
  rfl

theorem dropped_eq_nil {m : Manager} {objs : List Obj} (h : ∀ o, o ∈ objs → m.holds o = true) :
    m.dropped objs = [] := by
  have hnone : (objs.filter fun o => !m.holds o) = [] := by
    apply List.filter_eq_nil_iff.mpr
    intro o ho
    simp [h o ho]
  rw [dropped,hnone]
  rfl

end Manager

inductive Op where
  | registerBinding : BindingConfig → Bool → Op
  | loadBinding : BindingConfig → LoadOutcome → Op
  | unloadBinding : String → Op
  | reloadConfiguration : Option Document → Iteration → (Nat → LoadOutcome) → Op
  | shutdown : Iteration → Op

def Op.exec (m : Manager) : Op → Except ManagerError Unit × Effect
  | .registerBinding config given => m.registerBinding config given
  | .loadBinding config outcome => m.loadBinding config outcome
  | .unloadBinding name => m.unloadBinding name
  | .reloadConfiguration file iteration outcomes => m.reloadConfiguration file iteration outcomes
  | .shutdown iteration => m.shutdown iteration

structure State where
  manager : Manager
  log : List Action

def State.initial : State := ⟨.empty,[]⟩

def State.next (s : State) (op : Op) : State :=
  ⟨(op.exec s.manager).2.1,s.log++(op.exec s.manager).2.2⟩

end LapCom.Binding
