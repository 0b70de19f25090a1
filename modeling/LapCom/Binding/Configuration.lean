import LapCom.Binding.Index

set_option autoImplicit false

namespace LapCom.Binding
open LapCom.Container

/-- What the loaded objects answer; `health` is what `GetBindingHealth` makes of the
metrics. -/
structure Answers (M H : Type) where
  supportsService : Obj → BitVec 64 → Bool
  metrics : Obj → M
  health : M → H
  supportsZeroCopy : Obj → Bool
  getPriority : Obj → BitVec 32

namespace Manager

variable {A M H : Type}

/-- The loop of `LoadConfiguration`, under the lock: `LoadBinding` locks once more
when it stores. `none` is a call that never returns. -/
def loadEach (m : Manager) : List (BindingConfig × LoadOutcome) →
    Option (Except ManagerError Unit) × Effect
  | [] => (some (.ok ()),m,[.unlock])
  | (config,outcome) :: rest =>
    if config.enabled = false then m.loadEach rest
    else match m.openBinding outcome with
      | (.error _,m',log) =>
        ((m'.loadEach rest).1,(m'.loadEach rest).2.1,log++(m'.loadEach rest).2.2)
      | (.ok _,m',log) => (none,m',log++[.lock])

def loadConfiguration (m : Manager) (file : Option Document) (outcomes : Nat → LoadOutcome) :
    Option (Except ManagerError Unit) × Effect :=
  let m := m.pushMappings file
  match (parseYamlConfig file).2 with
  | none => (some (.error (.manager .CONFIG_LOAD_FAILED)),m,[])
  | some configs =>
    let done := m.loadEach (configs.zipIdx.map fun c => (c.1,outcomes c.2))
    (done.1,done.2.1,.lock :: done.2.2)

def locked (answer : A) : A × List Action := (answer,[.lock,.unlock])

def askNamed (m : Manager) (name : String) (ask : Obj → A) : Option A × List Action :=
  locked ((m.bindingsByName.lookup name).map ask)

def getBinding (m : Manager) (name : String) : Option Obj × List Action := m.askNamed name id

def getLoadedBindings (m : Manager) (iteration : Iteration) : List String × List Action :=
  locked (iteration.order m.bindingsByName.keys)

def getBindingHealth (m : Manager) (answers : Answers M H) (name : String) :
    Option H × List Action :=
  m.askNamed name fun o => answers.health (answers.metrics o)

def getBindingMetrics (m : Manager) (answers : Answers M H) (name : String) :
    Option M × List Action :=
  m.askNamed name answers.metrics

def getAllMetrics (m : Manager) (answers : Answers M H) : List (String × M) × List Action :=
  locked ((m.bindingsByName.entries.map fun e => (e.1,answers.metrics e.2)).mergeSort
    fun a b => a.1 ≤ b.1)

def supportsZeroCopy (m : Manager) (answers : Answers M H) (name : String) : Bool × List Action :=
  ((m.askNamed name answers.supportsZeroCopy).1.getD false,
    (m.askNamed name answers.supportsZeroCopy).2)

def getBindingPriority (m : Manager) (answers : Answers M H) (name : String) :
    Option (BitVec 32) × List Action :=
  m.askNamed name answers.getPriority

def select (m : Manager) (answers : Answers M H) (serviceId instanceId : BitVec 64) :
    Option Obj × List Action :=
  locked (m.selectBinding answers.supportsService serviceId instanceId)

end Manager

inductive Call where
  | op : Op → Call
  | loadConfiguration : Option Document → (Nat → LoadOutcome) → Call
  | selectBinding : BitVec 64 → BitVec 64 → Call
  | getBinding : String → Call
  | getLoadedBindings : Iteration → Call
  | getBindingHealth : String → Call
  | getBindingMetrics : String → Call
  | getAllMetrics : Call
  | supportsZeroCopy : String → Call
  | getBindingPriority : String → Call

variable {M H : Type}

def Call.log (m : Manager) (answers : Answers M H) : Call → List Action
  | .op operation => (operation.exec m).2.2
  | .loadConfiguration file outcomes => (m.loadConfiguration file outcomes).2.2
  | .selectBinding serviceId instanceId => (m.select answers serviceId instanceId).2
  | .getBinding name => (m.getBinding name).2
  | .getLoadedBindings iteration => (m.getLoadedBindings iteration).2
  | .getBindingHealth name => (m.getBindingHealth answers name).2
  | .getBindingMetrics name => (m.getBindingMetrics answers name).2
  | .getAllMetrics => (m.getAllMetrics answers).2
  | .supportsZeroCopy name => (m.supportsZeroCopy answers name).2
  | .getBindingPriority name => (m.getBindingPriority answers name).2

/-- Whether a thread that does `as`, and holds the mutex before it when `held`, locks
the mutex while it holds it. -/
def relocks (held : Bool) : List Action → Bool
  | [] => false
  | .lock :: as => held || relocks true as
  | .unlock :: as => relocks false as
  | _ :: as => relocks held as

def heldAfter (held : Bool) : List Action → Bool
  | [] => held
  | .lock :: as => heldAfter true as
  | .unlock :: as => heldAfter false as
  | _ :: as => heldAfter held as

theorem relocks_append (held : Bool) (as bs : List Action) :
    relocks held (as++bs) = (relocks held as || relocks (heldAfter held as) bs) := by
  induction as generalizing held with
  | nil => rfl
  | cons a as ih => cases a <;> simp [relocks,heldAfter,ih,Bool.or_assoc]

theorem heldAfter_append (held : Bool) (as bs : List Action) :
    heldAfter held (as++bs) = heldAfter (heldAfter held as) bs := by
  induction as generalizing held with
  | nil => rfl
  | cons a as ih => cases a <;> simp [heldAfter,ih]

def Lockless (as : List Action) : Prop := ∀ a, a ∈ as → a.locks = false

theorem Lockless.append {as bs : List Action} (ha : Lockless as) (hb : Lockless bs) :
    Lockless (as++bs) := by
  intro a h
  obtain h | h := List.mem_append.mp h
  · exact ha a h
  · exact hb a h

theorem Lockless.keeps {as : List Action} (h : Lockless as) (held : Bool) :
    relocks held as = false ∧ heldAfter held as = held := by
  induction as generalizing held with
  | nil => exact ⟨rfl,rfl⟩
  | cons a as ih =>
    have hrest := ih fun b hb => h b (List.mem_cons_of_mem _ hb)
    have ha := h a List.mem_cons_self
    cases a with
    | lock => cases ha
    | unlock => cases ha
    | _ => exact hrest held

def Bracketed (as : List Action) : Prop := relocks false as = false ∧ heldAfter false as = false

theorem Bracketed.append {as bs : List Action} (ha : Bracketed as) (hb : Bracketed bs) :
    Bracketed (as++bs) := by
  rw [Bracketed,relocks_append,heldAfter_append,ha.1,ha.2]
  exact hb

theorem Lockless.bracketed {as : List Action} (h : Lockless as) : Bracketed as := h.keeps false

theorem Lockless.locked {as : List Action} (h : Lockless as) :
    Bracketed (.lock :: as++[.unlock]) := by
  obtain ⟨hrelocks,hheld⟩ := h.keeps true
  constructor
  · show relocks true (as++[.unlock]) = false
    rw [relocks_append,hrelocks]
    rfl
  · show heldAfter true (as++[.unlock]) = false
    rw [heldAfter_append]
    rfl

namespace Manager

theorem dropped_lockless (m : Manager) (objs : List Obj) : Lockless (m.dropped objs) := by
  intro a ha
  obtain ⟨o,_,rfl⟩ := List.mem_map.mp ha
  rfl

theorem store_lockless (m : Manager) (config : BindingConfig) (o : Obj) (handle : Option Lib) :
    Lockless (m.store config o handle).2 := by
  intro a ha
  obtain rfl | ha := List.mem_cons.mp ha
  · rfl
  · exact dropped_lockless _ _ a ha

theorem closeHandle_lockless (m : Manager) (name : String) : Lockless (m.closeHandle name).2 := by
  rw [closeHandle_log]
  simp [Lockless,Action.locks]

theorem remove_lockless (m : Manager) (name : String) : Lockless (m.remove name).2 := by
  unfold remove
  split
  · simp [Lockless]
  · intro a ha
    obtain rfl | ha := List.mem_cons.mp ha
    · rfl
    · exact (closeHandle_lockless _ _).append (dropped_lockless _ _) a ha

theorem add_lockless (m : Manager) (config : BindingConfig) (outcome : LoadOutcome) :
    Lockless (m.add config outcome).2 := by
  unfold add
  split
  · simp [Lockless]
  · obtain ⟨_,lib,_,heq⟩ | ⟨_,e,m',as,heq,_,hquiet,_⟩ := m.openBinding_cases outcome
    · rw [heq]
      exact Lockless.append (by simp [Lockless,Action.locks]) (store_lockless _ _ _ _)
    · rw [heq]
      exact fun a ha => (hquiet a ha).2

theorem runTasks_lockless (m : Manager) (tasks : List Task) : Lockless (m.runTasks tasks).2 := by
  induction tasks generalizing m with
  | nil => simp [runTasks,Lockless]
  | cons task tasks ih =>
    refine Lockless.append ?_ (ih _)
    cases task with
    | remove name => exact remove_lockless m name
    | add config outcome => exact add_lockless m config outcome

theorem unloadBinding_bracketed (m : Manager) (name : String) :
    Bracketed (m.unloadBinding name).2.2 := by
  unfold unloadBinding
  split
  · exact ⟨rfl,rfl⟩
  · rename_i o _
    have hbody : Lockless (.shutdown o :: ((m.eraseBinding name o).dropped [o]++
        ((m.eraseBinding name o).closeHandle name).2)) := by
      intro a ha
      obtain rfl | ha := List.mem_cons.mp ha
      · rfl
      · exact (dropped_lockless _ _).append (closeHandle_lockless _ _) a ha
    simpa using hbody.locked

theorem loadBinding_bracketed (m : Manager) (config : BindingConfig) (outcome : LoadOutcome) :
    Bracketed (m.loadBinding config outcome).2.2 := by
  obtain ⟨_,lib,_,heq⟩ | ⟨_,e,m',as,heq,_,hquiet,_⟩ := m.openBinding_cases outcome
  · simp only [loadBinding,heq]
    have hopen : Lockless [.dlopen lib,.factory lib (some m.nextObj),.init m.nextObj] := by
      simp [Lockless,Action.locks]
    have h := hopen.bracketed.append (store_lockless m.grown config m.nextObj (some lib)).locked
    simpa using h
  · simp only [loadBinding,heq]
    exact Lockless.bracketed fun a ha => (hquiet a ha).2

theorem shutdown_bracketed (m : Manager) (iteration : Iteration) :
    Bracketed (m.shutdown iteration).2.2 := by
  have hmaps : ∀ (l : List Nat) (f : Nat → Action), (∀ x, (f x).locks = false) →
      Lockless (l.map f) := by
    intro l f hf a ha
    obtain ⟨x,_,rfl⟩ := List.mem_map.mp ha
    exact hf x
  exact Lockless.locked ((((hmaps _ .shutdown fun _ => rfl).append
    (hmaps _ .dlclose fun _ => rfl)).append (hmaps _ .destroy fun _ => rfl)).append
    (hmaps _ .destroy fun _ => rfl))

theorem exec_bracketed (m : Manager) (op : Op) : Bracketed (op.exec m).2.2 := by
  cases op with
  | registerBinding config given =>
    cases given with
    | false => exact ⟨rfl,rfl⟩
    | true => exact (store_lockless m.grown config m.nextObj none).locked
  | loadBinding config outcome => exact m.loadBinding_bracketed config outcome
  | unloadBinding name => exact m.unloadBinding_bracketed name
  | reloadConfiguration file iteration outcomes =>
    simp only [Op.exec,reloadConfiguration]
    cases (parseYamlConfig file).2 with
    | none => exact ⟨rfl,rfl⟩
    | some configs => exact (runTasks_lockless _ _).locked
  | shutdown iteration => exact m.shutdown_bracketed iteration

def stores (c : BindingConfig × LoadOutcome) : Bool := c.1.enabled && c.2.succeeds

theorem loadEach_locks (m : Manager) (configs : List (BindingConfig × LoadOutcome)) :
    relocks true (m.loadEach configs).2.2 = configs.any stores ∧
    (configs.any stores = false → heldAfter true (m.loadEach configs).2.2 = false) := by
  induction configs generalizing m with
  | nil => exact ⟨rfl,fun _ => rfl⟩
  | cons c configs ih =>
    obtain ⟨config,outcome⟩ := c
    rw [List.any_cons]
    cases henabled : config.enabled with
    | false =>
      simp only [loadEach,henabled,if_true,stores,Bool.false_and,Bool.false_or]
      exact ih m
    | true =>
      simp only [loadEach,henabled,stores,Bool.true_and,reduceCtorEq,if_false]
      obtain ⟨hsucc,lib,_,heq⟩ | ⟨hfail,e,m',as,heq,_,hquiet,_⟩ := m.openBinding_cases outcome
      · rw [heq,hsucc,Bool.true_or]
        exact ⟨rfl,fun h => by cases h⟩
      · have hlockless : Lockless as := fun a ha => (hquiet a ha).2
        obtain ⟨hrelocks,hheld⟩ := hlockless.keeps true
        rw [heq,hfail,Bool.false_or]
        simp only [relocks_append,heldAfter_append,hrelocks,hheld,Bool.false_or]
        exact ih m'

end Manager

/-- `LoadConfiguration` with an enabled binding that can be loaded. -/
def Call.LoadsFromFile : Call → Prop
  | .loadConfiguration file outcomes => ∃ configs, (parseYamlConfig file).2 = some configs ∧
      ∃ c, c ∈ configs.zipIdx ∧ c.1.enabled = true ∧ (outcomes c.2).succeeds = true
  | _ => False

theorem Call.log_locks (m : Manager) (answers : Answers M H) (call : Call) :
    (call.LoadsFromFile → relocks false (call.log m answers) = true) ∧
    (¬ call.LoadsFromFile → Bracketed (call.log m answers)) := by
  cases call with
  | op operation => exact ⟨False.elim,fun _ => m.exec_bracketed operation⟩
  | loadConfiguration file outcomes =>
    simp only [log,LoadsFromFile,Manager.loadConfiguration]
    cases (parseYamlConfig file).2 with
    | none => exact ⟨fun h => by simp at h,fun _ => ⟨rfl,rfl⟩⟩
    | some configs =>
      obtain ⟨hrelocks,hheld⟩ := (m.pushMappings file).loadEach_locks
        (configs.zipIdx.map fun c => (c.1,outcomes c.2))
      have hany : (configs.zipIdx.map fun c => (c.1,outcomes c.2)).any Manager.stores = true ↔
          ∃ c, c ∈ configs.zipIdx ∧ c.1.enabled = true ∧ (outcomes c.2).succeeds = true := by
        simp [List.any_map,List.any_eq_true,Manager.stores]
      simp only [Option.some.injEq,exists_eq_left',← hany,Bool.not_eq_true]
      constructor
      · intro h
        exact hrelocks.trans h
      · intro h
        exact ⟨hrelocks.trans h,hheld h⟩
  | _ => exact ⟨False.elim,fun _ => ⟨rfl,rfl⟩⟩

/-- For a thread that makes any calls, whatever state the other threads leave for
each: it locks the mutex it holds exactly when it loads a binding from a file. -/
theorem lock_discipline_iff (answers : Answers M H) (calls : List (Manager × Call)) :
    relocks false (calls.flatMap fun c => c.2.log c.1 answers) = false ↔
    ∀ c, c ∈ calls → ¬ c.2.LoadsFromFile := by
  induction calls with
  | nil => simp [relocks]
  | cons c calls ih =>
    obtain ⟨hloads,hbracketed⟩ := c.2.log_locks c.1 answers
    rw [List.flatMap_cons,relocks_append,List.forall_mem_cons]
    by_cases h : c.2.LoadsFromFile
    · simp [hloads h,h]
    · rw [(hbracketed h).1,(hbracketed h).2,Bool.false_or,ih]
      simp [h]

def oneBinding : Option Document :=
  some ⟨[some ⟨"dds","libdds.so",BindingPriority.dds,true⟩],[]⟩

def plainAnswers : Answers Unit Unit :=
  ⟨fun _ _ => true,fun _ => (),fun _ => (),fun _ => false,fun _ => 0⟩

theorem loadConfiguration_relocks :
    relocks false ((Call.loadConfiguration oneBinding fun _ => ⟨some 0,true,true,none⟩).log .empty
      plainAnswers) = true := by
  decide +kernel

structure Manager.Unchanged (m m' : Manager) : Prop where
  bindings : m'.bindings = m.bindings
  bindingsByName : m'.bindingsByName = m.bindingsByName
  libraryHandles : m'.libraryHandles = m.libraryHandles
  staticMappings : m'.staticMappings = m.staticMappings
  selected : ∀ supports serviceId instanceId,
    m'.selectBinding supports serviceId instanceId = m.selectBinding supports serviceId instanceId

/-- The bindings and the first mapping can be read, but a later mapping cannot. -/
def FailsLate (file : Option Document) : Prop :=
  ∃ doc, file = some doc ∧ (∀ config, config ∈ doc.bindings → config ≠ none) ∧
    ∃ node rest, doc.staticMappings = node :: rest ∧ node.bind MappingNode.parse ≠ none ∧
      ∃ late, late ∈ rest ∧ late.bind MappingNode.parse = none

theorem parseBindings_eq_none (configs : List (Option BindingConfig)) :
    parseBindings configs = none ↔ none ∈ configs := by
  induction configs with
  | nil => simp [parseBindings]
  | cons config configs ih => cases config <;> simp [parseBindings,ih]

theorem parseMappings_complete (nodes : List (Option MappingNode)) :
    (parseMappings nodes).2 = false ↔
      ∃ node, node ∈ nodes ∧ node.bind MappingNode.parse = none := by
  induction nodes with
  | nil => simp [parseMappings]
  | cons node nodes ih =>
    rw [parseMappings]
    cases h : node.bind MappingNode.parse with
    | none => exact iff_of_true rfl ⟨node,List.mem_cons_self,h⟩
    | some mapping =>
      refine ih.trans ⟨?_,?_⟩
      · rintro ⟨late,hlate,hnone⟩
        exact ⟨late,List.mem_cons_of_mem _ hlate,hnone⟩
      · rintro ⟨late,hlate,hnone⟩
        obtain rfl | hlate := List.mem_cons.mp hlate
        · rw [h] at hnone; cases hnone
        · exact ⟨late,hlate,hnone⟩

theorem parseMappings_pushed (nodes : List (Option MappingNode)) :
    (parseMappings nodes).1 ≠ [] ↔
    ∃ node rest, nodes = node :: rest ∧ node.bind MappingNode.parse ≠ none := by
  cases nodes with
  | nil => simp [parseMappings]
  | cons node nodes =>
    rw [parseMappings]
    cases h : node.bind MappingNode.parse with
    | none =>
      refine iff_of_false (fun hne => hne rfl) ?_
      rintro ⟨_,_,heq,hne⟩
      cases heq
      exact hne h
    | some mapping =>
      refine iff_of_true (List.cons_ne_nil _ _) ⟨node,nodes,rfl,?_⟩
      rw [h]
      exact Option.some_ne_none _

theorem failsLate_iff (file : Option Document) :
    FailsLate file ↔ (parseYamlConfig file).2 = none ∧ (parseYamlConfig file).1 ≠ [] := by
  cases file with
  | none => simp [FailsLate,parseYamlConfig]
  | some doc =>
    simp only [FailsLate,parseYamlConfig,Option.some.injEq,exists_eq_left']
    cases hbindings : parseBindings doc.bindings with
    | none =>
      have hmem := (parseBindings_eq_none _).mp hbindings
      simp only [ne_eq,not_true_eq_false,and_false,iff_false,not_and]
      exact fun hall => absurd rfl (hall none hmem)
    | some configs =>
      have hall : ∀ config, config ∈ doc.bindings → config ≠ none := by
        rintro config hconfig rfl
        have := (parseBindings_eq_none _).mpr hconfig
        rw [hbindings] at this
        cases this
      have hfail : (if (parseMappings doc.staticMappings).2 = true then some configs else none) =
          none ↔ (parseMappings doc.staticMappings).2 = false := by
        cases (parseMappings doc.staticMappings).2 <;> simp
      rw [hfail,parseMappings_complete,parseMappings_pushed]
      constructor
      · rintro ⟨_,node,rest,hnodes,hfirst,late,hlate,hnone⟩
        exact ⟨⟨late,hnodes ▸ List.mem_cons_of_mem _ hlate,hnone⟩,node,rest,hnodes,hfirst⟩
      · rintro ⟨⟨late,hlate,hnone⟩,node,rest,hnodes,hfirst⟩
        refine ⟨hall,node,rest,hnodes,hfirst,late,?_,hnone⟩
        rw [hnodes] at hlate
        obtain rfl | hlate := List.mem_cons.mp hlate
        · exact absurd hnone hfirst
        · exact hlate

namespace Manager

theorem unchanged_pushMappings (m : Manager) (file : Option Document) :
    m.Unchanged (m.pushMappings file) ↔ (parseYamlConfig file).1 = [] := by
  constructor
  · intro h
    exact List.append_right_eq_self.mp h.staticMappings
  · intro h
    have heq : m.pushMappings file = m := by
      rw [pushMappings,h,List.append_nil]
    rw [heq]
    exact ⟨rfl,rfl,rfl,rfl,fun _ _ _ => rfl⟩

theorem loadEach_ne_error (m : Manager) (configs : List (BindingConfig × LoadOutcome))
    (e : ManagerError) : (m.loadEach configs).1 ≠ some (.error e) := by
  induction configs generalizing m with
  | nil => simp [loadEach]
  | cons c configs ih =>
    rw [loadEach]
    split
    · exact ih m
    · split
      · exact ih _
      · simp

theorem loadConfiguration_error (m : Manager) (file : Option Document)
    (outcomes : Nat → LoadOutcome) :
    ((∃ e, (m.loadConfiguration file outcomes).1 = some (.error e)) ↔
      (parseYamlConfig file).2 = none) ∧
    ((parseYamlConfig file).2 = none →
      (m.loadConfiguration file outcomes).2.1 = m.pushMappings file) := by
  simp only [loadConfiguration]
  cases (parseYamlConfig file).2 with
  | none => simp
  | some configs => simp [loadEach_ne_error]

theorem reloadConfiguration_error (m : Manager) (file : Option Document) (iteration : Iteration)
    (outcomes : Nat → LoadOutcome) :
    ((∃ e, (m.reloadConfiguration file iteration outcomes).1 = .error e) ↔
      (parseYamlConfig file).2 = none) ∧
    ((parseYamlConfig file).2 = none →
      (m.reloadConfiguration file iteration outcomes).2.1 = m.pushMappings file) := by
  simp only [reloadConfiguration]
  cases (parseYamlConfig file).2 with
  | none => simp
  | some configs => simp

theorem unchanged_iff_of_error {m m' : Manager} {file : Option Document} {p : Prop}
    (h : (p ↔ (parseYamlConfig file).2 = none) ∧
      ((parseYamlConfig file).2 = none → m' = m.pushMappings file)) :
    (p → m.Unchanged m') ↔ ¬ FailsLate file := by
  rw [failsLate_iff,h.1,not_and,not_not]
  constructor
  · intro hsame hnone
    exact (m.unchanged_pushMappings file).mp (h.2 hnone ▸ hsame hnone)
  · intro hnil hnone
    rw [h.2 hnone]
    exact (m.unchanged_pushMappings file).mpr (hnil hnone)

end Manager

/-- In every state and for every file: a failing call leaves the manager as it was
exactly when the file does not fail behind a mapping that can be read. -/
theorem configuration_atomic_iff (m : Manager) (file : Option Document) (iteration : Iteration)
    (outcomes : Nat → LoadOutcome) :
    (((∃ e, (m.loadConfiguration file outcomes).1 = some (.error e)) →
      m.Unchanged (m.loadConfiguration file outcomes).2.1) ↔ ¬ FailsLate file) ∧
    (((∃ e, (m.reloadConfiguration file iteration outcomes).1 = .error e) →
      m.Unchanged (m.reloadConfiguration file iteration outcomes).2.1) ↔ ¬ FailsLate file) :=
  ⟨Manager.unchanged_iff_of_error (m.loadConfiguration_error file outcomes),
    Manager.unchanged_iff_of_error (m.reloadConfiguration_error file iteration outcomes)⟩

def brokenSecondMapping : Option Document :=
  some ⟨[],[some ⟨"0xF001",none,"dds"⟩,some ⟨"service",none,"dds"⟩]⟩

def twoBindings : Manager :=
  ((State.initial.next (.registerBinding ⟨"iceoryx2","",BindingPriority.iceoryx2,true⟩ true)).next
    (.registerBinding ⟨"dds","",BindingPriority.dds,true⟩ true)).manager

def failedReload : Except ManagerError Unit × Effect :=
  twoBindings.reloadConfiguration brokenSecondMapping .plain fun _ => ⟨none,false,false,none⟩

/-- The second id is no number: the call fails, and the first mapping stays behind and
selects another binding than before. -/
theorem failed_reload_maps : failedReload.1 = .error (.manager .CONFIG_LOAD_FAILED) ∧
    twoBindings.selectBinding (fun _ _ => true) 0xF001 0 = some 0 ∧
    failedReload.2.1.selectBinding (fun _ _ => true) 0xF001 0 = some 1 := by
  refine ⟨rfl,?_,?_⟩
  · decide +kernel
  · decide +kernel

end LapCom.Binding
