import LapCom.Binding.Table

set_option autoImplicit false

namespace LapCom.Binding
open LapCom.Container LapCom.Machine

/-- A world where a name always stands for the same library, and where loading and
`SupportsService` depend on the library only. -/
structure Environment where
  path : String → String
  outcome : String → LoadOutcome
  serves : Lib → BitVec 64 → Bool

namespace Environment

def loads (env : Environment) (config : BindingConfig) : Bool :=
  (env.outcome config.libraryPath).succeeds

def serving (env : Environment) (path : String) (serviceId : BitVec 64) : Bool :=
  (env.outcome path).opened.any fun lib => env.serves lib serviceId

end Environment

/-- The enabled bindings have distinct names and distinct priorities, and are loaded
from the library of their name. -/
structure Regular (env : Environment) (configs : List BindingConfig)
    (outcomes : Nat → LoadOutcome) : Prop where
  names : ((configs.filter fun c => c.enabled).map fun c => c.name).Nodup
  priorities : ((configs.filter fun c => c.enabled).map fun c => c.priority).Nodup
  library : ∀ c, c ∈ configs.zipIdx → c.1.enabled = true →
    c.1.libraryPath = env.path c.1.name ∧ outcomes c.2 = env.outcome c.1.libraryPath

/-- Nothing is asked of a file that does not parse. -/
def Op.Regular (env : Environment) : Op → Prop
  | .reloadConfiguration file _ outcomes => ∀ configs, (parseYamlConfig file).2 = some configs →
      LapCom.Binding.Regular env configs outcomes
  | .unloadBinding _ => True
  | .shutdown _ => True
  | _ => False

structure Made (env : Environment) (m : Manager) (log : List Action) : Prop where
  below : ∀ lib o, .factory lib (some o) ∈ log → o < m.nextObj
  named : ∀ name o, m.bindingsByName.lookup name = some o →
    (env.outcome (env.path name)).succeeds = true ∧
    ∃ lib, (env.outcome (env.path name)).opened = some lib ∧
      ∀ lib', .factory lib' (some o) ∈ log ↔ lib' = lib

theorem openBinding_made {m : Manager} {outcome : LoadOutcome} {lib : Lib} {o : Obj}
    (h : .factory lib (some o) ∈ (m.openBinding outcome).2.2) :
    o = m.nextObj ∧ (m.openBinding outcome).2.1 = m.grown := by
  obtain ⟨opened,createSymbol,created,initError⟩ := outcome
  cases opened with
  | none => simp [Manager.openBinding] at h
  | some c =>
    cases createSymbol with
    | false => simp [Manager.openBinding] at h
    | true =>
      cases created with
      | false => simp [Manager.openBinding] at h
      | true =>
        cases initError <;> simp [Manager.openBinding] at h ⊢ <;> exact h.2

namespace Made

variable {env : Environment} {m m' : Manager} {log as : List Action}

theorem extend (h : Made env m log) (hnext : m'.nextObj = m.nextObj)
    (hnames : ∀ name o, m'.bindingsByName.lookup name = some o →
      m.bindingsByName.lookup name = some o)
    (has : ∀ lib o, .factory lib (some o) ∉ as) : Made env m' (log++as) := by
  have hlog : ∀ lib o, .factory lib (some o) ∈ log++as ↔ .factory lib (some o) ∈ log := by
    intro lib o
    simp [has lib o]
  refine ⟨fun lib o ho => ?_,fun name o hname => ?_⟩
  · rw [hnext]
    exact h.below lib o ((hlog lib o).mp ho)
  · simp only [hlog]
    exact h.named name o (hnames name o hname)

theorem push (h : Made env m log) (file : Option Document) : Made env (m.pushMappings file) log :=
  ⟨h.below,h.named⟩

theorem erase (h : Made env m log) {name : String} {o : Obj}
    (has : ∀ lib o, .factory lib (some o) ∉ as) :
    Made env ((m.eraseBinding name o).closeHandle name).1 (log++as) := by
  have hclosed : ((m.eraseBinding name o).closeHandle name).1.nextObj = m.nextObj ∧
      ((m.eraseBinding name o).closeHandle name).1.bindingsByName =
        m.bindingsByName.erase name := by
    unfold Manager.closeHandle
    split <;> exact ⟨rfl,rfl⟩
  refine h.extend hclosed.1 (fun name' o' hname' => ?_) has
  rw [hclosed.2] at hname'
  by_cases hne : name' = name
  · rw [hne,AList.lookup_erase] at hname'
    cases hname'
  · rwa [AList.lookup_erase_ne hne] at hname'

theorem remove (h : Made env m log) (name : String) :
    Made env (m.remove name).1 (log++(m.remove name).2) := by
  unfold Manager.remove
  split
  · simpa using h
  · refine h.erase fun lib o ho => ?_
    simp [closeHandle_log,Manager.dropped] at ho

theorem store (h : Made env m log) {config : BindingConfig} {lib : Lib}
    (hsucc : (env.outcome (env.path config.name)).succeeds = true)
    (hopened : (env.outcome (env.path config.name)).opened = some lib)
    (has : ∀ lib' o, .factory lib' (some o) ∈ as ↔ lib' = lib ∧ o = m.nextObj) :
    Made env (m.grown.store config m.nextObj (some lib)).1 (log++as) := by
  have hfresh : ∀ lib', .factory lib' (some m.nextObj) ∉ log :=
    fun lib' ho => Nat.lt_irrefl _ (h.below lib' _ ho)
  refine ⟨fun lib' o ho => ?_,fun name o hname => ?_⟩
  · obtain ho | ho := List.mem_append.mp ho
    · exact Nat.lt_succ_of_lt (h.below lib' o ho)
    · rw [((has lib' o).mp ho).2]
      exact Nat.lt_succ_self _
  · have hname : (m.bindingsByName.insert config.name m.nextObj).lookup name = some o := hname
    by_cases hn : name = config.name
    · subst hn
      rw [AList.lookup_insert] at hname
      cases hname
      refine ⟨hsucc,lib,hopened,fun lib' => ?_⟩
      simp [hfresh lib',has]
    · rw [AList.lookup_insert_ne hn] at hname
      obtain ⟨hs,lib',hlib',hmade⟩ := h.named name o hname
      have hold : o ≠ m.nextObj := by
        rintro rfl
        exact hfresh lib' ((hmade lib').mpr rfl)
      refine ⟨hs,lib',hlib',fun l => ?_⟩
      simp [has,hold,hmade]

theorem failed (h : Made env m log) {outcome : LoadOutcome} {e : ManagerError}
    (hopen : m.openBinding outcome = (.error e,m',as)) : Made env m' (log++as) := by
  have hmade : ∀ lib o, .factory lib (some o) ∈ as → o = m.nextObj ∧ m' = m.grown := by
    intro lib o ho
    have hin : .factory lib (some o) ∈ (m.openBinding outcome).2.2 := by rwa [hopen]
    have := openBinding_made hin
    rwa [hopen] at this
  have hm' : m' = m ∨ m' = m.grown := by
    obtain ⟨_,_,_,heq⟩ | ⟨_,_,_,_,heq,hm',_⟩ := m.openBinding_cases outcome
    · rw [hopen] at heq
      cases heq
    · rw [hopen] at heq
      cases heq
      exact hm'
  have hnext : m.nextObj ≤ m'.nextObj ∧ m'.bindingsByName = m.bindingsByName := by
    obtain rfl | rfl := hm'
    · exact ⟨Nat.le_refl _,rfl⟩
    · exact ⟨Nat.le_succ _,rfl⟩
  refine ⟨fun lib o ho => ?_,fun name o hname => ?_⟩
  · obtain ho | ho := List.mem_append.mp ho
    · exact Nat.lt_of_lt_of_le (h.below lib o ho) hnext.1
    · obtain ⟨rfl,rfl⟩ := hmade lib o ho
      exact Nat.lt_succ_self _
  · rw [hnext.2] at hname
    obtain ⟨hs,lib,hlib,hold⟩ := h.named name o hname
    have hbelow := h.below lib o ((hold lib).mpr rfl)
    refine ⟨hs,lib,hlib,fun lib' => ?_⟩
    rw [List.mem_append,hold,or_iff_left]
    exact fun ho => Nat.ne_of_lt hbelow (hmade lib' o ho).1

theorem add (h : Made env m log) {config : BindingConfig} {outcome : LoadOutcome}
    (houtcome : outcome = env.outcome (env.path config.name)) :
    Made env (m.add config outcome).1 (log++(m.add config outcome).2) := by
  unfold Manager.add
  split
  · simpa using h
  · obtain ⟨hsucc,lib,hopened,heq⟩ | ⟨_,e,m',as,heq,_⟩ := m.openBinding_cases outcome
    · rw [heq]
      rw [houtcome] at hsucc hopened
      refine h.store hsucc hopened fun lib' o => ?_
      simp [Manager.store,Manager.dropped]
    · rw [heq]
      exact h.failed heq

end Made

def Manager.Task.Regular (env : Environment) : Manager.Task → Prop
  | .remove _ => True
  | .add config outcome => outcome = env.outcome (env.path config.name)

theorem Made.runTasks {env : Environment} {m : Manager} {log : List Action} (h : Made env m log)
    {tasks : List Manager.Task} (htasks : ∀ task, task ∈ tasks → task.Regular env) :
    Made env (m.runTasks tasks).1 (log++(m.runTasks tasks).2) := by
  induction tasks generalizing m log with
  | nil => simpa [Manager.runTasks] using h
  | cons task tasks ih =>
    have htask : Made env (task.exec m).1 (log++(task.exec m).2) := by
      cases task with
      | remove name => exact h.remove name
      | add config outcome => exact h.add (htasks _ List.mem_cons_self)
    have := ih htask fun t ht => htasks t (List.mem_cons_of_mem _ ht)
    rwa [List.append_assoc] at this

theorem Regular.tasks {env : Environment} {configs : List BindingConfig}
    {outcomes : Nat → LoadOutcome} (h : Regular env configs outcomes) (m : Manager)
    (iteration : Iteration) :
    ∀ task, task ∈ m.tasks configs iteration outcomes → task.Regular env := by
  intro task htask
  obtain htask | htask := List.mem_append.mp htask
  · obtain ⟨name,_,rfl⟩ := List.mem_map.mp htask
    trivial
  · obtain ⟨c,hc,rfl⟩ := List.mem_map.mp htask
    obtain ⟨hc,henabled⟩ := List.mem_filter.mp hc
    obtain ⟨hpath,houtcome⟩ := h.library c hc henabled
    exact houtcome.trans (by rw [hpath])

theorem Op.Regular.fresh {env : Environment} {op : Op} (h : op.Regular env) (m : Manager) :
    op.FreshName m := by
  cases op with
  | registerBinding config given => exact h.elim
  | loadBinding config outcome => exact h.elim
  | unloadBinding name => trivial
  | reloadConfiguration file iteration outcomes => trivial
  | shutdown iteration => trivial

theorem Made.next {env : Environment} {s : State} {op : Op} (h : Made env s.manager s.log)
    (hop : op.Regular env) : Made env (s.next op).manager (s.next op).log := by
  cases op with
  | registerBinding config given => exact hop.elim
  | loadBinding config outcome => exact hop.elim
  | unloadBinding name =>
    show Made env (s.manager.unloadBinding name).2.1
      (s.log++(s.manager.unloadBinding name).2.2)
    unfold Manager.unloadBinding
    split
    · exact h.extend rfl (fun _ _ hname => hname) (by simp)
    · refine h.erase fun lib o ho => ?_
      simp [closeHandle_log,Manager.dropped] at ho
  | reloadConfiguration file iteration outcomes =>
    show Made env (s.manager.reloadConfiguration file iteration outcomes).2.1
      (s.log++(s.manager.reloadConfiguration file iteration outcomes).2.2)
    simp only [Manager.reloadConfiguration]
    cases hparse : (parseYamlConfig file).2 with
    | none => exact (h.push file).extend rfl (fun _ _ hname => hname) (by simp)
    | some configs =>
      have hlock : Made env (s.manager.pushMappings file) (s.log++[.lock]) :=
        (h.push file).extend rfl (fun _ _ hname => hname) (by simp)
      have htasks := hlock.runTasks ((hop configs hparse).tasks (s.manager.pushMappings file)
        iteration)
      have hunlock : Made env _ (_++[Action.unlock]) :=
        htasks.extend rfl (fun _ _ hname => hname) (by simp)
      simpa using hunlock
  | shutdown iteration =>
    refine ⟨fun lib o ho => ?_,fun name o hname => by cases hname⟩
    obtain ho | ho := List.mem_append.mp ho
    · exact h.below lib o ho
    · simp [Op.exec,Manager.shutdown] at ho

theorem Made.initial (env : Environment) : Made env State.initial.manager State.initial.log :=
  ⟨fun _ _ ho => (by cases ho),fun _ _ hname => (by cases hname)⟩

theorem reached {env : Environment} {σ : Nat → Op} {n : Nat} (hσ : ∀ k, k < n → (σ k).Regular env) :
    Indexed (stateAt State.next .initial σ n).manager (stateAt State.next .initial σ n).log ∧
    Made env (stateAt State.next .initial σ n).manager (stateAt State.next .initial σ n).log :=
  stateAt_invariant (I := fun s : State => Indexed s.manager s.log ∧ Made env s.manager s.log)
    (C := fun _ op => op.Regular env) ⟨Indexed.initial,Made.initial env⟩ hσ
    (fun s _ h hop => ⟨h.1.next (hop.fresh s.manager),h.2.next hop⟩) n (Nat.le_refl n)

end LapCom.Binding
