import LapCom.Binding.Manager
import LapCom.Machine.Run

set_option autoImplicit false

namespace LapCom.Binding
open LapCom.Container LapCom.Machine

def Action.marks : Action → Bool
  | .accept _ _ _ => true
  | .shutdown _ => true
  | _ => false

def Action.locks : Action → Bool
  | .lock => true
  | .unlock => true
  | _ => false

/-- The three containers tell one story: the entries of `bindings_` are the named
objects, each once, under the priority they were accepted with, and none of them
has been shut down. -/
structure Indexed (m : Manager) (log : List Action) : Prop where
  values_nodup : m.bindings.values.Nodup
  named_nodup : m.named.Nodup
  same : ∀ o, o ∈ m.bindings.values ↔ o ∈ m.named
  below : ∀ o, o ∈ m.named → o < m.nextObj
  accepted : ∀ name o p, m.bindingsByName.lookup name = some o → (p,o) ∈ m.bindings.entries →
    .accept name o p ∈ log
  shut_below : ∀ o, .shutdown o ∈ log → o < m.nextObj
  alive : ∀ o, o ∈ m.named → .shutdown o ∉ log

theorem Indexed.extend {m : Manager} {log as : List Action} (h : Indexed m log)
    (hshut : ∀ o, .shutdown o ∈ as → o < m.nextObj ∧ o ∉ m.named) : Indexed m (log++as) := by
  refine ⟨h.values_nodup,h.named_nodup,h.same,h.below,fun name o p h₁ h₂ => ?_,fun o ho => ?_,
    fun o ho hlog => ?_⟩
  · exact List.mem_append_left _ (h.accepted name o p h₁ h₂)
  · obtain ho | ho := List.mem_append.mp ho
    · exact h.shut_below o ho
    · exact (hshut o ho).1
  · obtain hlog | hlog := List.mem_append.mp hlog
    · exact h.alive o ho hlog
    · exact (hshut o hlog).2 ho

theorem Indexed.quiet {m : Manager} {log as : List Action} (h : Indexed m log)
    (has : ∀ a, a ∈ as → a.marks = false) : Indexed m (log++as) :=
  h.extend fun o ho => by cases has _ ho

theorem Indexed.bump {m : Manager} {log : List Action} (h : Indexed m log) :
    Indexed m.grown log :=
  ⟨h.values_nodup,h.named_nodup,h.same,fun o ho => Nat.lt_succ_of_lt (h.below o ho),h.accepted,
    fun o ho => Nat.lt_succ_of_lt (h.shut_below o ho),h.alive⟩

theorem dropped_quiet (m : Manager) (objs : List Obj) :
    ∀ a, a ∈ m.dropped objs → a.marks = false := by
  intro a ha
  obtain ⟨o,_,rfl⟩ := List.mem_map.mp ha
  rfl

theorem Indexed.store {m : Manager} {log : List Action} (h : Indexed m log)
    {config : BindingConfig} (hname : config.name ∉ m.bindingsByName) (handle : Option Lib) :
    Indexed (m.grown.store config m.nextObj handle).1
      (log++(m.grown.store config m.nextObj handle).2) := by
  have hfresh : m.nextObj ∉ m.named := fun ho => Nat.lt_irrefl _ (h.below _ ho)
  have hvalues : (m.grown.store config m.nextObj handle).1.bindings.values.Perm
      (m.nextObj :: m.bindings.values) := m.grown.store_values_perm config m.nextObj handle
  have hnamed : (m.grown.store config m.nextObj handle).1.named = m.nextObj :: m.named := by
    rw [Manager.store_named]
    exact congrArg (fun es => m.nextObj :: es.map Sigma.snd) (List.kerase_of_notMem_keys hname)
  have hlog : ∀ a, a ∈ log++(m.grown.store config m.nextObj handle).2 → a.marks = true →
      a = .accept config.name m.nextObj config.priority ∨ a ∈ log := by
    intro a ha hmark
    obtain ha | ha := List.mem_append.mp ha
    · exact .inr ha
    · obtain rfl | ha := List.mem_cons.mp ha
      · exact .inl rfl
      · rw [dropped_quiet _ _ a ha] at hmark; cases hmark
  refine ⟨?_,?_,fun o => ?_,fun o ho => ?_,fun name o p h₁ h₂ => ?_,fun o ho => ?_,
    fun o ho hshut => ?_⟩
  · rw [hvalues.nodup_iff,List.nodup_cons,h.same]
    exact ⟨hfresh,h.values_nodup⟩
  · rw [hnamed,List.nodup_cons]
    exact ⟨hfresh,h.named_nodup⟩
  · rw [hvalues.mem_iff,hnamed,List.mem_cons,List.mem_cons,h.same]
  · rw [hnamed,List.mem_cons] at ho
    obtain rfl | ho := ho
    · exact Nat.lt_succ_self _
    · exact Nat.lt_succ_of_lt (h.below o ho)
  · have h₁' : (m.bindingsByName.insert config.name m.nextObj).lookup name = some o := h₁
    have h₂' : (p,o) ∈ (m.bindings.emplace config.priority m.nextObj).entries := h₂
    rw [PriorityMap.mem_emplace,Prod.mk.injEq] at h₂'
    by_cases hn : name = config.name
    · subst hn
      rw [AList.lookup_insert] at h₁'
      cases h₁'
      obtain ⟨rfl,_⟩ | hold := h₂'
      · exact List.mem_append_right _ (List.mem_cons_self)
      · exact absurd ((h.same _).mp (PriorityMap.mem_values.mpr ⟨p,hold⟩)) hfresh
    · rw [AList.lookup_insert_ne hn] at h₁'
      obtain ⟨_,rfl⟩ | hold := h₂'
      · exact absurd (Manager.mem_named.mpr ⟨name,h₁'⟩) hfresh
      · exact List.mem_append_left _ (h.accepted name o p h₁' hold)
  · obtain hshut | hshut := hlog _ ho rfl
    · cases hshut
    · exact Nat.lt_succ_of_lt (h.shut_below o hshut)
  · obtain hshut | hshut := hlog _ hshut rfl
    · cases hshut
    · rw [hnamed,List.mem_cons] at ho
      obtain rfl | ho := ho
      · exact Nat.lt_irrefl _ (h.shut_below _ hshut)
      · exact h.alive o ho hshut

theorem Indexed.erase {m : Manager} {log as : List Action} (h : Indexed m log) {name : String}
    {o : Obj} (hname : m.bindingsByName.lookup name = some o)
    (has : ∀ a, a ∈ as → a = .shutdown o ∨ a.marks = false) :
    Indexed (m.eraseBinding name o) (log++as) := by
  have hmem : ∀ o', o' ∈ (m.eraseBinding name o).named ↔ o' ∈ m.named ∧ o' ≠ o :=
    fun _ => Manager.mem_named_erase h.named_nodup hname
  have hvalues := m.eraseBinding_values name o
  have hshut : ∀ o', .shutdown o' ∈ as → o' = o := by
    intro o' ho'
    obtain heq | hquiet := has _ ho'
    · cases heq; rfl
    · cases hquiet
  have hcore : Indexed (m.eraseBinding name o) log := by
    refine ⟨?_,?_,fun o' => ?_,fun o' ho' => ?_,fun name' o' p h₁ h₂ => ?_,h.shut_below,
      fun o' ho' => ?_⟩
    · rw [hvalues]; exact h.values_nodup.filter _
    · exact Manager.nodup_named_erase h.named_nodup name o
    · rw [hvalues,hmem,List.mem_filter,h.same]
      simp
    · exact h.below o' ((hmem o').mp ho').1
    · have h₁' : (m.bindingsByName.erase name).lookup name' = some o' := h₁
      have hne : name' ≠ name := by
        rintro rfl
        rw [AList.lookup_erase] at h₁'; cases h₁'
      rw [AList.lookup_erase_ne hne] at h₁'
      exact h.accepted name' o' p h₁' (PriorityMap.mem_filterValues.mp h₂).1
    · exact h.alive o' ((hmem o').mp ho').1
  refine hcore.extend fun o' ho' => ?_
  rw [hshut o' ho']
  exact ⟨h.below o (Manager.mem_named.mpr ⟨name,hname⟩),fun hin => ((hmem o).mp hin).2 rfl⟩

theorem Indexed.close {m : Manager} {log : List Action} (h : Indexed m log) (name : String) :
    Indexed (m.closeHandle name).1 log := by
  unfold Manager.closeHandle
  split
  · exact h
  · exact ⟨h.values_nodup,h.named_nodup,h.same,h.below,h.accepted,h.shut_below,h.alive⟩

theorem closeHandle_log (m : Manager) (name : String) :
    (m.closeHandle name).2 = (m.libraryHandles.lookup name).toList.map .dlclose := by
  unfold Manager.closeHandle
  cases m.libraryHandles.lookup name <;> rfl

theorem close_quiet (m : Manager) (name : String) :
    ∀ a, a ∈ (m.closeHandle name).2 → a.marks = false := by
  rw [closeHandle_log]
  simp [Action.marks]

theorem removed_quiet (m : Manager) (name : String) (o : Obj) :
    ∀ a, a ∈ .shutdown o :: ((m.closeHandle name).2++(m.closeHandle name).1.dropped [o]) →
      a = .shutdown o ∨ a.marks = false := by
  intro a ha
  obtain rfl | ha := List.mem_cons.mp ha
  · exact .inl rfl
  · obtain ha | ha := List.mem_append.mp ha
    · exact .inr (close_quiet _ _ a ha)
    · exact .inr (dropped_quiet _ _ a ha)

theorem unloaded_quiet (m : Manager) (name : String) (o : Obj) :
    ∀ a, a ∈ [.lock,.shutdown o]++m.dropped [o]++(m.closeHandle name).2++[.unlock] →
      a = .shutdown o ∨ a.marks = false := by
  intro a ha
  simp only [List.mem_append,List.mem_cons,List.not_mem_nil,or_false] at ha
  rcases ha with (((rfl | rfl) | ha) | ha) | rfl
  · exact .inr rfl
  · exact .inl rfl
  · exact .inr (dropped_quiet _ _ a ha)
  · exact .inr (close_quiet _ _ a ha)
  · exact .inr rfl

def LoadOutcome.succeeds (outcome : LoadOutcome) : Bool :=
  outcome.opened.isSome && outcome.createSymbol && outcome.created && outcome.initError.isNone

theorem Manager.openBinding_cases (m : Manager) (outcome : LoadOutcome) :
    (outcome.succeeds = true ∧ ∃ lib, outcome.opened = some lib ∧ m.openBinding outcome =
      (.ok (lib,m.nextObj),m.grown,
        [.dlopen lib,.factory lib (some m.nextObj),.init m.nextObj])) ∨
    (outcome.succeeds = false ∧ ∃ e m' as, m.openBinding outcome = (.error e,m',as) ∧
      (m' = m ∨ m' = m.grown) ∧ (∀ a, a ∈ as → a.marks = false ∧ a.locks = false) ∧
      ∀ lib, as.count (.dlopen lib) = as.count (.dlclose lib)) := by
  obtain ⟨opened,createSymbol,created,initError⟩ := outcome
  cases opened with
  | none => exact .inr ⟨rfl,_,_,_,rfl,.inl rfl,by simp,by simp⟩
  | some lib =>
    cases createSymbol with
    | false =>
      exact .inr ⟨rfl,_,_,_,rfl,.inl rfl,by simp [Action.marks,Action.locks],
        by simp [List.count_cons]⟩
    | true =>
      cases created with
      | false =>
        exact .inr ⟨rfl,_,_,_,rfl,.inl rfl,by simp [Action.marks,Action.locks],
          by simp [List.count_cons]⟩
      | true =>
        cases initError with
        | some code =>
          exact .inr ⟨rfl,_,_,_,rfl,.inr rfl,by simp [Action.marks,Action.locks],
            by simp [List.count_cons]⟩
        | none => exact .inl ⟨rfl,lib,rfl,rfl⟩

theorem Indexed.openBinding {m : Manager} {log : List Action} (h : Indexed m log)
    (outcome : LoadOutcome) :
    (outcome.succeeds = true ∧ ∃ lib as, m.openBinding outcome = (.ok (lib,m.nextObj),m.grown,as) ∧
      ∀ a, a ∈ as → a.marks = false) ∨
    (outcome.succeeds = false ∧ ∃ e m' as, m.openBinding outcome = (.error e,m',as) ∧
      Indexed m' (log++as)) := by
  obtain ⟨hsucc,lib,_,heq⟩ | ⟨hfail,e,m',as,heq,hm',hquiet,_⟩ := m.openBinding_cases outcome
  · exact .inl ⟨hsucc,lib,_,heq,by simp [Action.marks]⟩
  · refine .inr ⟨hfail,e,m',as,heq,?_⟩
    obtain rfl | rfl := hm'
    · exact h.quiet fun a ha => (hquiet a ha).1
    · exact h.bump.quiet fun a ha => (hquiet a ha).1

theorem Indexed.remove {m : Manager} {log : List Action} (h : Indexed m log) (name : String) :
    Indexed (m.remove name).1 (log++(m.remove name).2) := by
  unfold Manager.remove
  cases hname : m.bindingsByName.lookup name with
  | none => simpa using h
  | some o => exact Indexed.close (h.erase hname (removed_quiet _ name o)) name

theorem Indexed.add {m : Manager} {log : List Action} (h : Indexed m log) (config : BindingConfig)
    (outcome : LoadOutcome) :
    Indexed (m.add config outcome).1 (log++(m.add config outcome).2) := by
  unfold Manager.add
  split
  · simpa using h
  · rename_i hname
    have hname : config.name ∉ m.bindingsByName := by
      rwa [AList.lookup_isSome] at hname
    obtain ⟨_,lib,as,heq,hquiet⟩ | ⟨_,e,m',as,heq,h'⟩ := h.openBinding outcome
    · have hstore := (h.quiet hquiet).store hname (some lib)
      rw [List.append_assoc] at hstore
      rw [heq]
      exact hstore
    · rw [heq]
      exact h'

theorem Indexed.runTasks {m : Manager} {log : List Action} (h : Indexed m log)
    (tasks : List Manager.Task) : Indexed (m.runTasks tasks).1 (log++(m.runTasks tasks).2) := by
  induction tasks generalizing m log with
  | nil => simpa [Manager.runTasks] using h
  | cons task tasks ih =>
    have htask : Indexed (task.exec m).1 (log++(task.exec m).2) := by
      cases task with
      | remove name => exact h.remove name
      | add config outcome => exact h.add config outcome
    have := ih htask
    rwa [List.append_assoc] at this

theorem Indexed.locked {m : Manager} {log as : List Action}
    (h : Indexed m ((log++[.lock])++as)) : Indexed m (log++(.lock :: as++[.unlock])) := by
  have hunlock : ∀ a, a ∈ [Action.unlock] → a.marks = false := by simp [Action.marks]
  simpa using h.quiet hunlock

theorem Indexed.lock {m : Manager} {log : List Action} (h : Indexed m log) :
    Indexed m (log++[.lock]) := h.quiet (by simp [Action.marks])

theorem Indexed.unloadBinding {m : Manager} {log : List Action} (h : Indexed m log)
    (name : String) :
    Indexed (m.unloadBinding name).2.1 (log++(m.unloadBinding name).2.2) := by
  unfold Manager.unloadBinding
  cases hname : m.bindingsByName.lookup name with
  | none => exact h.quiet (by simp [Action.marks])
  | some o => exact Indexed.close (h.erase hname (unloaded_quiet _ name o)) name

theorem Indexed.push {m : Manager} {log : List Action} (h : Indexed m log)
    (file : Option Document) : Indexed (m.pushMappings file) log :=
  ⟨h.values_nodup,h.named_nodup,h.same,h.below,h.accepted,h.shut_below,h.alive⟩

theorem Indexed.reloadConfiguration {m : Manager} {log : List Action} (h : Indexed m log)
    (file : Option Document) (iteration : Iteration) (outcomes : Nat → LoadOutcome) :
    Indexed (m.reloadConfiguration file iteration outcomes).2.1
      (log++(m.reloadConfiguration file iteration outcomes).2.2) := by
  have hmapped := h.push file
  simp only [Manager.reloadConfiguration]
  cases (parseYamlConfig file).2 with
  | none => exact (List.append_nil log).symm ▸ hmapped
  | some configs => exact (hmapped.lock.runTasks _).locked

theorem Indexed.shutdown {m : Manager} {log : List Action} (h : Indexed m log)
    (iteration : Iteration) :
    Indexed (m.shutdown iteration).2.1 (log++(m.shutdown iteration).2.2) := by
  refine ⟨List.nodup_nil,List.nodup_nil,fun o => Iff.rfl,fun o ho => ?_,fun name o p hn => ?_,
    fun o ho => ?_,fun o ho => ?_⟩
  · cases ho
  · cases hn
  · obtain ho | ho := List.mem_append.mp ho
    · exact h.shut_below o ho
    · have hnamed : o ∈ m.named := by
        simp only [Manager.shutdown,List.mem_append,List.mem_cons,List.mem_map,
          List.mem_filterMap] at ho
        simp only [reduceCtorEq,false_or,and_false,exists_const,or_false,List.not_mem_nil,
          Action.shutdown.injEq,exists_eq_right] at ho
        obtain ⟨name,_,hname⟩ := ho
        exact Manager.mem_named.mpr ⟨name,hname⟩
      exact h.below o hnamed
  · cases ho

def Op.FreshName (m : Manager) : Op → Prop
  | .registerBinding config given => given = true → config.name ∉ m.bindingsByName
  | .loadBinding config outcome => outcome.succeeds = true → config.name ∉ m.bindingsByName
  | _ => True

theorem Indexed.next {s : State} {op : Op} (h : Indexed s.manager s.log)
    (hop : op.FreshName s.manager) : Indexed (s.next op).manager (s.next op).log := by
  cases op with
  | registerBinding config given =>
    cases given with
    | false =>
      show Indexed s.manager (s.log++[])
      rwa [List.append_nil]
    | true => exact (h.lock.store (hop rfl) none).locked
  | loadBinding config outcome =>
    show Indexed (s.manager.loadBinding config outcome).2.1
      (s.log++(s.manager.loadBinding config outcome).2.2)
    obtain ⟨hsucc,lib,as,heq,hquiet⟩ | ⟨_,e,m',as,heq,h'⟩ := h.openBinding outcome
    · have hstore := ((h.quiet hquiet).lock.store (hop hsucc) (some lib)).locked
      simp only [Manager.loadBinding,heq]
      simpa only [List.append_assoc,List.cons_append] using hstore
    · simp only [Manager.loadBinding,heq]
      exact h'
  | unloadBinding name => exact h.unloadBinding name
  | reloadConfiguration file iteration outcomes =>
    exact h.reloadConfiguration file iteration outcomes
  | shutdown iteration => exact h.shutdown iteration

/-- Every name has exactly one entry, that of its binding under the priority it was
accepted with; there are no other entries; what is selected is named and alive. -/
structure IndexConsistent (s : State) : Prop where
  each : ∀ name o, s.manager.bindingsByName.lookup name = some o →
    ∃ p, .accept name o p ∈ s.log ∧ (s.manager.bindings.entries.filter fun e => e.2 = o) = [(p,o)]
  only : ∀ e, e ∈ s.manager.bindings.entries →
    ∃ name, s.manager.bindingsByName.lookup name = some e.2
  selected : ∀ supports serviceId instanceId o,
    s.manager.selectBinding supports serviceId instanceId = some o →
    .shutdown o ∉ s.log ∧ ∃ name, s.manager.bindingsByName.lookup name = some o

theorem Manager.selectBinding_mem {m : Manager} {supports : Obj → BitVec 64 → Bool}
    {serviceId instanceId : BitVec 64} {o : Obj}
    (h : m.selectBinding supports serviceId instanceId = some o) :
    o ∈ m.named ∨ o ∈ m.bindings.values := by
  unfold Manager.selectBinding at h
  split at h
  · rename_i o' hmapped
    cases h
    obtain ⟨name,_,hname⟩ := Option.bind_eq_some_iff.mp hmapped
    exact .inl (Manager.mem_named.mpr ⟨name,hname⟩)
  · obtain ⟨e,hfind,rfl⟩ := Option.map_eq_some_iff.mp h
    exact .inr (List.mem_map.mpr ⟨e,List.mem_of_find?_eq_some hfind,rfl⟩)

theorem Indexed.consistent {s : State} (h : Indexed s.manager s.log) : IndexConsistent s := by
  refine ⟨fun name o hname => ?_,fun e he => ?_,fun supports serviceId instanceId o hsel => ?_⟩
  · have hin := (h.same o).mpr (Manager.mem_named.mpr ⟨name,hname⟩)
    obtain ⟨p,hp⟩ := PriorityMap.mem_values.mp hin
    exact ⟨p,h.accepted name o p hname hp,PriorityMap.filter_value h.values_nodup hp⟩
  · exact Manager.mem_named.mp ((h.same e.2).mp (List.mem_map.mpr ⟨e,he,rfl⟩))
  · have hnamed : o ∈ s.manager.named := by
      obtain hin | hin := Manager.selectBinding_mem hsel
      · exact hin
      · exact (h.same o).mp hin
    exact ⟨h.alive o hnamed,Manager.mem_named.mp hnamed⟩

theorem Indexed.store_stale {m : Manager} {log : List Action} (h : Indexed m log)
    {config : BindingConfig} (hname : config.name ∈ m.bindingsByName) (handle : Option Lib) :
    ∃ e, e ∈ (m.grown.store config m.nextObj handle).1.bindings.entries ∧
      ∀ name, (m.grown.store config m.nextObj handle).1.bindingsByName.lookup name ≠ some e.2 := by
  obtain ⟨old,hold⟩ := Option.isSome_iff_exists.mp (AList.lookup_isSome.mpr hname)
  have hnamed : old ∈ m.named := Manager.mem_named.mpr ⟨config.name,hold⟩
  obtain ⟨p,hp⟩ := PriorityMap.mem_values.mp ((h.same old).mpr hnamed)
  refine ⟨(p,old),PriorityMap.mem_emplace.mpr (.inr hp),fun name hlookup => ?_⟩
  have hlookup : (m.bindingsByName.insert config.name m.nextObj).lookup name = some old := hlookup
  by_cases hn : name = config.name
  · rw [hn,AList.lookup_insert] at hlookup
    have := h.below old hnamed
    cases hlookup
    exact Nat.lt_irrefl _ this
  · rw [AList.lookup_insert_ne hn] at hlookup
    exact hn (Manager.name_unique h.named_nodup hlookup hold)

theorem Indexed.fresh_of_consistent {s : State} {op : Op} (h : Indexed s.manager s.log)
    (hcons : IndexConsistent (s.next op)) : op.FreshName s.manager := by
  cases op with
  | registerBinding config given =>
    rintro rfl hname
    obtain ⟨e,he,hnone⟩ := h.store_stale hname none
    obtain ⟨name,hlookup⟩ := hcons.only e he
    exact hnone name hlookup
  | loadBinding config outcome =>
    intro hsucc hname
    obtain ⟨_,lib,as,heq,_⟩ | ⟨hfail,_⟩ := h.openBinding outcome
    · obtain ⟨e,he,hnone⟩ := h.store_stale hname (some lib)
      have hnext : (s.next (.loadBinding config outcome)).manager =
          (s.manager.grown.store config s.manager.nextObj (some lib)).1 := by
        simp [State.next,Op.exec,Manager.loadBinding,heq]
      have honly := hcons.only
      rw [hnext] at honly
      obtain ⟨name,hlookup⟩ := honly e he
      exact hnone name hlookup
    · rw [hsucc] at hfail; cases hfail
  | unloadBinding name => trivial
  | reloadConfiguration file iteration outcomes => trivial
  | shutdown iteration => trivial

theorem Indexed.initial : Indexed State.initial.manager State.initial.log := by
  refine ⟨List.nodup_nil,List.nodup_nil,fun o => Iff.rfl,fun o ho => ?_,fun name o p hn => ?_,
    fun o ho => ?_,fun o ho => ?_⟩
  · cases ho
  · cases hn
  · cases ho
  · cases ho

/-- Over every run: the containers agree in all states reached exactly when no
binding is stored under a name in use. -/
theorem index_consistent_iff (σ : Nat → Op) (n : Nat) :
    (∀ k, k < n → IndexConsistent (stateAt State.next .initial σ (k+1))) ↔
    (∀ k, k < n → (σ k).FreshName (stateAt State.next .initial σ k).manager) := by
  refine forall_iff_of_invariant (I := fun k => Indexed (stateAt State.next .initial σ k).manager
    (stateAt State.next .initial σ k).log) Indexed.initial (fun k h hop => h.next hop) ?_
  intro k h
  exact ⟨h.fresh_of_consistent,fun hop => (h.next hop).consistent⟩

def registerTwice : State :=
  (State.initial.next (.registerBinding ⟨"local","",BindingPriority.iceoryx2,true⟩ true)).next
    (.registerBinding ⟨"local","",BindingPriority.dds,true⟩ true)

/-- The replaced binding keeps its entry and is the one that is selected. -/
theorem registerTwice_inconsistent : ¬ IndexConsistent registerTwice ∧
    registerTwice.manager.selectBinding (fun _ _ => true) 1 0 = some 0 ∧
    registerTwice.manager.bindingsByName.lookup "local" = some 1 := by
  refine ⟨fun h => ?_,by decide +kernel,by decide +kernel⟩
  have hentry : (BindingPriority.iceoryx2,0) ∈ registerTwice.manager.bindings.entries := by
    decide +kernel
  have hunnamed : 0 ∉ registerTwice.manager.named := by decide +kernel
  exact hunnamed (Manager.mem_named.mpr (h.only _ hentry))

end LapCom.Binding
