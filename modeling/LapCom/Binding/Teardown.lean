import LapCom.Binding.Index
import LapCom.Binding.Lifetime

set_option autoImplicit false

namespace LapCom.Binding
open LapCom.Container LapCom.Machine

/-- Every accepted object got one `Shutdown`, and every `dlopen` has its `dlclose`. -/
structure TornDown (log : List Action) : Prop where
  objects : ∀ name o p, .accept name o p ∈ log → log.count (.shutdown o) = 1
  libraries : ∀ lib, log.count (.dlopen lib) = log.count (.dlclose lib)

structure Accounted (m : Manager) (log : List Action) : Prop where
  below : ∀ name o p, .accept name o p ∈ log → o < m.nextObj
  objects : ∀ name o p, .accept name o p ∈ log →
    log.count (.shutdown o) = if o ∈ m.named then 0 else 1
  libraries : ∀ lib, log.count (.dlopen lib) = log.count (.dlclose lib)+m.handles.count lib
  owned : ∀ name, name ∈ m.libraryHandles → name ∈ m.bindingsByName

theorem count_shutdown_quiet {as : List Action} (h : ∀ a, a ∈ as → a.marks = false) (o : Obj) :
    as.count (.shutdown o) = 0 :=
  List.count_eq_zero_of_not_mem fun ho => by cases h _ ho

theorem count_dropped (m : Manager) (objs : List Obj) {a : Action} (ha : ∀ o, a ≠ .destroy o) :
    (m.dropped objs).count a = 0 := by
  apply List.count_eq_zero_of_not_mem
  intro h
  obtain ⟨o,_,rfl⟩ := List.mem_map.mp h
  exact ha o rfl

theorem Accounted.quiet {m : Manager} {log : List Action} (h : Accounted m log)
    {as : List Action} (hquiet : ∀ a, a ∈ as → a.marks = false)
    (hbalanced : ∀ lib, as.count (.dlopen lib) = as.count (.dlclose lib)) :
    Accounted m (log++as) := by
  have hold : ∀ name o p, .accept name o p ∈ log++as → .accept name o p ∈ log := by
    intro name o p ha
    obtain ha | ha := List.mem_append.mp ha
    · exact ha
    · cases hquiet _ ha
  refine ⟨fun name o p ha => h.below name o p (hold name o p ha),fun name o p ha => ?_,
    fun lib => ?_,h.owned⟩
  · rw [List.count_append,count_shutdown_quiet hquiet,Nat.add_zero]
    exact h.objects name o p (hold name o p ha)
  · rw [List.count_append,List.count_append,h.libraries,hbalanced]
    omega

theorem Accounted.bump {m : Manager} {log : List Action} (h : Accounted m log) :
    Accounted m.grown log :=
  ⟨fun name o p ha => Nat.lt_succ_of_lt (h.below name o p ha),h.objects,h.libraries,h.owned⟩

theorem Accounted.push {m : Manager} {log : List Action} (h : Accounted m log)
    (file : Option Document) : Accounted (m.pushMappings file) log :=
  ⟨h.below,h.objects,h.libraries,h.owned⟩

/-- `as` is what came before the binding was stored; it opened the handle that goes
into the table. -/
theorem Accounted.store {m : Manager} {log : List Action} (h : Accounted m log)
    (hindexed : Indexed m log) {config : BindingConfig} (hname : config.name ∉ m.bindingsByName)
    (handle : Option Lib) (as : List Action) (hquiet : ∀ a, a ∈ as → a.marks = false)
    (hopened : ∀ lib, as.count (.dlopen lib) = as.count (.dlclose lib)+handle.toList.count lib) :
    Accounted (m.grown.store config m.nextObj handle).1
      (log++as++(m.grown.store config m.nextObj handle).2) := by
  have hnamed : (m.grown.store config m.nextObj handle).1.named = m.nextObj :: m.named := by
    rw [Manager.store_named]
    exact congrArg (fun es => m.nextObj :: es.map Sigma.snd) (List.kerase_of_notMem_keys hname)
  have hdropped : ∀ {a : Action}, (∀ o, a ≠ .destroy o) →
      (m.grown.store config m.nextObj handle).2.count a =
        [Action.accept config.name m.nextObj config.priority].count a := by
    intro a ha
    show List.count a (_ :: Manager.dropped _ _) = _
    rw [List.count_cons,count_dropped _ _ ha,List.count_singleton]
    omega
  have haccept : ∀ name o p,
      .accept name o p ∈ log++as++(m.grown.store config m.nextObj handle).2 →
      o = m.nextObj ∨ .accept name o p ∈ log := by
    intro name o p ha
    obtain ha | ha := List.mem_append.mp ha
    · obtain ha | ha := List.mem_append.mp ha
      · exact .inr ha
      · cases hquiet _ ha
    · obtain ha | ha := List.mem_cons.mp ha
      · cases ha
        exact .inl rfl
      · cases dropped_quiet _ _ _ ha
  have hshut : ∀ o, (log++as++(m.grown.store config m.nextObj handle).2).count (.shutdown o) =
      log.count (.shutdown o) := by
    intro o
    rw [List.count_append,List.count_append,count_shutdown_quiet hquiet,hdropped (by simp)]
    rfl
  refine ⟨fun name o p ha => ?_,fun name o p ha => ?_,fun lib => ?_,fun name hin => ?_⟩
  · obtain rfl | ha := haccept name o p ha
    · exact Nat.lt_succ_self _
    · exact Nat.lt_succ_of_lt (h.below name o p ha)
  · rw [hshut,hnamed]
    obtain rfl | ha := haccept name o p ha
    · rw [if_pos List.mem_cons_self]
      exact List.count_eq_zero_of_not_mem fun ho => Nat.lt_irrefl _ (hindexed.shut_below _ ho)
    · have hne : o ≠ m.nextObj := Nat.ne_of_lt (h.below name o p ha)
      rw [h.objects name o p ha]
      simp [hne]
  · have hhandles : (m.grown.store config m.nextObj handle).1.handles.count lib =
        m.handles.count lib+handle.toList.count lib := by
      cases handle with
      | none => rfl
      | some c =>
        show ((m.libraryHandles.insert config.name c).entries.map Sigma.snd).count lib = _
        rw [AList.entries_insert,List.kerase_of_notMem_keys fun hin => hname (h.owned _ hin),
          List.map_cons,List.count_cons,Option.toList_some,List.count_singleton]
        rfl
    simp only [List.count_append,hdropped,ne_eq,reduceCtorEq,not_false_eq_true,implies_true,
      hhandles,h.libraries,hopened,List.count_singleton,beq_iff_eq,if_false]
    omega
  · show name ∈ m.bindingsByName.insert config.name m.nextObj
    rw [AList.mem_insert]
    cases handle with
    | none => exact .inr (h.owned name hin)
    | some c =>
      have hin : name ∈ m.libraryHandles.insert config.name c := hin
      rw [AList.mem_insert] at hin
      exact hin.imp_right (h.owned name)

theorem entries_perm_erase {V : Type} {names : NameMap V} {name : String} {v : V}
    (h : names.lookup name = some v) :
    names.entries.Perm (⟨name,v⟩ :: (names.erase name).entries) := by
  have hmem := AList.mem_lookup_iff.mp h
  obtain ⟨v',front,back,_,hentries,hkerase⟩ :=
    List.exists_of_kerase (List.mem_keys_of_mem hmem)
  have hv' : names.lookup name = some v' := by
    apply AList.mem_lookup_iff.mpr
    rw [hentries]
    exact List.mem_append_right _ List.mem_cons_self
  rw [h] at hv'
  cases hv'
  show names.entries.Perm (⟨name,v⟩ :: List.kerase name names.entries)
  rw [hkerase,hentries]
  exact List.perm_middle

theorem Manager.handles_closeHandle (m : Manager) (name : String) (lib : Lib) :
    m.handles.count lib =
      (m.closeHandle name).1.handles.count lib+(m.libraryHandles.lookup name).toList.count lib := by
  unfold closeHandle
  cases hlookup : m.libraryHandles.lookup name with
  | none => rfl
  | some c =>
    have hperm := (entries_perm_erase hlookup).map Sigma.snd
    rw [handles,hperm.count_eq,List.map_cons,List.count_cons,Option.toList_some,
      List.count_singleton]
    rfl

theorem Manager.owned_closeHandle {m : Manager} {name name' : String} {o : Obj}
    (howned : ∀ name, name ∈ m.libraryHandles → name ∈ m.bindingsByName)
    (h : name' ∈ ((m.eraseBinding name o).closeHandle name).1.libraryHandles) :
    name' ∈ m.bindingsByName.erase name := by
  rw [AList.mem_erase]
  unfold closeHandle at h
  cases hlookup : m.libraryHandles.lookup name with
  | none =>
    rw [show (m.eraseBinding name o).libraryHandles.lookup name = none from hlookup] at h
    refine ⟨?_,howned name' h⟩
    rintro rfl
    exact AList.lookup_eq_none.mp hlookup h
  | some c =>
    rw [show (m.eraseBinding name o).libraryHandles.lookup name = some c from hlookup] at h
    have h : name' ∈ m.libraryHandles.erase name := h
    rw [AList.mem_erase] at h
    exact h.imp_right (howned name')

theorem Accounted.erase {m : Manager} {log as : List Action} (h : Accounted m log)
    (hindexed : Indexed m log) {name : String} {o : Obj}
    (hname : m.bindingsByName.lookup name = some o)
    (haccept : ∀ name' o' p, .accept name' o' p ∉ as)
    (hshut : ∀ o', as.count (.shutdown o') = if o' = o then 1 else 0)
    (hlibs : ∀ lib, as.count (.dlclose lib) =
      as.count (.dlopen lib)+(m.libraryHandles.lookup name).toList.count lib) :
    Accounted ((m.eraseBinding name o).closeHandle name).1 (log++as) := by
  have hclosed : ((m.eraseBinding name o).closeHandle name).1.nextObj = m.nextObj ∧
      ((m.eraseBinding name o).closeHandle name).1.named = (m.eraseBinding name o).named ∧
      ((m.eraseBinding name o).closeHandle name).1.bindingsByName =
        m.bindingsByName.erase name := by
    unfold Manager.closeHandle
    split <;> exact ⟨rfl,rfl,rfl⟩
  obtain ⟨hnext,hnamed,hnames⟩ := hclosed
  have hin : o ∈ m.named := Manager.mem_named.mpr ⟨name,hname⟩
  have hold : ∀ name' o' p, .accept name' o' p ∈ log++as → .accept name' o' p ∈ log := by
    intro name' o' p ha
    obtain ha | ha := List.mem_append.mp ha
    · exact ha
    · exact absurd ha (haccept name' o' p)
  refine ⟨fun name' o' p ha => ?_,fun name' o' p ha => ?_,fun lib => ?_,fun name' ha => ?_⟩
  · rw [hnext]
    exact h.below name' o' p (hold name' o' p ha)
  · rw [List.count_append,h.objects name' o' p (hold name' o' p ha),hshut,hnamed,
      if_congr (Manager.mem_named_erase hindexed.named_nodup hname) rfl rfl]
    by_cases heq : o' = o
    · subst heq
      simp [hin]
    · simp [heq]
  · have hhandles : m.handles.count lib = _ := (m.eraseBinding name o).handles_closeHandle name lib
    have hlookup : (m.eraseBinding name o).libraryHandles.lookup name =
        m.libraryHandles.lookup name := rfl
    rw [hlookup] at hhandles
    rw [List.count_append,List.count_append,h.libraries,hlibs,hhandles]
    omega
  · rw [hnames]
    exact Manager.owned_closeHandle h.owned ha

theorem count_dlclose (libs : List Lib) (lib : Lib) :
    (libs.map Action.dlclose).count (.dlclose lib) = libs.count lib :=
  List.count_map_of_injective libs _ (fun _ _ h => Action.dlclose.inj h) lib

theorem count_map_of_ne {f : Nat → Action} {a : Action} (h : ∀ x, f x ≠ a) (l : List Nat) :
    (l.map f).count a = 0 := by
  apply List.count_eq_zero_of_not_mem
  intro ha
  obtain ⟨x,_,hx⟩ := List.mem_map.mp ha
  exact h x hx

theorem Accounted.unload {m : Manager} {log as : List Action} (h : Accounted m log)
    (hindexed : Indexed m log) {name : String} {o : Obj}
    (hname : m.bindingsByName.lookup name = some o) (m' : Manager)
    (has : as.Perm (.shutdown o :: (m.libraryHandles.lookup name).toList.map .dlclose++
      m'.dropped [o])) :
    Accounted ((m.eraseBinding name o).closeHandle name).1 (log++as) := by
  refine h.erase hindexed hname (fun name' o' p ha => ?_) (fun o' => ?_) fun lib => ?_
  · rw [has.mem_iff] at ha
    simp [Manager.dropped] at ha
  · rw [has.count_eq,List.cons_append,List.count_cons,List.count_append,
      count_map_of_ne (by simp),count_dropped _ _ (by simp)]
    by_cases heq : o' = o
    · simp [heq]
    · simp [heq,Ne.symm heq]
  · simp only [has.count_eq,List.cons_append,List.count_cons,List.count_append]
    rw [count_dlclose,count_map_of_ne (by simp),count_dropped _ _ (by simp),
      count_dropped _ _ (by simp)]
    simp

theorem Accounted.remove {m : Manager} {log : List Action} (h : Accounted m log)
    (hindexed : Indexed m log) (name : String) :
    Accounted (m.remove name).1 (log++(m.remove name).2) := by
  unfold Manager.remove
  cases hname : m.bindingsByName.lookup name with
  | none => simpa using h
  | some o =>
    refine h.unload hindexed hname ((m.eraseBinding name o).closeHandle name).1 ?_
    simp only [closeHandle_log]
    exact List.Perm.refl _

theorem Accounted.add {m : Manager} {log : List Action} (h : Accounted m log)
    (hindexed : Indexed m log) (config : BindingConfig) (outcome : LoadOutcome) :
    Accounted (m.add config outcome).1 (log++(m.add config outcome).2) := by
  unfold Manager.add
  split
  · simpa using h
  · rename_i hname
    have hname : config.name ∉ m.bindingsByName := by
      rwa [AList.lookup_isSome] at hname
    obtain ⟨_,lib,_,heq⟩ | ⟨_,e,m',as,heq,hm',hquiet,hbalanced⟩ := m.openBinding_cases outcome
    · rw [heq,← List.append_assoc]
      refine h.store hindexed hname (some lib) _ (by simp [Action.marks]) fun lib' => ?_
      simp [List.count_cons]
    · rw [heq]
      obtain rfl | rfl := hm'
      · exact h.quiet (fun a ha => (hquiet a ha).1) hbalanced
      · exact h.bump.quiet (fun a ha => (hquiet a ha).1) hbalanced

theorem Accounted.runTasks {m : Manager} {log : List Action} (h : Accounted m log)
    (hindexed : Indexed m log) (tasks : List Manager.Task) :
    Accounted (m.runTasks tasks).1 (log++(m.runTasks tasks).2) := by
  induction tasks generalizing m log with
  | nil => simpa [Manager.runTasks] using h
  | cons task tasks ih =>
    have htask : Accounted (task.exec m).1 (log++(task.exec m).2) ∧
        Indexed (task.exec m).1 (log++(task.exec m).2) := by
      cases task with
      | remove name => exact ⟨h.remove hindexed name,hindexed.remove name⟩
      | add config outcome => exact ⟨h.add hindexed config outcome,hindexed.add config outcome⟩
    have := ih htask.1 htask.2
    rwa [List.append_assoc] at this

theorem Accounted.shutdown {m : Manager} {log : List Action} (h : Accounted m log)
    (hindexed : Indexed m log) (iteration : Iteration) :
    TornDown (log++(m.shutdown iteration).2.2) := by
  have hobjs : ((iteration.order m.bindingsByName.keys).filterMap m.bindingsByName.lookup).Perm
      m.named := Manager.lookups_perm _ iteration
  have hlibs : ((iteration.order m.libraryHandles.keys).filterMap m.libraryHandles.lookup).Perm
      m.handles := Manager.lookups_perm _ iteration
  constructor
  · intro name o p ha
    have hold : .accept name o p ∈ log := by
      obtain ha | ha := List.mem_append.mp ha
      · exact ha
      · simp [Manager.shutdown] at ha
    have hshut : (m.shutdown iteration).2.2.count (.shutdown o) = m.named.count o := by
      simp only [Manager.shutdown,List.cons_append,List.count_cons,List.count_append,
        count_map_of_ne (f := .dlclose) (a := .shutdown o) (by simp),
        count_map_of_ne (f := .destroy) (a := .shutdown o) (by simp)]
      rw [List.count_map_of_injective _ _ (fun _ _ h => Action.shutdown.inj h),hobjs.count_eq]
      simp
    rw [List.count_append,hshut,h.objects name o p hold]
    by_cases hin : o ∈ m.named
    · rw [if_pos hin,List.count_eq_one_of_mem hindexed.named_nodup hin]
    · rw [if_neg hin,List.count_eq_zero_of_not_mem hin]
  · intro lib
    have hclose : (m.shutdown iteration).2.2.count (.dlclose lib) = m.handles.count lib := by
      simp only [Manager.shutdown,List.cons_append,List.count_cons,List.count_append,
        count_map_of_ne (f := .shutdown) (a := .dlclose lib) (by simp),
        count_map_of_ne (f := .destroy) (a := .dlclose lib) (by simp)]
      rw [count_dlclose,hlibs.count_eq]
      simp
    have hopen : (m.shutdown iteration).2.2.count (.dlopen lib) = 0 := by
      simp [Manager.shutdown,List.count_append,count_map_of_ne (a := .dlopen lib)]
    rw [List.count_append,List.count_append,hclose,hopen,h.libraries]
    omega

theorem unlock_quiet : ∀ a, a ∈ [Action.unlock] → a.marks = false := by
  simp [Action.marks]

theorem lock_quiet : ∀ a, a ∈ [Action.lock] → a.marks = false := by
  simp [Action.marks]

theorem Accounted.unloadBinding {m : Manager} {log : List Action} (h : Accounted m log)
    (hindexed : Indexed m log) (name : String) :
    Accounted (m.unloadBinding name).2.1 (log++(m.unloadBinding name).2.2) := by
  unfold Manager.unloadBinding
  cases hname : m.bindingsByName.lookup name with
  | none => exact h.quiet (by simp [Action.marks]) (by simp)
  | some o =>
    have hunload := (h.quiet lock_quiet (by simp)).unload hindexed.lock hname
      (m.eraseBinding name o) (List.perm_append_comm.cons (Action.shutdown o))
    have := hunload.quiet unlock_quiet (by simp)
    simpa [closeHandle_log,show (m.eraseBinding name o).libraryHandles = m.libraryHandles from rfl]
      using this

theorem Accounted.next {s : State} {op : Op} (h : Accounted s.manager s.log)
    (hindexed : Indexed s.manager s.log) (hop : op.FreshName s.manager) :
    Accounted (s.next op).manager (s.next op).log := by
  cases op with
  | registerBinding config given =>
    cases given with
    | false =>
      show Accounted s.manager (s.log++[])
      rwa [List.append_nil]
    | true =>
      have hstore := h.store hindexed (hop rfl) none [.lock] (by simp [Action.marks]) (by simp)
      have := hstore.quiet unlock_quiet (by simp)
      simpa [State.next,Op.exec,Manager.registerBinding] using this
  | loadBinding config outcome =>
    obtain ⟨hsucc,lib,_,heq⟩ | ⟨_,e,m',as,heq,hm',hquiet,hbalanced⟩ :=
      s.manager.openBinding_cases outcome
    · have hstore := h.store hindexed (hop hsucc) (some lib)
        [.dlopen lib,.factory lib (some s.manager.nextObj),.init s.manager.nextObj,.lock]
        (by simp [Action.marks]) (by simp [List.count_cons])
      have := hstore.quiet unlock_quiet (by simp)
      simpa [State.next,Op.exec,Manager.loadBinding,heq] using this
    · simp only [State.next,Op.exec,Manager.loadBinding,heq]
      obtain rfl | rfl := hm'
      · exact h.quiet (fun a ha => (hquiet a ha).1) hbalanced
      · exact h.bump.quiet (fun a ha => (hquiet a ha).1) hbalanced
  | unloadBinding name => exact h.unloadBinding hindexed name
  | reloadConfiguration file iteration outcomes =>
    show Accounted (s.manager.reloadConfiguration file iteration outcomes).2.1
      (s.log++(s.manager.reloadConfiguration file iteration outcomes).2.2)
    simp only [Manager.reloadConfiguration]
    cases (parseYamlConfig file).2 with
    | none => exact (List.append_nil s.log).symm ▸ h.push file
    | some configs =>
      have hlocked := (h.push file).quiet lock_quiet (by simp)
      have htasks := hlocked.runTasks (hindexed.push file).lock
        ((s.manager.pushMappings file).tasks configs iteration outcomes)
      have := htasks.quiet unlock_quiet (by simp)
      simpa using this
  | shutdown iteration =>
    have hdown : TornDown (s.log++(s.manager.shutdown iteration).2.2) :=
      h.shutdown hindexed iteration
    refine ⟨fun name o p ha => ?_,fun name o p ha => hdown.objects name o p ha,fun lib => ?_,
      fun name hin => by cases hin⟩
    · obtain ha | ha := List.mem_append.mp ha
      · exact h.below name o p ha
      · simp [Op.exec,Manager.shutdown] at ha
    · exact hdown.libraries lib

theorem Accounted.initial : Accounted State.initial.manager State.initial.log where
  below := fun _ _ _ h => by cases h
  objects := fun _ _ _ h => by cases h
  libraries := fun _ => rfl
  owned := fun _ h => by cases h

structure Extends (m : Manager) (e : Effect) : Prop where
  mono : m.nextObj ≤ e.1.nextObj
  named : ∀ o, o ∈ e.1.named → o ∈ m.named ∨ m.nextObj ≤ o
  shut : ∀ o, .shutdown o ∈ e.2 → o ∈ m.named ∨ m.nextObj ≤ o

namespace Extends

variable {m m' : Manager} {e : Effect}

theorem quiet {as : List Action} (h : Extends m (m',[])) (hquiet : ∀ a, a ∈ as → a.marks = false) :
    Extends m (m',as) :=
  ⟨h.mono,h.named,fun o ho => by cases hquiet _ ho⟩

theorem refl (m : Manager) : Extends m (m,[]) :=
  ⟨Nat.le_refl _,fun _ ho => .inl ho,fun _ ho => (by cases ho)⟩

theorem grown (m : Manager) : Extends m (m.grown,[]) :=
  ⟨Nat.le_succ _,fun _ ho => .inl ho,fun _ ho => (by cases ho)⟩

theorem trans {n : Manager} {as bs : List Action} (h : Extends m (n,as))
    (h' : Extends n (e.1,bs)) :
    Extends m (e.1,as++bs) := by
  have hold : ∀ o, o ∈ n.named ∨ n.nextObj ≤ o → o ∈ m.named ∨ m.nextObj ≤ o := by
    rintro o (ho | ho)
    · exact h.named o ho
    · exact .inr (Nat.le_trans h.mono ho)
  refine ⟨Nat.le_trans h.mono h'.mono,fun o ho => hold o (h'.named o ho),fun o ho => ?_⟩
  obtain ho | ho := List.mem_append.mp ho
  · exact h.shut o ho
  · exact hold o (h'.shut o ho)

theorem store (m : Manager) (config : BindingConfig) (handle : Option Lib) :
    Extends m (m.grown.store config m.nextObj handle) := by
  refine ⟨Nat.le_succ _,fun o ho => ?_,fun o ho => ?_⟩
  · rw [Manager.store_named] at ho
    obtain rfl | ho := List.mem_cons.mp ho
    · exact .inr (Nat.le_refl _)
    · exact .inl (((List.kerase_sublist _ _).map _).subset ho)
  · obtain ho | ho := List.mem_cons.mp ho
    · cases ho
    · cases dropped_quiet _ _ _ ho

theorem erase {name : String} {o : Obj} {as : List Action}
    (hname : m.bindingsByName.lookup name = some o)
    (has : ∀ a, a ∈ as → a = .shutdown o ∨ a.marks = false) :
    Extends m (((m.eraseBinding name o).closeHandle name).1,as) := by
  have hclosed : ((m.eraseBinding name o).closeHandle name).1.nextObj = m.nextObj ∧
      ((m.eraseBinding name o).closeHandle name).1.named = (m.eraseBinding name o).named := by
    unfold Manager.closeHandle
    split <;> exact ⟨rfl,rfl⟩
  refine ⟨hclosed.1.ge,fun o' ho' => ?_,fun o' ho' => ?_⟩
  · rw [hclosed.2] at ho'
    exact .inl (((List.kerase_sublist _ _).map _).subset ho')
  · obtain heq | hquiet := has _ ho'
    · cases heq
      exact .inl (Manager.mem_named.mpr ⟨name,hname⟩)
    · cases hquiet

theorem failed {outcome : LoadOutcome} {e : ManagerError} {as : List Action}
    (hopen : m.openBinding outcome = (.error e,m',as)) : Extends m (m',as) := by
  obtain ⟨_,_,_,heq⟩ | ⟨_,_,_,_,heq,hm',hquiet,_⟩ := m.openBinding_cases outcome
  · rw [heq] at hopen
    cases hopen
  · rw [heq] at hopen
    cases hopen
    obtain rfl | rfl := hm'
    · exact (refl _).quiet fun a ha => (hquiet a ha).1
    · exact (grown _).quiet fun a ha => (hquiet a ha).1

theorem quietly {as : List Action} (h : Extends m e) (hquiet : ∀ a, a ∈ as → a.marks = false) :
    Extends m (e.1,as++e.2) :=
  trans ((refl m).quiet hquiet) h

theorem locked (h : Extends m e) : Extends m (e.1,.lock :: e.2++[.unlock]) :=
  trans (n := e.1) (h.quietly lock_quiet) ((refl e.1).quiet unlock_quiet)

theorem remove (m : Manager) (name : String) : Extends m (m.remove name) := by
  unfold Manager.remove
  cases hname : m.bindingsByName.lookup name with
  | none => exact refl m
  | some o => exact erase hname (removed_quiet _ name o)

theorem add (m : Manager) (config : BindingConfig) (outcome : LoadOutcome) :
    Extends m (m.add config outcome) := by
  unfold Manager.add
  split
  · exact refl m
  · cases hopen : m.openBinding outcome with
    | mk r e =>
      obtain ⟨_,lib,_,heq⟩ | ⟨_,_,_,_,heq,_⟩ := m.openBinding_cases outcome
      · rw [heq] at hopen
        cases hopen
        exact (store m config (some lib)).quietly (by simp [Action.marks])
      · rw [heq] at hopen
        cases hopen
        exact failed heq

theorem runTasks (m : Manager) (tasks : List Manager.Task) : Extends m (m.runTasks tasks) := by
  induction tasks generalizing m with
  | nil => exact refl m
  | cons task tasks ih =>
    refine trans (n := (task.exec m).1) ?_ (ih _)
    cases task with
    | remove name => exact remove m name
    | add config outcome => exact add m config outcome

theorem unloadBinding (m : Manager) (name : String) : Extends m (m.unloadBinding name).2 := by
  unfold Manager.unloadBinding
  cases hname : m.bindingsByName.lookup name with
  | none => exact (refl m).quiet (by simp [Action.marks])
  | some o => exact erase hname (unloaded_quiet _ name o)

theorem shutdown (m : Manager) (iteration : Iteration) :
    Extends m (m.shutdown iteration).2 := by
  refine ⟨Nat.le_refl _,fun o ho => (by cases ho),fun o ho => .inl ?_⟩
  have hobjs : ((iteration.order m.bindingsByName.keys).filterMap m.bindingsByName.lookup).Perm
      m.named := Manager.lookups_perm _ iteration
  rw [← hobjs.mem_iff]
  simpa [Manager.shutdown] using ho

theorem exec (m : Manager) (op : Op) : Extends m (op.exec m).2 := by
  cases op with
  | registerBinding config given =>
    cases given with
    | false => exact refl m
    | true => exact (store m config none).locked
  | loadBinding config outcome =>
    simp only [Op.exec,Manager.loadBinding]
    obtain ⟨_,lib,_,heq⟩ | ⟨_,_,_,_,heq,_⟩ := m.openBinding_cases outcome
    · rw [heq]
      have hopened : ∀ a : Action, a ∈ [.dlopen lib,.factory lib (some m.nextObj),
          .init m.nextObj] → a.marks = false := by
        simp [Action.marks]
      exact (store m config (some lib)).locked.quietly hopened
    · rw [heq]
      exact failed heq
  | unloadBinding name => exact unloadBinding m name
  | reloadConfiguration file iteration outcomes =>
    have hpush : Extends m (m.pushMappings file,[]) :=
      ⟨Nat.le_refl _,fun _ ho => .inl ho,fun _ ho => (by cases ho)⟩
    simp only [Op.exec,Manager.reloadConfiguration]
    cases (parseYamlConfig file).2 with
    | none => exact hpush
    | some configs =>
      have htasks := (runTasks (m.pushMappings file)
        ((m.pushMappings file).tasks configs iteration outcomes)).locked
      have hall := trans hpush htasks
      exact hall
  | shutdown iteration => exact shutdown m iteration

end Extends

/-- An accepted object that no name leads to any more: no call will shut it down. -/
structure Lost (s : State) (o : Obj) : Prop where
  unnamed : o ∉ s.manager.named
  below : o < s.manager.nextObj
  accepted : ∃ name p, .accept name o p ∈ s.log
  alive : .shutdown o ∉ s.log

theorem Lost.next {s : State} {o : Obj} (h : Lost s o) (op : Op) : Lost (s.next op) o := by
  have hext := Extends.exec s.manager op
  have hnot : ¬ (o ∈ s.manager.named ∨ s.manager.nextObj ≤ o) := by
    rintro (ho | ho)
    · exact h.unnamed ho
    · exact Nat.not_lt.mpr ho h.below
  obtain ⟨name,p,hlog⟩ := h.accepted
  refine ⟨fun ho => hnot (hext.named o ho),Nat.lt_of_lt_of_le h.below hext.mono,
    ⟨name,p,List.mem_append_left _ hlog⟩,fun ho => ?_⟩
  obtain ho | ho := List.mem_append.mp ho
  · exact h.alive ho
  · exact hnot (hext.shut o ho)

theorem Lost.not_tornDown {s : State} {o : Obj} (h : Lost s o) : ¬ TornDown s.log := by
  intro hdown
  obtain ⟨name,p,hlog⟩ := h.accepted
  have hone := hdown.objects name o p hlog
  rw [List.count_eq_zero_of_not_mem h.alive] at hone
  cases hone

theorem Indexed.lost_store {m : Manager} {log as : List Action} (h : Indexed m log)
    {config : BindingConfig} (hname : config.name ∈ m.bindingsByName) (handle : Option Lib)
    (has : ∀ o, .shutdown o ∉ as) :
    ∃ o, Lost ⟨(m.grown.store config m.nextObj handle).1,log++as⟩ o := by
  obtain ⟨e,he,hnone⟩ := h.store_stale hname handle
  have hunnamed : e.2 ∉ (m.grown.store config m.nextObj handle).1.named := by
    intro ho
    obtain ⟨name,hlookup⟩ := Manager.mem_named.mp ho
    exact hnone name hlookup
  have hold : (e.1,e.2) ∈ m.bindings.entries := by
    obtain rfl | hold := PriorityMap.mem_emplace.mp he
    · rw [Manager.store_named] at hunnamed
      exact absurd List.mem_cons_self hunnamed
    · exact hold
  have hnamed : e.2 ∈ m.named := (h.same e.2).mp (PriorityMap.mem_values.mpr ⟨e.1,hold⟩)
  obtain ⟨name,hlookup⟩ := Manager.mem_named.mp hnamed
  refine ⟨e.2,hunnamed,Nat.lt_succ_of_lt (h.below _ hnamed),⟨name,e.1,?_⟩,fun ho => ?_⟩
  · exact List.mem_append_left _ (h.accepted name e.2 e.1 hlookup hold)
  · obtain ho | ho := List.mem_append.mp ho
    · exact h.alive _ hnamed ho
    · exact has _ ho

theorem Indexed.lost {s : State} {op : Op} (h : Indexed s.manager s.log)
    (hop : ¬ op.FreshName s.manager) : ∃ o, Lost (s.next op) o := by
  cases op with
  | registerBinding config given =>
    simp only [Op.FreshName,Classical.not_imp,not_not] at hop
    obtain ⟨rfl,hname⟩ := hop
    refine h.lost_store hname none fun o ho => ?_
    simp [Op.exec,Manager.registerBinding,Manager.store,Manager.dropped] at ho
  | loadBinding config outcome =>
    simp only [Op.FreshName,Classical.not_imp,not_not] at hop
    obtain ⟨hsucc,hname⟩ := hop
    obtain ⟨_,lib,_,heq⟩ | ⟨hfail,_⟩ := s.manager.openBinding_cases outcome
    · simp only [State.next,Op.exec,Manager.loadBinding,heq]
      refine h.lost_store hname (some lib) fun o ho => ?_
      simp [Manager.store,Manager.dropped] at ho
    · rw [hsucc] at hfail
      cases hfail
  | unloadBinding name => exact absurd trivial hop
  | reloadConfiguration file iteration outcomes => exact absurd trivial hop
  | shutdown iteration => exact absurd trivial hop

theorem Lost.stays {σ : Nat → Op} {k n : Nat} {o : Obj}
    (h : Lost (stateAt State.next .initial σ k) o) (hkn : k ≤ n) :
    Lost (stateAt State.next .initial σ n) o :=
  between_invariant (I := fun j => Lost (stateAt State.next .initial σ j) o) h
    (fun j _ _ hj => hj.next (σ j)) n hkn (Nat.le_refl n)

/-- Over every run: `Shutdown` finds everything exactly when no binding was stored
under a name in use. -/
theorem torn_down_iff (σ : Nat → Op) (n : Nat) (iteration : Iteration) :
    TornDown ((stateAt State.next .initial σ n).next (.shutdown iteration)).log ↔
    ∀ k, k < n → (σ k).FreshName (stateAt State.next .initial σ k).manager := by
  constructor
  · intro hdown
    have hfresh : ∀ k, k < n → Indexed (stateAt State.next .initial σ k).manager
        (stateAt State.next .initial σ k).log →
        (σ k).FreshName (stateAt State.next .initial σ k).manager := by
      intro k hk h
      by_contra hop
      obtain ⟨o,hlost⟩ := h.lost hop
      have hlost : Lost (stateAt State.next .initial σ n) o :=
        Lost.stays (k := k+1) (by rwa [stateAt_succ]) hk
      exact (hlost.next (.shutdown iteration)).not_tornDown hdown
    intro k hk
    refine hfresh k hk (between_invariant (a := 0) (I := fun j => Indexed
      (stateAt State.next .initial σ j).manager (stateAt State.next .initial σ j).log)
      Indexed.initial (fun j _ hj h => h.next (hfresh j (by omega) h)) k (Nat.zero_le k)
      (Nat.le_refl k))
  · intro hfresh
    have hboth := stateAt_invariant
      (I := fun s : State => Indexed s.manager s.log ∧ Accounted s.manager s.log)
      (C := fun s (op : Op) => op.FreshName s.manager) ⟨Indexed.initial,Accounted.initial⟩ hfresh
      (fun s op h hop => ⟨h.1.next hop,h.2.next h.1 hop⟩) n (Nat.le_refl n)
    exact hboth.2.shutdown hboth.1 iteration

/-- An object that is replaced is never shut down, and the handle of a library that is
replaced is never closed. -/
theorem replaced_not_tornDown : ¬ TornDown (registerTwice.next (.shutdown .plain)).log ∧
    ¬ TornDown (((State.initial.next (.loadBinding ddsConfig (loads none))).next
      (.loadBinding ddsConfig (loads none))).next (.shutdown .plain)).log := by
  refine ⟨fun hdown => ?_,fun hdown => ?_⟩
  · have hone := hdown.objects "local" 0 BindingPriority.iceoryx2 (by decide +kernel)
    have hnone : (registerTwice.next (.shutdown .plain)).log.count (.shutdown 0) = 0 := by
      decide +kernel
    rw [hnone] at hone
    cases hone
  · have hbalance := hdown.libraries 0
    revert hbalance
    decide +kernel

end LapCom.Binding
