import LapCom.Binding.Provenance

set_option autoImplicit false

namespace LapCom.Binding
open LapCom.Container LapCom.Machine

/-- Which library made the object is what the log says. -/
def State.supports (s : State) (env : Environment) (o : Obj) (serviceId : BitVec 64) : Bool :=
  s.log.any fun a => match a with
    | .factory lib (some o') => o' = o && env.serves lib serviceId
    | _ => false

def State.selectedName (s : State) (env : Environment) (serviceId instanceId : BitVec 64) :
    Option String :=
  (s.manager.selectBinding (s.supports env) serviceId instanceId).bind s.manager.nameOf

structure SameView (env : Environment) (s s' : State) : Prop where
  names : ∀ name, name ∈ s.manager.bindingsByName ↔ name ∈ s'.manager.bindingsByName
  priorities : s.manager.priorityOf = s'.manager.priorityOf
  selected : ∀ serviceId instanceId,
    s.selectedName env serviceId instanceId = s'.selectedName env serviceId instanceId

theorem zipIdx_filter_enabled (configs : List BindingConfig) :
    (configs.zipIdx.filter fun c => c.1.enabled).map Prod.fst =
      configs.filter fun c => c.enabled := by
  have h : (configs.zipIdx.map Prod.fst).filter (fun c => c.enabled) =
      (configs.zipIdx.filter fun c => c.1.enabled).map Prod.fst := List.filter_map ..
  rw [← h,List.zipIdx_map_fst]

def adds (configs : List BindingConfig) (outcomes : Nat → LoadOutcome) :
    List (BindingConfig × Bool) :=
  (configs.zipIdx.filter fun c => c.1.enabled).map fun c => (c.1,(outcomes c.2).succeeds)

theorem Regular.adds_names {env : Environment} {configs : List BindingConfig}
    {outcomes : Nat → LoadOutcome} (h : Regular env configs outcomes) :
    ((adds configs outcomes).map fun c => c.1.name).Nodup := by
  have hmap : ((adds configs outcomes).map fun c => c.1.name) =
      (configs.filter fun c => c.enabled).map fun c => c.name := by
    rw [← zipIdx_filter_enabled,adds,List.map_map,List.map_map]
    rfl
  rw [hmap]
  exact h.names

theorem Regular.mem_adds {env : Environment} {configs : List BindingConfig}
    {outcomes : Nat → LoadOutcome} (h : Regular env configs outcomes) {c : BindingConfig}
    {b : Bool} :
    (c,b) ∈ adds configs outcomes ↔ c ∈ configs ∧ c.enabled = true ∧ b = env.loads c := by
  have hmem : c ∈ configs ∧ c.enabled = true ↔
      ∃ e, e ∈ configs.zipIdx ∧ e.1.enabled = true ∧ e.1 = c := by
    rw [← List.mem_filter (p := fun c : BindingConfig => c.enabled),← zipIdx_filter_enabled,
      List.mem_map]
    simp [and_assoc]
  rw [← and_assoc,hmem,adds,List.mem_map]
  constructor
  · rintro ⟨e,he,heq⟩
    obtain ⟨he,henabled⟩ := List.mem_filter.mp he
    cases heq
    exact ⟨⟨e,he,henabled,rfl⟩,by rw [(h.library e he henabled).2,Environment.loads]⟩
  · rintro ⟨⟨e,he,henabled,rfl⟩,rfl⟩
    refine ⟨e,List.mem_filter.mpr ⟨he,henabled⟩,?_⟩
    rw [(h.library e he henabled).2,Environment.loads]

theorem Regular.inj_name {env : Environment} {configs : List BindingConfig}
    {outcomes : Nat → LoadOutcome} (h : Regular env configs outcomes) {c c' : BindingConfig}
    (hc : c ∈ configs) (he : c.enabled = true) (hc' : c' ∈ configs) (he' : c'.enabled = true)
    (hname : c.name = c'.name) : c = c' :=
  List.inj_on_of_nodup_map h.names (List.mem_filter.mpr ⟨hc,he⟩) (List.mem_filter.mpr ⟨hc',he'⟩)
    hname

theorem Regular.inj_priority {env : Environment} {configs : List BindingConfig}
    {outcomes : Nat → LoadOutcome} (h : Regular env configs outcomes) {c c' : BindingConfig}
    (hc : c ∈ configs) (he : c.enabled = true) (hc' : c' ∈ configs) (he' : c'.enabled = true)
    (hpriority : c.priority = c'.priority) : c = c' :=
  List.inj_on_of_nodup_map h.priorities (List.mem_filter.mpr ⟨hc,he⟩)
    (List.mem_filter.mpr ⟨hc',he'⟩) hpriority

theorem find_add {l : List (BindingConfig × Bool)} (hnodup : (l.map fun c => c.1.name).Nodup)
    {e : BindingConfig × Bool} (he : e ∈ l) : l.find? (fun c => c.1.name = e.1.name) = some e := by
  cases hfind : l.find? fun c => c.1.name = e.1.name with
  | none => exact absurd (List.find?_eq_none.mp hfind e he) (by simp)
  | some c =>
    have hname : c.1.name = e.1.name := by simpa using List.find?_some hfind
    rw [List.inj_on_of_nodup_map hnodup (List.mem_of_find?_eq_some hfind) he hname]

/-- The table after a reload: the enabled bindings, each as it was when it was loaded
before, and otherwise as it is configured, if it can be loaded. -/
theorem priorityOf_reload {env : Environment} {m : Manager} {log : List Action}
    (h : Indexed m log) {file : Option Document} {configs : List BindingConfig}
    (hparse : (parseYamlConfig file).2 = some configs) {outcomes : Nat → LoadOutcome}
    (hregular : Regular env configs outcomes) (iteration : Iteration) {name : String}
    {p : Priority} :
    (m.reloadConfiguration file iteration outcomes).2.1.priorityOf name = some p ↔
    ∃ c, c ∈ configs ∧ c.enabled = true ∧ c.name = name ∧ (m.priorityOf name = some p ∨
      (m.priorityOf name = none ∧ env.loads c = true ∧ c.priority = p)) := by
  have hmanager : (m.reloadConfiguration file iteration outcomes).2.1 =
      ((m.pushMappings file).runTasks
        ((m.pushMappings file).tasks configs iteration outcomes)).1 := by
    simp only [Manager.reloadConfiguration,hparse]
  have htable : (m.reloadConfiguration file iteration outcomes).2.1.priorityOf =
      (adds configs outcomes).foldl (fun t c => t.add c.1 c.2)
        (((iteration.order m.bindingsByName.keys).filter fun name =>
          name ∉ (configs.filter fun config => config.enabled).map fun config => config.name).foldl
            Table.remove m.priorityOf) := by
    rw [hmanager,Manager.priorityOf_runTasks (h.push file),Manager.tasks,List.foldl_append,
      List.foldl_map,List.foldl_map,adds,List.foldl_map]
    rfl
  have hremoved : name ∈ (iteration.order m.bindingsByName.keys).filter (fun name =>
        name ∉ (configs.filter fun config => config.enabled).map fun config => config.name) ↔
      name ∈ m.bindingsByName ∧ ¬ ∃ c, c ∈ configs ∧ c.enabled = true ∧ c.name = name := by
    rw [List.mem_filter,(iteration.perm _).mem_iff,AList.mem_keys]
    simp [and_assoc]
  rw [htable,Table.add_all _ hregular.adds_names,Table.remove_all,if_congr hremoved rfl rfl]
  by_cases hin : ∃ c, c ∈ configs ∧ c.enabled = true ∧ c.name = name
  · obtain ⟨c,hc,henabled,rfl⟩ := hin
    have hadd : (c,env.loads c) ∈ adds configs outcomes :=
      hregular.mem_adds.mpr ⟨hc,henabled,rfl⟩
    rw [find_add hregular.adds_names hadd,if_neg fun hno => hno.2 ⟨c,hc,henabled,rfl⟩]
    have hpick : ((m.priorityOf c.name).or ((some (c,env.loads c)).bind fun c =>
          if c.2 = true then some c.1.priority else none)) = some p ↔
        m.priorityOf c.name = some p ∨
          (m.priorityOf c.name = none ∧ env.loads c = true ∧ c.priority = p) := by
      cases m.priorityOf c.name <;> simp
    rw [hpick]
    constructor
    · intro hor
      exact ⟨c,hc,henabled,rfl,hor⟩
    · rintro ⟨c',hc',henabled',hname,hor⟩
      obtain rfl := hregular.inj_name hc' henabled' hc henabled hname
      exact hor
  · have hnone : ((adds configs outcomes).find? fun c => c.1.name = name) = none := by
      rw [List.find?_eq_none]
      rintro ⟨c,b⟩ hmem hname
      obtain ⟨hc,henabled,_⟩ := hregular.mem_adds.mp hmem
      exact hin ⟨c,hc,henabled,by simpa using hname⟩
    have hgone : (if name ∈ m.bindingsByName ∧ ¬ ∃ c, c ∈ configs ∧ c.enabled = true ∧ c.name = name
        then none else m.priorityOf name) = none := by
      split
      · rfl
      · rename_i hkept
        exact (Manager.priorityOf_eq_none h).mpr fun hmem => hkept ⟨hmem,hin⟩
    rw [hgone,hnone]
    refine iff_of_false (by simp) ?_
    rintro ⟨c,hc,henabled,hname,_⟩
    exact hin ⟨c,hc,henabled,hname⟩

def State.topName (s : State) (env : Environment) (serviceId : BitVec 64) : Option String :=
  ((s.manager.bindings.entries.find? fun e => s.supports env e.2 serviceId).map Prod.snd).bind
    s.manager.nameOf

theorem selectedName_eq {s : State} (h : Indexed s.manager s.log) (env : Environment)
    (serviceId instanceId : BitVec 64) :
    s.selectedName env serviceId instanceId =
      (((s.manager.findStaticMapping serviceId instanceId).filter fun b =>
        (s.manager.priorityOf b).isSome).or (s.topName env serviceId)) := by
  unfold State.selectedName Manager.selectBinding State.topName
  cases s.manager.findStaticMapping serviceId instanceId with
  | none => rfl
  | some b =>
    cases hlookup : s.manager.bindingsByName.lookup b with
    | none =>
      have hnone := (Manager.priorityOf_eq_none h).mpr (AList.lookup_eq_none.mp hlookup)
      simp [hlookup,Option.filter,hnone]
    | some o =>
      have hsome := (Manager.priorityOf_isSome h).mpr
        (AList.lookup_isSome.mp (Option.isSome_of_eq_some hlookup))
      simp [hlookup,Option.filter,hsome,(Manager.nameOf_eq_some h).mpr hlookup]

theorem Made.supports_eq {env : Environment} {s : State} (h : Made env s.manager s.log)
    {name : String} {o : Obj} (hname : s.manager.bindingsByName.lookup name = some o)
    (serviceId : BitVec 64) :
    s.supports env o serviceId = env.serving (env.path name) serviceId := by
  obtain ⟨_,lib,hlib,hmade⟩ := h.named name o hname
  have hserving : env.serving (env.path name) serviceId = env.serves lib serviceId := by
    rw [Environment.serving,hlib,Option.any_some]
  apply Bool.eq_iff_iff.mpr
  rw [hserving,State.supports,List.any_eq_true]
  constructor
  · rintro ⟨a,ha,hserves⟩
    split at hserves
    · rename_i lib' o'
      simp only [Bool.and_eq_true,decide_eq_true_eq] at hserves
      obtain ⟨rfl,hserves⟩ := hserves
      rwa [(hmade lib').mp ha] at hserves
    · cases hserves
  · intro hserves
    exact ⟨_,(hmade lib).mpr rfl,by simpa using hserves⟩

theorem topName_eq_some {env : Environment} {s : State} (h : Indexed s.manager s.log)
    (hmade : Made env s.manager s.log)
    (hdistinct : ∀ b b' p, s.manager.priorityOf b = some p → s.manager.priorityOf b' = some p →
      b = b') {serviceId : BitVec 64} {b : String} :
    s.topName env serviceId = some b ↔
    ∃ p, s.manager.priorityOf b = some p ∧ env.serving (env.path b) serviceId = true ∧
      ∀ b' p', s.manager.priorityOf b' = some p' → env.serving (env.path b') serviceId = true →
        p' ≤ p := by
  have hnamed : ∀ e, e ∈ s.manager.bindings.entries → ∃ name,
      s.manager.bindingsByName.lookup name = some e.2 ∧ s.manager.priorityOf name = some e.1 := by
    intro e he
    obtain ⟨name,hname⟩ := Manager.mem_named.mp
      ((h.same e.2).mp (PriorityMap.mem_values.mpr ⟨e.1,he⟩))
    exact ⟨name,hname,(Manager.priorityOf_eq_some h).mpr ⟨e.2,hname,he⟩⟩
  have hinj : ∀ a e, a ∈ s.manager.bindings.entries → e ∈ s.manager.bindings.entries →
      a.1 = e.1 → a = e := by
    intro a e ha he hkey
    obtain ⟨n,hn,hnp⟩ := hnamed a ha
    obtain ⟨n',hn',hnp'⟩ := hnamed e he
    rw [hdistinct n n' e.1 (hkey ▸ hnp) hnp',hn'] at hn
    exact Prod.ext hkey (Option.some.inj hn).symm
  have htop : s.topName env serviceId = some b ↔ ∃ e,
      s.manager.bindings.entries.find? (fun e => s.supports env e.2 serviceId) = some e ∧
        s.manager.bindingsByName.lookup b = some e.2 := by
    simp only [State.topName,Option.bind_eq_some_iff,Option.map_eq_some_iff,
      Manager.nameOf_eq_some h]
    constructor
    · rintro ⟨_,⟨e,hfind,rfl⟩,hname⟩
      exact ⟨e,hfind,hname⟩
    · rintro ⟨e,hfind,hname⟩
      exact ⟨e.2,⟨e,hfind,rfl⟩,hname⟩
  rw [htop]
  simp only [PriorityMap.find?_eq_some_iff hinj]
  constructor
  · rintro ⟨e,⟨he,hserves,hmax⟩,hname⟩
    rw [hmade.supports_eq hname] at hserves
    refine ⟨e.1,(Manager.priorityOf_eq_some h).mpr ⟨e.2,hname,he⟩,hserves,fun b' p' hb' hs' => ?_⟩
    obtain ⟨o',ho',he'⟩ := (Manager.priorityOf_eq_some h).mp hb'
    exact hmax (p',o') he' (by rwa [hmade.supports_eq ho'])
  · rintro ⟨p,hb,hserves,hmax⟩
    obtain ⟨o,ho,he⟩ := (Manager.priorityOf_eq_some h).mp hb
    refine ⟨(p,o),⟨he,by rwa [hmade.supports_eq ho],fun a ha hsa => ?_⟩,ho⟩
    obtain ⟨n,hn,hnp⟩ := hnamed a ha
    rw [hmade.supports_eq hn] at hsa
    exact hmax n a.1 hnp hsa

def mappedName (mappings : List StaticBindingMapping) (serviceId instanceId : BitVec 64) :
    Option String :=
  (mappings.find? fun mapping => mapping.serviceId = serviceId ∧
    (mapping.instanceId = 0 ∨ mapping.instanceId = instanceId)).map fun mapping =>
      mapping.bindingName

theorem mappedName_append (older newer : List StaticBindingMapping)
    (serviceId instanceId : BitVec 64) :
    mappedName (older++newer) serviceId instanceId =
      (mappedName older serviceId instanceId).or (mappedName newer serviceId instanceId) := by
  simp [mappedName,List.find?_append,Option.map_or]

/-- The bindings that a configuration asks for and that can be loaded. -/
def inForce (env : Environment) (configs : List BindingConfig) : List BindingConfig :=
  configs.filter fun c => c.enabled && env.loads c

def Top (env : Environment) (configs : List BindingConfig) (serviceId : BitVec 64)
    (name : String) : Prop :=
  ∃ c, c ∈ inForce env configs ∧ c.name = name ∧ env.serving c.libraryPath serviceId = true ∧
    ∀ c', c' ∈ inForce env configs → env.serving c'.libraryPath serviceId = true →
      c'.priority ≤ c.priority

/-- The binding that the mappings of the configuration itself give, if it is in force. -/
def ownName (env : Environment) (configs : List BindingConfig)
    (mappings : List StaticBindingMapping) (serviceId instanceId : BitVec 64) : Option String :=
  (mappedName mappings serviceId instanceId).filter fun b =>
    (inForce env configs).any fun c => c.name = b

/-- The bindings loaded before have kept their priorities, and the mappings left from
before send no service elsewhere: a mapping to a binding in force sends it where the
configuration does, and one to another binding hides no mapping that matters. -/
structure KeepsUp (env : Environment) (m : Manager) (configs : List BindingConfig)
    (mappings : List StaticBindingMapping) : Prop where
  priorities : ∀ c, c ∈ configs → c.enabled = true → ∀ p, m.priorityOf c.name = some p →
    p = c.priority
  mapped : ∀ serviceId instanceId b, mappedName m.staticMappings serviceId instanceId = some b →
    (∃ c, c ∈ inForce env configs ∧ c.name = b) →
    ownName env configs mappings serviceId instanceId = some b ∨
      (ownName env configs mappings serviceId instanceId = none ∧ Top env configs serviceId b)
  hidden : ∀ serviceId instanceId b, mappedName m.staticMappings serviceId instanceId = some b →
    (¬ ∃ c, c ∈ inForce env configs ∧ c.name = b) →
    ∀ b', ownName env configs mappings serviceId instanceId = some b' → Top env configs serviceId b'

def Shows (env : Environment) (configs : List BindingConfig) (t : Table) : Prop :=
  ∀ name p, t name = some p ↔ ∃ c, c ∈ inForce env configs ∧ c.name = name ∧ c.priority = p

theorem mem_inForce {env : Environment} {configs : List BindingConfig} {c : BindingConfig} :
    c ∈ inForce env configs ↔ c ∈ configs ∧ c.enabled = true ∧ env.loads c = true := by
  simp [inForce]

theorem Regular.path {env : Environment} {configs : List BindingConfig}
    {outcomes : Nat → LoadOutcome} (h : Regular env configs outcomes) {c : BindingConfig}
    (hc : c ∈ configs) (henabled : c.enabled = true) : c.libraryPath = env.path c.name := by
  obtain ⟨i,hi,rfl⟩ := List.mem_iff_getElem.mp hc
  have hmem : (configs[i],i) ∈ configs.zipIdx :=
    List.mk_mem_zipIdx_iff_getElem?.mpr (List.getElem?_eq_getElem hi)
  exact (h.library _ hmem henabled).1

theorem topName_of_shows {env : Environment} {configs : List BindingConfig}
    {outcomes : Nat → LoadOutcome} (hregular : Regular env configs outcomes) {s : State}
    (h : Indexed s.manager s.log) (hmade : Made env s.manager s.log)
    (hshows : Shows env configs s.manager.priorityOf) {serviceId : BitVec 64} {b : String} :
    s.topName env serviceId = some b ↔ Top env configs serviceId b := by
  have hdistinct : ∀ b b' p, s.manager.priorityOf b = some p →
      s.manager.priorityOf b' = some p → b = b' := by
    intro b b' p hb hb'
    obtain ⟨c,hc,rfl,hp⟩ := (hshows b p).mp hb
    obtain ⟨c',hc',rfl,hp'⟩ := (hshows b' p).mp hb'
    obtain ⟨hc,he,_⟩ := mem_inForce.mp hc
    obtain ⟨hc',he',_⟩ := mem_inForce.mp hc'
    rw [hregular.inj_priority hc he hc' he' (hp.trans hp'.symm)]
  have hpath : ∀ c, c ∈ inForce env configs → c.libraryPath = env.path c.name := by
    intro c hc
    obtain ⟨hc,he,_⟩ := mem_inForce.mp hc
    exact hregular.path hc he
  rw [topName_eq_some h hmade hdistinct]
  constructor
  · rintro ⟨p,hb,hserves,hmax⟩
    obtain ⟨c,hc,rfl,rfl⟩ := (hshows b p).mp hb
    refine ⟨c,hc,rfl,by rwa [hpath c hc],fun c' hc' hs' => ?_⟩
    rw [hpath c' hc'] at hs'
    exact hmax c'.name c'.priority ((hshows _ _).mpr ⟨c',hc',rfl,rfl⟩) hs'
  · rintro ⟨c,hc,rfl,hserves,hmax⟩
    rw [hpath c hc] at hserves
    refine ⟨c.priority,(hshows _ _).mpr ⟨c,hc,rfl,rfl⟩,hserves,fun b' p' hb' hs' => ?_⟩
    obtain ⟨c',hc',rfl,rfl⟩ := (hshows b' p').mp hb'
    exact hmax c' hc' (by rwa [hpath c' hc'])

theorem runTasks_staticMappings (m : Manager) (tasks : List Manager.Task) :
    (m.runTasks tasks).1.staticMappings = m.staticMappings := by
  induction tasks generalizing m with
  | nil => rfl
  | cons task tasks ih =>
    refine (ih _).trans ?_
    cases task with
    | remove name =>
      show (m.remove name).1.staticMappings = _
      unfold Manager.remove Manager.closeHandle
      split
      · rfl
      · split <;> rfl
    | add config outcome =>
      show (m.add config outcome).1.staticMappings = _
      unfold Manager.add
      split
      · rfl
      · obtain ⟨_,_,_,heq⟩ | ⟨_,_,m',_,heq,hm',_⟩ := m.openBinding_cases outcome
        · rw [heq]
          rfl
        · rw [heq]
          obtain rfl | rfl := hm' <;> rfl

theorem reload_staticMappings (m : Manager) {file : Option Document} {configs : List BindingConfig}
    (hparse : (parseYamlConfig file).2 = some configs) (iteration : Iteration)
    (outcomes : Nat → LoadOutcome) :
    (m.reloadConfiguration file iteration outcomes).2.1.staticMappings =
      m.staticMappings++(parseYamlConfig file).1 := by
  simp only [Manager.reloadConfiguration,hparse,runTasks_staticMappings]
  rfl

theorem choice_append_iff {older own top : Option String} {q : String → Bool} :
    (((older.or own).filter q).or top = (own.filter q).or top) ↔
    ∀ b, older = some b →
      (q b = true → own.filter q = some b ∨ (own.filter q = none ∧ top = some b)) ∧
      (q b = false → ∀ b', own.filter q = some b' → top = some b') := by
  cases older with
  | none => simp
  | some b =>
    simp only [Option.some_or,Option.some.injEq,forall_eq']
    cases hq : q b with
    | true =>
      have hb : (some b).filter q = some b := by simp [Option.filter,hq]
      rw [hb,Option.some_or]
      cases own.filter q <;> simp [eq_comm]
    | false =>
      have hb : (some b).filter q = none := by simp [Option.filter,hq]
      rw [hb,Option.none_or]
      cases own.filter q <;> simp

theorem selected_iff {env : Environment} {configs : List BindingConfig}
    {outcomes : Nat → LoadOutcome} (hregular : Regular env configs outcomes)
    {older own : List StaticBindingMapping} {s s' : State} (h : Indexed s.manager s.log)
    (hmade : Made env s.manager s.log) (hshows : Shows env configs s.manager.priorityOf)
    (hmappings : s.manager.staticMappings = older++own) (h' : Indexed s'.manager s'.log)
    (hmade' : Made env s'.manager s'.log) (hshows' : Shows env configs s'.manager.priorityOf)
    (hmappings' : s'.manager.staticMappings = own) (serviceId instanceId : BitVec 64) :
    s.selectedName env serviceId instanceId = s'.selectedName env serviceId instanceId ↔
    ∀ b, mappedName older serviceId instanceId = some b →
      ((∃ c, c ∈ inForce env configs ∧ c.name = b) →
        ownName env configs own serviceId instanceId = some b ∨
          (ownName env configs own serviceId instanceId = none ∧ Top env configs serviceId b)) ∧
      ((¬ ∃ c, c ∈ inForce env configs ∧ c.name = b) →
        ∀ b', ownName env configs own serviceId instanceId = some b' →
          Top env configs serviceId b') := by
  have hloaded : ∀ t : Table, Shows env configs t → (fun b => (t b).isSome) =
      fun b => (inForce env configs).any fun c => c.name = b := by
    intro t ht
    funext b
    apply Bool.eq_iff_iff.mpr
    simp [Option.isSome_iff_exists,ht b]
  have htop : s'.topName env serviceId = s.topName env serviceId := by
    apply Option.ext
    intro b
    rw [topName_of_shows hregular h' hmade' hshows',topName_of_shows hregular h hmade hshows]
  have hmapped : s.manager.findStaticMapping serviceId instanceId =
      (mappedName older serviceId instanceId).or (mappedName own serviceId instanceId) := by
    rw [← mappedName_append,← hmappings]
    rfl
  have hmapped' : s'.manager.findStaticMapping serviceId instanceId =
      mappedName own serviceId instanceId := by
    rw [← hmappings']
    rfl
  rw [selectedName_eq h,selectedName_eq h',hloaded _ hshows,hloaded _ hshows',htop,hmapped,hmapped',
    choice_append_iff]
  simp only [topName_of_shows hregular h hmade hshows]
  refine forall_congr' fun b => imp_congr_right fun _ => and_congr (imp_congr_left ?_) ?_
  · simp
  · refine imp_congr_left ?_
    simp

theorem mem_bindingsByName_iff {m m' : Manager} {log log' : List Action} (h : Indexed m log)
    (h' : Indexed m' log') (htable : m.priorityOf = m'.priorityOf) (name : String) :
    name ∈ m.bindingsByName ↔ name ∈ m'.bindingsByName := by
  rw [← Manager.priorityOf_isSome h,← Manager.priorityOf_isSome h',htable]

theorem shows_fresh {env : Environment} {m : Manager} {log : List Action} (h : Indexed m log)
    (hempty : m.bindingsByName = ∅) {file : Option Document} {configs : List BindingConfig}
    (hparse : (parseYamlConfig file).2 = some configs) {outcomes : Nat → LoadOutcome}
    (hregular : Regular env configs outcomes) (iteration : Iteration) :
    Shows env configs (m.reloadConfiguration file iteration outcomes).2.1.priorityOf := by
  intro name p
  have hnone : m.priorityOf name = none := by
    rw [Manager.priorityOf_eq_none h,hempty]
    exact AList.notMem_empty name
  rw [priorityOf_reload h hparse hregular]
  refine exists_congr fun c => ?_
  rw [hnone,mem_inForce]
  simp only [reduceCtorEq,false_or,true_and]
  tauto

theorem shows_reload {env : Environment} {m : Manager} {log : List Action} (h : Indexed m log)
    (hmade : Made env m log) {file : Option Document} {configs : List BindingConfig}
    (hparse : (parseYamlConfig file).2 = some configs) {outcomes : Nat → LoadOutcome}
    (hregular : Regular env configs outcomes) (iteration : Iteration)
    (hkept : ∀ c, c ∈ configs → c.enabled = true → ∀ p, m.priorityOf c.name = some p →
      p = c.priority) :
    Shows env configs (m.reloadConfiguration file iteration outcomes).2.1.priorityOf := by
  intro name p
  rw [priorityOf_reload h hparse hregular]
  refine exists_congr fun c => ?_
  rw [mem_inForce]
  constructor
  · rintro ⟨hc,henabled,rfl,hold | ⟨_,hloads,hp⟩⟩
    · obtain ⟨o,ho,_⟩ := (Manager.priorityOf_eq_some h).mp hold
      refine ⟨⟨hc,henabled,?_⟩,rfl,(hkept c hc henabled p hold).symm⟩
      rw [Environment.loads,hregular.path hc henabled]
      exact (hmade.named c.name o ho).1
    · exact ⟨⟨hc,henabled,hloads⟩,rfl,hp⟩
  · rintro ⟨⟨hc,henabled,hloads⟩,rfl,rfl⟩
    refine ⟨hc,henabled,rfl,?_⟩
    cases hold : m.priorityOf c.name with
    | none => exact .inr ⟨rfl,hloads,rfl⟩
    | some p => exact .inl (congrArg some (hkept c hc henabled p hold))

theorem Regular.op {env : Environment} {configs : List BindingConfig}
    {outcomes : Nat → LoadOutcome} (h : Regular env configs outcomes) {file : Option Document}
    (hparse : (parseYamlConfig file).2 = some configs) (iteration : Iteration) :
    (Op.reloadConfiguration file iteration outcomes).Regular env := by
  intro configs' hsome
  rw [hparse] at hsome
  cases hsome
  exact h

/-- From every state that regular operations reach: reloading shows the same as a fresh
load exactly when the configuration keeps up what is left from before. -/
theorem reload_fresh_iff (env : Environment) (σ : Nat → Op) (n : Nat)
    (hσ : ∀ k, k < n → (σ k).Regular env) (file : Option Document) (configs : List BindingConfig)
    (hparse : (parseYamlConfig file).2 = some configs) (outcomes : Nat → LoadOutcome)
    (hregular : Regular env configs outcomes) (i₁ i₂ i₃ : Iteration) :
    SameView env
      ((stateAt State.next .initial σ n).next (.reloadConfiguration file i₁ outcomes))
      (((stateAt State.next .initial σ n).next (.shutdown i₂)).next
        (.reloadConfiguration file i₃ outcomes)) ↔
    KeepsUp env (stateAt State.next .initial σ n).manager configs (parseYamlConfig file).1 := by
  obtain ⟨hindexed,hmade⟩ := reached hσ
  generalize stateAt State.next .initial σ n = s at hindexed hmade ⊢
  have hreload : ∀ i, (Op.reloadConfiguration file i outcomes).Regular env :=
    fun i => hregular.op hparse i
  have hindexed₁ := hindexed.next ((hreload i₁).fresh s.manager)
  have hmade₁ := hmade.next (hreload i₁)
  have hindexed₀ : Indexed (s.next (.shutdown i₂)).manager (s.next (.shutdown i₂)).log :=
    hindexed.next trivial
  have hmade₀ : Made env (s.next (.shutdown i₂)).manager (s.next (.shutdown i₂)).log :=
    hmade.next (show (Op.shutdown i₂).Regular env from trivial)
  have hindexed₂ := hindexed₀.next ((hreload i₃).fresh _)
  have hmade₂ := hmade₀.next (hreload i₃)
  have hfresh := shows_fresh hindexed₀ rfl hparse hregular i₃
  have hselected := fun hkept => selected_iff hregular hindexed₁ hmade₁
    (shows_reload hindexed hmade hparse hregular i₁ hkept)
    (reload_staticMappings s.manager hparse i₁ outcomes) hindexed₂ hmade₂ hfresh
    (reload_staticMappings (s.next (.shutdown i₂)).manager hparse i₃ outcomes)
  constructor
  · intro hview
    have hkept : ∀ c, c ∈ configs → c.enabled = true → ∀ p,
        s.manager.priorityOf c.name = some p → p = c.priority := by
      intro c hc henabled p hold
      have hboth := (priorityOf_reload hindexed hparse hregular i₁).mpr
        ⟨c,hc,henabled,rfl,.inl hold⟩
      obtain ⟨c',hc',hname,hp⟩ := (hfresh c.name p).mp (congrFun hview.priorities c.name ▸ hboth)
      obtain ⟨hc',henabled',_⟩ := mem_inForce.mp hc'
      rw [← hp,hregular.inj_name hc' henabled' hc henabled hname]
    exact ⟨hkept,fun sid iid b hb => ((hselected hkept sid iid).mp (hview.selected sid iid) b hb).1,
      fun sid iid b hb => ((hselected hkept sid iid).mp (hview.selected sid iid) b hb).2⟩
  · intro hkeeps
    have htable : (s.next (.reloadConfiguration file i₁ outcomes)).manager.priorityOf =
        ((s.next (.shutdown i₂)).next
          (.reloadConfiguration file i₃ outcomes)).manager.priorityOf := by
      funext name
      apply Option.ext
      intro p
      exact (shows_reload hindexed hmade hparse hregular i₁ hkeeps.priorities name p).trans
        (hfresh name p).symm
    exact ⟨mem_bindingsByName_iff hindexed₁ hindexed₂ htable,htable,fun sid iid =>
      (hselected hkeeps.priorities sid iid).mpr fun b hb =>
        ⟨hkeeps.mapped sid iid b hb,hkeeps.hidden sid iid b hb⟩⟩

def allLoad : Environment :=
  ⟨fun name => "lib"++name++".so",fun _ => ⟨some 0,true,true,none⟩,fun _ _ => true⟩

def ddsAt (priority : Priority) : List BindingConfig := [⟨"dds","libdds.so",priority,true⟩]

def bothBindings : List BindingConfig :=
  ⟨"iceoryx2","libiceoryx2.so",BindingPriority.iceoryx2,true⟩ :: ddsAt BindingPriority.dds

def fileOf (configs : List BindingConfig) (mappings : List MappingNode) : Option Document :=
  some ⟨configs.map some,mappings.map some⟩

def reload (file : Option Document) : Op :=
  .reloadConfiguration file .plain fun _ => ⟨some 0,true,true,none⟩

def mapped : Option Document := fileOf bothBindings [⟨"0xF001",none,"dds"⟩]

theorem regular_ddsAt (priority : Priority) :
    Regular allLoad (ddsAt priority) fun _ => ⟨some 0,true,true,none⟩ := by
  refine ⟨by simp [ddsAt],by simp [ddsAt],fun c hc _ => ?_⟩
  obtain rfl := List.mem_singleton.mp hc
  have hpath : "libdds.so" = allLoad.path "dds" := by decide +kernel
  exact ⟨hpath,rfl⟩

theorem regular_bothBindings :
    Regular allLoad bothBindings fun _ => ⟨some 0,true,true,none⟩ :=
  ⟨by decide +kernel,by decide +kernel,by decide +kernel⟩

def sameAgain : Op := reload (fileOf (ddsAt BindingPriority.dds) [])

def loadedOnce : Nat → Op := schedule [sameAgain] (.unloadBinding "dds")

theorem loadedOnce_regular (k : Nat) : (loadedOnce k).Regular allLoad := by
  refine schedule_forall (Q := fun op : Op => op.Regular allLoad) ?_
    (show (Op.unloadBinding "dds").Regular allLoad from trivial) k
  intro op hop
  obtain rfl := List.mem_singleton.mp hop
  exact (regular_ddsAt BindingPriority.dds).op rfl .plain

theorem reload_fresh_iff_loadedOnce :
    SameView allLoad ((stateAt State.next .initial loadedOnce 1).next sameAgain)
      (((stateAt State.next .initial loadedOnce 1).next (.shutdown .plain)).next sameAgain) ↔
    KeepsUp allLoad (stateAt State.next .initial loadedOnce 1).manager
      (ddsAt BindingPriority.dds) [] :=
  reload_fresh_iff allLoad loadedOnce 1 (fun k _ => loadedOnce_regular k)
    (fileOf (ddsAt BindingPriority.dds) []) (ddsAt BindingPriority.dds) rfl
    (fun _ => ⟨some 0,true,true,none⟩) (regular_ddsAt _) .plain .plain .plain

/-- A changed priority is not taken over, and a mapping that was removed stays: both
files of each pair are regular. -/
theorem reload_keeps_old :
    ¬ SameView allLoad
      ((State.initial.next (reload (fileOf (ddsAt BindingPriority.dds) []))).next
        (reload (fileOf (ddsAt BindingPriority.iceoryx2) [])))
      (((State.initial.next (reload (fileOf (ddsAt BindingPriority.dds) []))).next
        (.shutdown .plain)).next (reload (fileOf (ddsAt BindingPriority.iceoryx2) []))) ∧
    (reload mapped).Regular allLoad ∧
    ¬ SameView allLoad
      ((State.initial.next (reload mapped)).next (reload (fileOf bothBindings [])))
      (((State.initial.next (reload mapped)).next (.shutdown .plain)).next
        (reload (fileOf bothBindings []))) := by
  refine ⟨fun h => ?_,?_,fun h => ?_⟩
  · have hpriority := congrFun h.priorities "dds"
    revert hpriority
    decide +kernel
  · exact regular_bothBindings.op (by decide +kernel) .plain
  · have hselected := h.selected 0xF001 0
    revert hselected
    decide +kernel

end LapCom.Binding
