import LapCom.Binding.Index

set_option autoImplicit false

namespace LapCom.Binding
open LapCom.Container LapCom.Machine

/-- The loaded bindings and their priorities: what a configuration is about. -/
abbrev Table := String → Option Priority

namespace Table

def remove (t : Table) (name : String) : Table := Function.update t name none

def add (t : Table) (config : BindingConfig) (loads : Bool) : Table :=
  if (t config.name).isSome = true ∨ loads = false then t
  else Function.update t config.name (some config.priority)

theorem remove_all (t : Table) (names : List String) (name : String) :
    names.foldl remove t name = if name ∈ names then none else t name := by
  induction names generalizing t with
  | nil => rfl
  | cons n names ih =>
    rw [List.foldl_cons,ih,remove]
    by_cases hn : name = n
    · subst hn
      simp
    · rw [Function.update_of_ne hn]
      simp [hn]

theorem add_of_ne (t : Table) {config : BindingConfig} {name : String} (h : name ≠ config.name)
    (loads : Bool) : t.add config loads name = t name := by
  unfold add
  split
  · rfl
  · exact Function.update_of_ne h _ _

theorem add_self (t : Table) (config : BindingConfig) (loads : Bool) :
    t.add config loads config.name =
      (t config.name).or (if loads then some config.priority else none) := by
  unfold add
  cases h : t config.name with
  | some p => simp [h]
  | none => cases loads <;> simp [h]

theorem add_all (t : Table) {adds : List (BindingConfig × Bool)}
    (hnodup : (adds.map fun c => c.1.name).Nodup) (name : String) :
    adds.foldl (fun t c => add t c.1 c.2) t name =
      ((t name).or ((adds.find? fun c => c.1.name = name).bind fun c =>
        if c.2 then some c.1.priority else none)) := by
  induction adds generalizing t with
  | nil => simp
  | cons c adds ih =>
    rw [List.map_cons,List.nodup_cons] at hnodup
    obtain ⟨hnew,hrest⟩ := hnodup
    rw [List.foldl_cons,ih _ hrest]
    by_cases hname : c.1.name = name
    · subst hname
      have hnone : (adds.find? fun d => d.1.name = c.1.name) = none := by
        rw [List.find?_eq_none]
        intro d hd heq
        exact hnew (List.mem_map.mpr ⟨d,hd,by simpa using heq⟩)
      rw [add_self,hnone,List.find?_cons_of_pos (by simp)]
      simp
    · rw [add_of_ne _ (Ne.symm hname),List.find?_cons_of_neg (by simpa using hname)]

end Table

namespace Manager

def priorityOf (m : Manager) : Table := fun name =>
  (m.bindingsByName.lookup name).bind fun o =>
    (m.bindings.entries.find? fun e => e.2 = o).map Prod.fst

def nameOf (m : Manager) (o : Obj) : Option String :=
  (m.bindingsByName.entries.find? fun e => e.2 = o).map Sigma.fst

variable {m : Manager} {log : List Action}

theorem priorityOf_eq_some (h : Indexed m log) {name : String} {p : Priority} :
    m.priorityOf name = some p ↔
    ∃ o, m.bindingsByName.lookup name = some o ∧ (p,o) ∈ m.bindings.entries := by
  rw [priorityOf,Option.bind_eq_some_iff]
  refine exists_congr fun o => and_congr_right fun _ => ?_
  constructor
  · intro hfind
    obtain ⟨e,he,rfl⟩ := Option.map_eq_some_iff.mp hfind
    have ho : e.2 = o := by simpa using List.find?_some he
    exact ho ▸ List.mem_of_find?_eq_some he
  · intro he
    have hfilter := PriorityMap.filter_value h.values_nodup he
    rw [← List.head?_filter,hfilter]
    rfl

theorem priorityOf_isSome (h : Indexed m log) {name : String} :
    (m.priorityOf name).isSome = true ↔ name ∈ m.bindingsByName := by
  rw [Option.isSome_iff_exists,← AList.lookup_isSome,Option.isSome_iff_exists]
  constructor
  · rintro ⟨p,hp⟩
    obtain ⟨o,ho,_⟩ := (priorityOf_eq_some h).mp hp
    exact ⟨o,ho⟩
  · rintro ⟨o,ho⟩
    obtain ⟨p,hp⟩ := PriorityMap.mem_values.mp ((h.same o).mpr (mem_named.mpr ⟨name,ho⟩))
    exact ⟨p,(priorityOf_eq_some h).mpr ⟨o,ho,hp⟩⟩

theorem nameOf_eq_some (h : Indexed m log) {name : String} {o : Obj} :
    m.nameOf o = some name ↔ m.bindingsByName.lookup name = some o := by
  rw [nameOf,Option.map_eq_some_iff]
  constructor
  · rintro ⟨⟨_,v⟩,he,rfl⟩
    have ho : v = o := by simpa using List.find?_some he
    exact ho ▸ AList.mem_lookup_iff.mpr (List.mem_of_find?_eq_some he)
  · intro hname
    have hmem := AList.mem_lookup_iff.mp hname
    cases hfind : m.bindingsByName.entries.find? fun e => e.2 = o with
    | none => simpa using List.find?_eq_none.mp hfind _ hmem
    | some e =>
      have ho : e.2 = o := by simpa using List.find?_some hfind
      refine ⟨e,rfl,name_unique h.named_nodup ?_ hname⟩
      exact ho ▸ AList.mem_lookup_iff.mpr (List.mem_of_find?_eq_some hfind)

theorem priorityOf_eq_none (h : Indexed m log) {name : String} :
    m.priorityOf name = none ↔ name ∉ m.bindingsByName := by
  rw [← priorityOf_isSome h,Option.not_isSome_iff_eq_none]

theorem priorityOf_erase (h : Indexed m log) {name : String} {o : Obj}
    (hname : m.bindingsByName.lookup name = some o) :
    (m.eraseBinding name o).priorityOf = m.priorityOf.remove name := by
  have hindexed : Indexed (m.eraseBinding name o) (log++[]) := h.erase hname (by simp)
  funext name'
  by_cases hne : name' = name
  · subst hne
    rw [Table.remove,Function.update_self,priorityOf_eq_none hindexed]
    show name' ∉ m.bindingsByName.erase name'
    simp
  · rw [Table.remove,Function.update_of_ne hne]
    apply Option.ext
    intro p
    rw [priorityOf_eq_some hindexed,priorityOf_eq_some h]
    refine exists_congr fun o' => ?_
    have hlookup : (m.eraseBinding name o).bindingsByName.lookup name' =
        m.bindingsByName.lookup name' := AList.lookup_erase_ne hne
    rw [hlookup]
    refine and_congr_right fun hname' => ?_
    have hother : o' ≠ o := by
      rintro rfl
      exact hne (name_unique h.named_nodup hname' hname)
    show _ ∈ (m.bindings.filterValues _).entries ↔ _
    rw [PriorityMap.mem_filterValues]
    simp [hother]

theorem priorityOf_close (m : Manager) (name : String) :
    (m.closeHandle name).1.priorityOf = m.priorityOf := by
  unfold closeHandle
  split <;> rfl

theorem priorityOf_remove (h : Indexed m log) (name : String) :
    (m.remove name).1.priorityOf = m.priorityOf.remove name := by
  unfold remove
  cases hname : m.bindingsByName.lookup name with
  | none =>
    have hnone : m.priorityOf name = none :=
      (priorityOf_eq_none h).mpr (AList.lookup_eq_none.mp hname)
    rw [Table.remove,← hnone,Function.update_eq_self]
  | some o => exact (priorityOf_close _ name).trans (priorityOf_erase h hname)

theorem priorityOf_store (h : Indexed m log) {config : BindingConfig}
    (hname : config.name ∉ m.bindingsByName) (handle : Option Lib) :
    (m.grown.store config m.nextObj handle).1.priorityOf =
      Function.update m.priorityOf config.name (some config.priority) := by
  have hindexed := h.store hname handle
  funext name
  apply Option.ext
  intro p
  rw [priorityOf_eq_some hindexed]
  show (∃ o, (m.bindingsByName.insert config.name m.nextObj).lookup name = some o ∧
    (p,o) ∈ (m.bindings.emplace config.priority m.nextObj).entries) ↔ _
  simp only [PriorityMap.mem_emplace,Prod.mk.injEq]
  by_cases hn : name = config.name
  · subst hn
    simp only [AList.lookup_insert,Option.some.injEq,exists_eq_left',Function.update_self]
    have hnew : (p,m.nextObj) ∉ m.bindings.entries := by
      intro he
      exact Nat.lt_irrefl _ (h.below _ ((h.same _).mp (PriorityMap.mem_values.mpr ⟨p,he⟩)))
    simp [hnew,eq_comm]
  · rw [AList.lookup_insert_ne hn,Function.update_of_ne hn,priorityOf_eq_some h]
    refine exists_congr fun o => and_congr_right fun ho => ?_
    have hold : o ≠ m.nextObj :=
      Nat.ne_of_lt (h.below o (mem_named.mpr ⟨name,ho⟩))
    simp [hold]

theorem priorityOf_add (h : Indexed m log) (config : BindingConfig) (outcome : LoadOutcome) :
    (m.add config outcome).1.priorityOf = m.priorityOf.add config outcome.succeeds := by
  unfold add Table.add
  by_cases hname : config.name ∈ m.bindingsByName
  · rw [if_pos (AList.lookup_isSome.mpr hname),if_pos (.inl ((priorityOf_isSome h).mpr hname))]
  · have hnone : (m.priorityOf config.name).isSome ≠ true :=
      fun hsome => hname ((priorityOf_isSome h).mp hsome)
    rw [if_neg (mt AList.lookup_isSome.mp hname)]
    obtain ⟨hsucc,lib,_,heq⟩ | ⟨hfail,e,m',as,heq,hm',_⟩ := m.openBinding_cases outcome
    · rw [heq,hsucc,if_neg (by simp [hnone])]
      exact priorityOf_store h hname (some lib)
    · rw [heq,hfail,if_pos (.inr rfl)]
      obtain rfl | rfl := hm'
      · rfl
      · rfl

def Task.onTable (t : Table) : Task → Table
  | .remove name => t.remove name
  | .add config outcome => t.add config outcome.succeeds

theorem priorityOf_runTasks (h : Indexed m log) (tasks : List Task) :
    (m.runTasks tasks).1.priorityOf = tasks.foldl Task.onTable m.priorityOf := by
  induction tasks generalizing m log with
  | nil => rfl
  | cons task tasks ih =>
    have htask : (task.exec m).1.priorityOf = task.onTable m.priorityOf ∧
        Indexed (task.exec m).1 (log++(task.exec m).2) := by
      cases task with
      | remove name => exact ⟨priorityOf_remove h name,h.remove name⟩
      | add config outcome => exact ⟨priorityOf_add h config outcome,h.add config outcome⟩
    rw [List.foldl_cons,← htask.1]
    exact ih htask.2

end Manager

end LapCom.Binding
