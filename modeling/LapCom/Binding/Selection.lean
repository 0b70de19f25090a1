import LapCom.Binding.Manager

set_option autoImplicit false

namespace LapCom.Binding
open LapCom.Container

/-- An instance id of 0 stands for every instance. -/
def StaticBindingMapping.Matches (mapping : StaticBindingMapping)
    (serviceId instanceId : BitVec 64) : Prop :=
  mapping.serviceId = serviceId ∧ (mapping.instanceId = 0 ∨ mapping.instanceId = instanceId)

namespace Manager

/-- The bindings that the manager still has, in the order in which they came. -/
def InsertedAs (m : Manager) (inserted : List (Priority × Obj)) : Prop :=
  m.bindings = .ofInsertions inserted

theorem insertedAs_entries (m : Manager) : m.InsertedAs m.bindings.entries :=
  (PriorityMap.ofInsertions_entries m.bindings).symm

theorem InsertedAs.store {m : Manager} {inserted : List (Priority × Obj)}
    (h : m.InsertedAs inserted) (config : BindingConfig) (o : Obj) (handle : Option Lib) :
    (m.store config o handle).1.InsertedAs (inserted++[(config.priority,o)]) := by
  rw [InsertedAs,PriorityMap.ofInsertions_concat,← h]
  rfl

theorem InsertedAs.eraseBinding {m : Manager} {inserted : List (Priority × Obj)}
    (h : m.InsertedAs inserted) (name : String) (o : Obj) :
    (m.eraseBinding name o).InsertedAs (inserted.filter fun e => e.2 ≠ o) := by
  rw [InsertedAs,← PriorityMap.filterValues_ofInsertions inserted fun other => other ≠ o,← h]
  rfl

def Mapped (m : Manager) (serviceId instanceId : BitVec 64) (o : Obj) : Prop :=
  ∃ before mapping after, m.staticMappings = before++mapping :: after ∧
    mapping.Matches serviceId instanceId ∧
    (∀ other, other ∈ before → ¬ other.Matches serviceId instanceId) ∧
    m.bindingsByName.lookup mapping.bindingName = some o

def Preferred (supports : Obj → BitVec 64 → Bool) (serviceId : BitVec 64)
    (inserted : List (Priority × Obj)) (o : Obj) : Prop :=
  ∃ front priority back, inserted = front++(priority,o) :: back ∧ supports o serviceId = true ∧
    (∀ e, e ∈ inserted → supports e.2 serviceId = true → e.1 ≤ priority) ∧
    ∀ e, e ∈ front → supports e.2 serviceId = true → e.1 < priority

theorem bind_findStaticMapping {m : Manager} {serviceId instanceId : BitVec 64} {o : Obj} :
    (m.findStaticMapping serviceId instanceId).bind m.bindingsByName.lookup = some o ↔
      m.Mapped serviceId instanceId o := by
  simp only [findStaticMapping,Option.bind_map,Option.bind_eq_some_iff,Function.comp,
    List.find?_eq_some_iff_append,decide_eq_true_eq,Bool.not_eq_true',decide_eq_false_iff_not]
  constructor
  · rintro ⟨mapping,⟨hmatch,before,after,hsplit,hbefore⟩,hloaded⟩
    exact ⟨before,mapping,after,hsplit,hmatch,hbefore,hloaded⟩
  · rintro ⟨before,mapping,after,hsplit,hmatch,hbefore,hloaded⟩
    exact ⟨mapping,⟨hmatch,before,after,hsplit,hbefore⟩,hloaded⟩

theorem find?_supports {m : Manager} {inserted : List (Priority × Obj)}
    (h : m.InsertedAs inserted) (supports : Obj → BitVec 64 → Bool) (serviceId : BitVec 64)
    (o : Obj) :
    (m.bindings.entries.find? fun e => supports e.2 serviceId).map Prod.snd = some o ↔
      Preferred supports serviceId inserted o := by
  rw [h,Option.map_eq_some_iff]
  constructor
  · rintro ⟨⟨priority,_⟩,hfind,rfl⟩
    obtain ⟨hsupports,hhigh,front,back,hsplit,hfront⟩ := PriorityMap.find?_ofInsertions.mp hfind
    exact ⟨front,priority,back,hsplit,hsupports,hhigh,hfront⟩
  · rintro ⟨front,priority,back,hsplit,hsupports,hhigh,hfront⟩
    exact ⟨(priority,o),PriorityMap.find?_ofInsertions.mpr
      ⟨hsupports,hhigh,front,back,hsplit,hfront⟩,rfl⟩

theorem selectBinding_rule {m : Manager} {inserted : List (Priority × Obj)}
    (h : m.InsertedAs inserted) (supports : Obj → BitVec 64 → Bool)
    (serviceId instanceId : BitVec 64) :
    (∀ o, m.selectBinding supports serviceId instanceId = some o ↔
      m.Mapped serviceId instanceId o ∨
      (∀ o', ¬ m.Mapped serviceId instanceId o') ∧ Preferred supports serviceId inserted o) ∧
    (m.selectBinding supports serviceId instanceId = none ↔
      (∀ o, ¬ m.Mapped serviceId instanceId o) ∧
      ∀ e, e ∈ inserted → supports e.2 serviceId = false) := by
  cases hmapped : (m.findStaticMapping serviceId instanceId).bind m.bindingsByName.lookup with
  | some o =>
    have hselect : m.selectBinding supports serviceId instanceId = some o := by
      rw [selectBinding,hmapped]
    have hown := bind_findStaticMapping.mp hmapped
    rw [hselect]
    refine ⟨fun o' => ⟨fun heq => .inl (Option.some.inj heq ▸ hown),?_⟩,?_⟩
    · rintro (hother | ⟨hnone,-⟩)
      · rw [← hmapped,bind_findStaticMapping.mpr hother]
      · exact absurd hown (hnone o)
    · exact ⟨(nomatch ·),fun hnone => absurd hown (hnone.1 o)⟩
  | none =>
    have hselect : m.selectBinding supports serviceId instanceId =
        (m.bindings.entries.find? fun e => supports e.2 serviceId).map Prod.snd := by
      rw [selectBinding,hmapped]
    have hnone : ∀ o, ¬ m.Mapped serviceId instanceId o := by
      intro o ho
      rw [bind_findStaticMapping.mpr ho] at hmapped
      cases hmapped
    rw [hselect]
    refine ⟨fun o => ?_,?_⟩
    · rw [find?_supports h]
      exact ⟨fun ho => .inr ⟨hnone,ho⟩,fun ho => ho.elim (fun ho => absurd ho (hnone o)) And.right⟩
    · rw [Option.map_eq_none_iff,h,List.find?_eq_none]
      simp only [PriorityMap.mem_ofInsertions,Bool.not_eq_true]
      exact (and_iff_right hnone).symm

def tied : Manager :=
  { Manager.empty with
    bindings := .ofInsertions
      [(BindingPriority.dds,0),(BindingPriority.iceoryx2,1),(BindingPriority.iceoryx2,2)]
    staticMappings := [⟨4660#64,0#64,"socket"⟩] }

theorem selectBinding_rule_tied :
    tied.InsertedAs [(80,0),(100,1),(100,2)] ∧
      tied.selectBinding (fun o _ => o ≠ 3) 4660#64 1#64 = some 1 := by
  have h : tied.InsertedAs [(80,0),(100,1),(100,2)] := rfl
  refine ⟨h,((selectBinding_rule h (fun o _ => o ≠ 3) 4660#64 1#64).1 1).mpr (.inr ⟨?_,?_⟩)⟩
  · rintro o ⟨before,mapping,after,-,-,-,hloaded⟩
    cases hloaded
  · exact ⟨[(80,0)],100,[(100,2)],rfl,by decide,by decide,by decide⟩

end Manager

end LapCom.Binding
