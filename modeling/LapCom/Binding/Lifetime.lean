import LapCom.Binding.Manager
import LapCom.Machine.Run
import Mathlib.Logic.Function.Basic

set_option autoImplicit false

namespace LapCom.Binding
open LapCom.Container LapCom.Machine

/-- What the loader keeps: how often each library is open, and in which library
the code of an object lives, if that is still mapped. -/
structure World where
  refs : Lib → Nat
  home : Obj → Option Lib

namespace World

def initial : World := ⟨fun _ => 0,fun _ => none⟩

/-- The `dlclose` of the last open handle unmaps the library. -/
def act (w : World) : Action → World
  | .dlopen lib => { w with refs := Function.update w.refs lib (w.refs lib+1) }
  | .dlclose lib =>
    ⟨Function.update w.refs lib (w.refs lib-1),
      fun o => if w.home o = some lib ∧ w.refs lib ≤ 1 then none else w.home o⟩
  | .factory lib (some o) => { w with home := Function.update w.home o (some lib) }
  | _ => w

def allowed (w : World) : Action → Bool
  | .factory lib _ => 0 < w.refs lib
  | .init o => (w.home o).isSome
  | .shutdown o => (w.home o).isSome
  | .destroy o => (w.home o).isSome
  | _ => true

def run (w : World) (as : List Action) : World := as.foldl act w

def safe (w : World) : List Action → Bool
  | [] => true
  | a :: as => w.allowed a && (w.act a).safe as

def opened (w : World) (lib : Lib) (o : Obj) : World :=
  (w.act (.dlopen lib)).act (.factory lib (some o))

theorem opened_home_self (w : World) (lib : Lib) (o : Obj) :
    (w.opened lib o).home o = some lib := Function.update_self ..

theorem opened_home_of_ne (w : World) (lib : Lib) {o o' : Obj} (h : o' ≠ o) :
    (w.opened lib o).home o' = w.home o' := Function.update_of_ne h ..

theorem opened_refs_self (w : World) (lib : Lib) (o : Obj) :
    (w.opened lib o).refs lib = w.refs lib+1 := Function.update_self ..

theorem opened_refs_of_ne (w : World) {lib lib' : Lib} (o : Obj) (h : lib' ≠ lib) :
    (w.opened lib o).refs lib' = w.refs lib' := Function.update_of_ne h ..

theorem dlclose_refs_self (w : World) (lib : Lib) :
    (w.act (.dlclose lib)).refs lib = w.refs lib-1 := Function.update_self ..

theorem dlclose_refs_of_ne (w : World) {lib lib' : Lib} (h : lib' ≠ lib) :
    (w.act (.dlclose lib)).refs lib' = w.refs lib' := Function.update_of_ne h ..

theorem countP_home_congr {w w' : World} {objs : List Obj}
    (h : ∀ o, o ∈ objs → w'.home o = w.home o) (lib : Lib) :
    objs.countP (fun o => w'.home o = some lib) = objs.countP (fun o => w.home o = some lib) := by
  apply List.countP_congr
  intro o ho
  rw [h o ho]

theorem run_append (w : World) (as bs : List Action) : w.run (as++bs) = (w.run as).run bs :=
  List.foldl_append

theorem safe_append (w : World) (as bs : List Action) :
    w.safe (as++bs) = (w.safe as && (w.run as).safe bs) := by
  induction as generalizing w with
  | nil => rfl
  | cons a as ih =>
    simp only [List.cons_append,safe,ih,Bool.and_assoc]
    rfl

theorem run_calls (w : World) {as : List Action} (h : ∀ a, a ∈ as → w.act a = w) :
    w.run as = w := by
  induction as with
  | nil => rfl
  | cons a as ih =>
    have ha := h a List.mem_cons_self
    show (w.act a).run as = w
    rw [ha]
    exact ih fun b hb => h b (List.mem_cons_of_mem _ hb)

theorem safe_calls (w : World) {as : List Action} (h : ∀ a, a ∈ as → w.act a = w) :
    w.safe as = as.all w.allowed := by
  induction as with
  | nil => rfl
  | cons a as ih =>
    have ha := h a List.mem_cons_self
    rw [safe,ha,ih fun b hb => h b (List.mem_cons_of_mem _ hb),List.all_cons]

theorem run_dlclose_none (w : World) (libs : List Lib) {o : Obj} (ho : w.home o = none) :
    (w.run (libs.map .dlclose)).home o = none := by
  induction libs generalizing w with
  | nil => exact ho
  | cons lib libs ih => exact ih (w.act (.dlclose lib)) (by simp [act,ho])

theorem run_destroys (w : World) (objs : List Obj) : w.run (objs.map .destroy) = w := by
  apply w.run_calls
  intro a ha
  obtain ⟨o,_,rfl⟩ := List.mem_map.mp ha
  rfl

theorem safe_destroys (w : World) (objs : List Obj) :
    w.safe (objs.map .destroy) = objs.all fun o => (w.home o).isSome := by
  induction objs with
  | nil => rfl
  | cons o objs ih => exact congrArg (fun b => (w.home o).isSome && b) ih

theorem run_dlclose_home (w : World) (libs : List Lib) {o : Obj} {lib : Lib}
    (ho : w.home o = some lib) :
    (w.run (libs.map .dlclose)).home o =
      if 0 < libs.count lib ∧ w.refs lib ≤ libs.count lib then none else some lib := by
  induction libs generalizing w with
  | nil => exact ho
  | cons c libs ih =>
    show ((w.act (.dlclose c)).run (libs.map .dlclose)).home o = _
    by_cases hc : c = lib
    · subst hc
      rw [List.count_cons_self]
      by_cases hlast : w.refs c ≤ 1
      · rw [run_dlclose_none _ _ (by simp [act,ho,hlast]),if_pos (by omega)]
      · rw [ih (w.act (.dlclose c)) (by simp [act,ho,hlast])]
        rw [dlclose_refs_self]
        exact if_congr (by omega) rfl rfl
    · have hne : w.home o ≠ some c := by
        rw [ho]
        exact fun h => hc (Option.some.inj h).symm
      rw [ih (w.act (.dlclose c)) ((if_neg fun h => hne h.1).trans ho),
        dlclose_refs_of_ne w (Ne.symm hc),List.count_cons_of_ne hc]

theorem safe_dlclose (w : World) (libs : List Lib) : w.safe (libs.map .dlclose) = true := by
  induction libs generalizing w with
  | nil => rfl
  | cons lib libs ih => exact ih (w.act (.dlclose lib))

end World

/-- Every named binding lives in the library whose handle stands under its name,
every stored one in some library, and a library is open at least as often as
stored bindings live in it. -/
structure Sound (m : Manager) (w : World) : Prop where
  values_nodup : m.bindings.values.Nodup
  named_nodup : m.named.Nodup
  below : ∀ o, o ∈ m.bindings.values → o < m.nextObj
  stored : ∀ o, o ∈ m.named → o ∈ m.bindings.values
  handled : ∀ name o, m.bindingsByName.lookup name = some o →
    ∃ lib, m.libraryHandles.lookup name = some lib ∧ w.home o = some lib
  owned : ∀ name, name ∈ m.libraryHandles → name ∈ m.bindingsByName
  mapped : ∀ o, o ∈ m.bindings.values → ∃ lib, w.home o = some lib
  counted : ∀ lib, m.bindings.values.countP (fun o => w.home o = some lib) ≤ w.refs lib

def LoadOutcome.StaysOpen (w : World) (outcome : LoadOutcome) : Prop :=
  ∀ lib, outcome.opened = some lib → outcome.createSymbol = true → outcome.created = true →
    outcome.initError.isSome = true → 0 < w.refs lib

def Manager.handles (m : Manager) : List Lib := m.libraryHandles.entries.map Sigma.snd

theorem Manager.lookups_perm {V : Type} (names : NameMap V) (iteration : Iteration) :
    ((iteration.order names.keys).filterMap names.lookup).Perm (names.entries.map Sigma.snd) := by
  refine ((iteration.perm names.keys).filterMap _).trans (List.Perm.of_eq ?_)
  show (names.entries.map Sigma.fst).filterMap names.lookup = _
  rw [List.filterMap_map,← List.filterMap_eq_map]
  apply List.filterMap_congr
  rintro ⟨name,v⟩ he
  exact AList.mem_lookup_iff.mpr he

namespace Sound

variable {m : Manager} {w w' : World}

theorem cleared (o : Obj) (w : World) : Sound { Manager.empty with nextObj := o } w where
  values_nodup := List.nodup_nil
  named_nodup := List.nodup_nil
  below := fun _ h => by cases h
  stored := fun _ h => by cases h
  handled := fun _ _ h => by cases h
  owned := fun _ h => by cases h
  mapped := fun _ h => by cases h
  counted := fun _ => Nat.zero_le _

theorem congr (h : Sound m w) (hrefs : w'.refs = w.refs)
    (hhome : ∀ o, o ∈ m.bindings.values → w'.home o = w.home o) : Sound m w' := by
  refine ⟨h.values_nodup,h.named_nodup,h.below,h.stored,fun name o hname => ?_,h.owned,
    fun o ho => ?_,fun lib => ?_⟩
  · rw [hhome o (h.stored o (Manager.mem_named.mpr ⟨name,hname⟩))]
    exact h.handled name o hname
  · rw [hhome o ho]
    exact h.mapped o ho
  · rw [World.countP_home_congr hhome,hrefs]
    exact h.counted lib

theorem grown (h : Sound m w) : Sound m.grown w :=
  ⟨h.values_nodup,h.named_nodup,fun o ho => Nat.lt_succ_of_lt (h.below o ho),h.stored,h.handled,
    h.owned,h.mapped,h.counted⟩

theorem fresh (h : Sound m w) : m.nextObj ∉ m.bindings.values :=
  fun ho => Nat.lt_irrefl _ (h.below _ ho)

theorem refs_pos (h : Sound m w) {o : Obj} {lib : Lib} (ho : o ∈ m.bindings.values)
    (hhome : w.home o = some lib) : 0 < w.refs lib :=
  lt_of_lt_of_le (List.countP_pos_iff.mpr ⟨o,ho,by simpa using hhome⟩) (h.counted lib)

theorem opened_home (h : Sound m w) (lib : Lib) {o : Obj} (ho : o ∈ m.bindings.values) :
    (w.opened lib m.nextObj).home o = w.home o := by
  apply w.opened_home_of_ne lib
  rintro rfl
  exact h.fresh ho

theorem counted_store (h : Sound m w) (lib lib' : Lib) :
    (m.nextObj :: m.bindings.values).countP
        (fun o => (w.opened lib m.nextObj).home o = some lib') ≤
      (w.opened lib m.nextObj).refs lib' := by
  have hcounted := h.counted lib'
  rw [List.countP_cons,World.countP_home_congr (fun o ho => h.opened_home lib ho),
    World.opened_home_self]
  by_cases hlib : lib' = lib
  · subst hlib
    rw [World.opened_refs_self,if_pos (by simp)]
    omega
  · rw [World.opened_refs_of_ne w _ hlib,if_neg (by simpa using Ne.symm hlib)]
    exact hcounted

theorem handled_store (h : Sound m w) (config : BindingConfig) (lib : Lib) {name : String} {o : Obj}
    (hname : (m.bindingsByName.insert config.name m.nextObj).lookup name = some o) :
    ∃ lib', (m.libraryHandles.insert config.name lib).lookup name = some lib' ∧
      (w.opened lib m.nextObj).home o = some lib' := by
  by_cases hn : name = config.name
  · subst hn
    rw [AList.lookup_insert] at hname
    cases hname
    exact ⟨lib,AList.lookup_insert _,w.opened_home_self lib _⟩
  · rw [AList.lookup_insert_ne hn] at hname
    obtain ⟨lib',hlib,hold⟩ := h.handled name o hname
    refine ⟨lib',(AList.lookup_insert_ne hn).trans hlib,?_⟩
    rw [h.opened_home lib (h.stored o (Manager.mem_named.mpr ⟨name,hname⟩))]
    exact hold

theorem store (h : Sound m w) (config : BindingConfig) (lib : Lib) :
    Sound (m.grown.store config m.nextObj (some lib)).1 (w.opened lib m.nextObj) := by
  have hvalues : (m.grown.store config m.nextObj (some lib)).1.bindings.values.Perm
      (m.nextObj :: m.bindings.values) := m.grown.store_values_perm config m.nextObj (some lib)
  have hnamed : (m.grown.store config m.nextObj (some lib)).1.named =
      m.nextObj :: (List.kerase config.name m.bindingsByName.entries).map Sigma.snd :=
    m.grown.store_named config m.nextObj (some lib)
  have hsub : ((List.kerase config.name m.bindingsByName.entries).map Sigma.snd).Sublist m.named :=
    (List.kerase_sublist _ _).map _
  refine ⟨?_,?_,fun o ho => ?_,fun o ho => ?_,fun name o hname => h.handled_store config lib hname,
    fun name hname => ?_,fun o ho => ?_,fun lib' => ?_⟩
  · rw [hvalues.nodup_iff]
    exact List.nodup_cons.mpr ⟨h.fresh,h.values_nodup⟩
  · rw [hnamed]
    exact List.nodup_cons.mpr ⟨fun ho => h.fresh (h.stored _ (hsub.subset ho)),
      h.named_nodup.sublist hsub⟩
  · rw [hvalues.mem_iff] at ho
    obtain rfl | ho := List.mem_cons.mp ho
    · exact Nat.lt_succ_self _
    · exact Nat.lt_succ_of_lt (h.below o ho)
  · rw [hnamed] at ho
    rw [hvalues.mem_iff]
    obtain rfl | ho := List.mem_cons.mp ho
    · exact List.mem_cons_self
    · exact List.mem_cons_of_mem _ (h.stored o (hsub.subset ho))
  · have hname : name ∈ m.libraryHandles.insert config.name lib := hname
    show name ∈ m.bindingsByName.insert config.name m.nextObj
    rw [AList.mem_insert] at hname ⊢
    exact hname.imp_right (h.owned name)
  · rw [hvalues.mem_iff] at ho
    obtain rfl | ho := List.mem_cons.mp ho
    · exact ⟨lib,w.opened_home_self lib _⟩
    · rw [h.opened_home lib ho]
      exact h.mapped o ho
  · rw [hvalues.countP_eq]
    exact h.counted_store lib lib'

/-- The replaced object is still in `bindings_`, so that storing destroys nothing. -/
theorem store_log (h : Sound m w) (config : BindingConfig) (handle : Option Lib) :
    (m.grown.store config m.nextObj handle).2 =
      [.accept config.name m.nextObj config.priority] := by
  refine congrArg (List.cons _) (Manager.dropped_eq_nil fun o ho => ?_)
  have hname : m.bindingsByName.lookup config.name = some o := Option.mem_toList.mp ho
  have hin := h.stored o (Manager.mem_named.mpr ⟨config.name,hname⟩)
  have hvalues := m.grown.store_values_perm config m.nextObj handle
  exact decide_eq_true (.inl (hvalues.mem_iff.mpr (List.mem_cons_of_mem _ hin)))

theorem reclosed (h : Sound m w) {lib : Lib}
    (hrefs : w'.refs = Function.update w.refs lib (w.refs lib+1))
    (hhome : ∀ o, o ∈ m.bindings.values → w'.home o = w.home o) :
    Sound m (w'.act (.dlclose lib)) := by
  have hlib : w'.refs lib = w.refs lib+1 := by rw [hrefs,Function.update_self]
  refine h.congr ?_ fun o ho => ?_
  · show Function.update w'.refs lib (w'.refs lib-1) = w.refs
    rw [hlib,hrefs,Function.update_idem,Nat.add_sub_cancel,Function.update_eq_self]
  · show (if w'.home o = some lib ∧ w'.refs lib ≤ 1 then none else w'.home o) = w.home o
    rw [hhome o ho,if_neg]
    rintro ⟨hin,hlast⟩
    have := h.refs_pos ho hin
    omega

theorem openBinding (h : Sound m w) (outcome : LoadOutcome) :
    (outcome.StaysOpen w ∧ ∃ lib as, m.openBinding outcome = (.ok (lib,m.nextObj),m.grown,as) ∧
      w.run as = w.opened lib m.nextObj ∧ w.safe as = true) ∨
    (∃ e m' as, m.openBinding outcome = (.error e,m',as) ∧ Sound m' (w.run as) ∧
      (w.safe as = true ↔ outcome.StaysOpen w)) := by
  obtain ⟨opened,createSymbol,created,initError⟩ := outcome
  cases opened with
  | none => exact .inr ⟨_,_,_,rfl,h,by simp [World.safe,LoadOutcome.StaysOpen]⟩
  | some lib =>
    cases createSymbol with
    | false =>
      exact .inr ⟨_,_,_,rfl,h.reclosed rfl fun _ _ => rfl,
        by simp [World.safe,World.allowed,LoadOutcome.StaysOpen]⟩
    | true =>
      cases created with
      | false =>
        exact .inr ⟨_,_,_,rfl,h.reclosed rfl fun _ _ => rfl,
          by simp [World.safe,World.allowed,World.act,LoadOutcome.StaysOpen]⟩
      | true =>
        cases initError with
        | none =>
          refine .inl ⟨?_,_,_,rfl,rfl,by simp [World.safe,World.allowed,World.act]⟩
          intro _ _ _ _ hinit
          cases hinit
        | some code =>
          refine .inr ⟨_,_,_,rfl,?_,?_⟩
          · exact h.grown.reclosed rfl fun o ho => h.opened_home lib ho
          · simp [World.safe,World.allowed,World.act,LoadOutcome.StaysOpen,Nat.pos_iff_ne_zero]

theorem counted_erase (h : Sound m w) {o : Obj} {lib : Lib} (ho : o ∈ m.bindings.values)
    (hhome : w.home o = some lib) :
    (m.bindings.values.filter fun o' => o' ≠ o).countP (fun o' => w.home o' = some lib)+1 ≤
      w.refs lib := by
  have hperm := List.perm_cons_erase ho
  have hcounted := h.counted lib
  have hrest : m.bindings.values.erase o = m.bindings.values.filter fun o' => o' ≠ o := by
    rw [h.values_nodup.erase_eq_filter]
    apply List.filter_congr
    intro o' _
    by_cases heq : o' = o <;> simp [heq]
  rw [hperm.countP_eq,List.countP_cons,hhome,hrest] at hcounted
  simpa only [decide_true,if_true] using hcounted

theorem home_erase (h : Sound m w) {o o' : Obj} {lib : Lib} (ho : o ∈ m.bindings.values)
    (hhome : w.home o = some lib) (ho' : o' ∈ m.bindings.values.filter fun o' => o' ≠ o) :
    (w.act (.dlclose lib)).home o' = w.home o' := by
  refine if_neg ?_
  rintro ⟨hin,hlast⟩
  have hcount := h.counted_erase ho hhome
  have hpos : 0 < (m.bindings.values.filter fun o' => o' ≠ o).countP
      (fun o' => w.home o' = some lib) := List.countP_pos_iff.mpr ⟨o',ho',by simpa using hin⟩
  omega

theorem counted_close (h : Sound m w) {o : Obj} {lib : Lib} (ho : o ∈ m.bindings.values)
    (hhome : w.home o = some lib) (lib' : Lib) :
    (m.bindings.values.filter fun o' => o' ≠ o).countP
        (fun o' => (w.act (.dlclose lib)).home o' = some lib') ≤
      (w.act (.dlclose lib)).refs lib' := by
  rw [World.countP_home_congr fun o' ho' => h.home_erase ho hhome ho']
  by_cases hl : lib' = lib
  · subst hl
    have hcount := h.counted_erase ho hhome
    rw [World.dlclose_refs_self]
    omega
  · rw [World.dlclose_refs_of_ne w hl]
    exact le_trans List.filter_sublist.countP_le (h.counted lib')

theorem stored_erase (h : Sound m w) {name : String} {o : Obj}
    (hname : m.bindingsByName.lookup name = some o) {o' : Obj}
    (ho' : o' ∈ (m.eraseBinding name o).named) :
    o' ∈ m.bindings.values.filter fun o' => o' ≠ o := by
  obtain ⟨hin,hne⟩ := (Manager.mem_named_erase h.named_nodup hname).mp ho'
  exact List.mem_filter.mpr ⟨h.stored o' hin,by simpa using hne⟩

theorem erase (h : Sound m w) {name : String} {o : Obj} {lib : Lib}
    (hname : m.bindingsByName.lookup name = some o) (hlib : m.libraryHandles.lookup name = some lib)
    (hhome : w.home o = some lib) :
    Sound ((m.eraseBinding name o).closeHandle name).1 (w.act (.dlclose lib)) := by
  have ho := h.stored o (Manager.mem_named.mpr ⟨name,hname⟩)
  have hvalues := m.eraseBinding_values name o
  have hold : ∀ o', o' ∈ (m.eraseBinding name o).bindings.values → o' ∈ m.bindings.values := by
    intro o' ho'
    rw [hvalues] at ho'
    exact (List.mem_filter.mp ho').1
  rw [Manager.closeHandle_erase hlib]
  refine ⟨?_,Manager.nodup_named_erase h.named_nodup name o,fun o' ho' => h.below o' (hold o' ho'),
    fun o' ho' => ?_,fun name' o' hname' => ?_,fun name' hname' => ?_,fun o' ho' => ?_,
    fun lib' => ?_⟩
  · rw [hvalues]
    exact h.values_nodup.filter _
  · rw [hvalues]
    exact h.stored_erase hname ho'
  · have hin := h.stored_erase hname (Manager.mem_named.mpr ⟨name',hname'⟩)
    have hname' : (m.bindingsByName.erase name).lookup name' = some o' := hname'
    have hne : name' ≠ name := by
      rintro rfl
      rw [AList.lookup_erase] at hname'
      cases hname'
    rw [AList.lookup_erase_ne hne] at hname'
    obtain ⟨lib',hlib',hhome'⟩ := h.handled name' o' hname'
    exact ⟨lib',(AList.lookup_erase_ne hne).trans hlib',(h.home_erase ho hhome hin).trans hhome'⟩
  · have hname' : name' ∈ m.libraryHandles.erase name := hname'
    show name' ∈ m.bindingsByName.erase name
    rw [AList.mem_erase] at hname' ⊢
    exact hname'.imp_right (h.owned name')
  · have hin := hold o' ho'
    rw [hvalues] at ho'
    rw [h.home_erase ho hhome ho']
    exact h.mapped o' hin
  · show (m.eraseBinding name o).bindings.values.countP _ ≤ _
    rw [hvalues]
    exact h.counted_close ho hhome lib'

theorem dropped_erase (h : Sound m w) {name : String} {o : Obj}
    (hname : m.bindingsByName.lookup name = some o) :
    (m.eraseBinding name o).dropped [o] = [.destroy o] := by
  have hfree : (m.eraseBinding name o).holds o = false := by
    apply decide_eq_false
    rw [Manager.eraseBinding_values,Manager.mem_named_erase h.named_nodup hname]
    simp
  simp [Manager.dropped,hfree]

/-- `UnloadBinding` destroys before it closes. -/
theorem unloadBinding (h : Sound m w) (name : String) :
    Sound (m.unloadBinding name).2.1 (w.run (m.unloadBinding name).2.2) ∧
    w.safe (m.unloadBinding name).2.2 = true := by
  unfold Manager.unloadBinding
  cases hname : m.bindingsByName.lookup name with
  | none => exact ⟨h,rfl⟩
  | some o =>
    obtain ⟨lib,hlib,hhome⟩ := h.handled name o hname
    have hlog : ((m.eraseBinding name o).closeHandle name).2 = [.dlclose lib] := by
      rw [Manager.closeHandle_erase hlib]
    simp only [hlog,h.dropped_erase hname]
    exact ⟨h.erase hname hlib hhome,by simp [World.safe,World.allowed,World.act,hhome]⟩

/-- `ReloadConfiguration` closes before the last reference goes. -/
theorem remove (h : Sound m w) (name : String) :
    Sound (m.remove name).1 (w.run (m.remove name).2) ∧
    (w.safe (m.remove name).2 = true ↔
      ∀ lib, m.libraryHandles.lookup name = some lib → 1 < w.refs lib) := by
  unfold Manager.remove
  cases hname : m.bindingsByName.lookup name with
  | none =>
    have hnone : m.libraryHandles.lookup name = none := by
      rw [AList.lookup_eq_none] at hname ⊢
      exact fun hin => hname (h.owned name hin)
    exact ⟨h,by simp [hnone,World.safe]⟩
  | some o =>
    obtain ⟨lib,hlib,hhome⟩ := h.handled name o hname
    have hlog : ((m.eraseBinding name o).closeHandle name).2 = [.dlclose lib] := by
      rw [Manager.closeHandle_erase hlib]
    have hdropped : ((m.eraseBinding name o).closeHandle name).1.dropped [o] = [.destroy o] := by
      rw [Manager.closeHandle_erase hlib]
      exact h.dropped_erase hname
    simp only [hlog,hdropped]
    refine ⟨h.erase hname hlib hhome,?_⟩
    simp [World.safe,World.allowed,World.act,hhome,hlib]

theorem add (h : Sound m w) (config : BindingConfig) (outcome : LoadOutcome) :
    Sound (m.add config outcome).1 (w.run (m.add config outcome).2) ∧
    (w.safe (m.add config outcome).2 = true ↔
      (config.name ∉ m.bindingsByName → outcome.StaysOpen w)) := by
  unfold Manager.add
  split
  · rename_i hname
    exact ⟨h,iff_of_true rfl fun hnew => absurd (AList.lookup_isSome.mp hname) hnew⟩
  · rename_i hname
    have hname : config.name ∉ m.bindingsByName := by rwa [AList.lookup_isSome] at hname
    obtain ⟨hopen,lib,as,heq,hrun,hsafe⟩ | ⟨e,m',as,heq,hsound,hsafe⟩ := h.openBinding outcome
    · have hstore := h.store config lib
      simp only [heq,h.store_log config,World.run_append,World.safe_append,hrun,hsafe]
      exact ⟨hstore,by simp [hopen,World.safe,World.allowed]⟩
    · simp only [heq]
      exact ⟨hsound,by rw [hsafe]; exact ⟨fun hopen _ => hopen,fun hopen => hopen hname⟩⟩

theorem loadBinding (h : Sound m w) (config : BindingConfig) (outcome : LoadOutcome) :
    Sound (m.loadBinding config outcome).2.1 (w.run (m.loadBinding config outcome).2.2) ∧
    (w.safe (m.loadBinding config outcome).2.2 = true ↔ outcome.StaysOpen w) := by
  unfold Manager.loadBinding
  obtain ⟨hopen,lib,as,heq,hrun,hsafe⟩ | ⟨e,m',as,heq,hsound,hsafe⟩ := h.openBinding outcome
  · have hstore := h.store config lib
    simp only [heq,h.store_log config,World.run_append,World.safe_append,hrun,hsafe]
    exact ⟨hstore,by simp [hopen,World.safe,World.allowed]⟩
  · simp only [heq]
    exact ⟨hsound,hsafe⟩

theorem home_of_open (h : Sound m w) {libs : List Lib} (hlibs : libs.Perm m.handles)
    (hopen : ∀ lib, lib ∈ m.handles → m.handles.count lib < w.refs lib) {o : Obj}
    (ho : o ∈ m.bindings.values) : ((w.run (libs.map .dlclose)).home o).isSome = true := by
  obtain ⟨lib,hhome⟩ := h.mapped o ho
  rw [World.run_dlclose_home w libs hhome,hlibs.count_eq,if_neg]
  · rfl
  · rintro ⟨hpos,hlast⟩
    exact absurd (hopen lib (List.count_pos_iff.mp hpos)) (Nat.not_lt.mpr hlast)

theorem named_of_handle (h : Sound m w) {lib : Lib} (hlib : lib ∈ m.handles) :
    ∃ o, o ∈ m.named ∧ w.home o = some lib := by
  obtain ⟨⟨name,lib⟩,hentry,rfl⟩ := List.mem_map.mp hlib
  have hlookup := AList.mem_lookup_iff.mpr hentry
  have hin : name ∈ m.libraryHandles :=
    AList.lookup_isSome.mp (Option.isSome_iff_exists.mpr ⟨lib,hlookup⟩)
  obtain ⟨o,hname⟩ := Option.isSome_iff_exists.mp (AList.lookup_isSome.mpr (h.owned name hin))
  obtain ⟨lib',hlib',hhome⟩ := h.handled name o hname
  rw [hlookup] at hlib'
  cases hlib'
  exact ⟨o,Manager.mem_named.mpr ⟨name,hname⟩,hhome⟩

theorem open_of_home (h : Sound m w) {libs : List Lib} (hlibs : libs.Perm m.handles)
    (hnamed : ∀ o, o ∈ m.named → ((w.run (libs.map .dlclose)).home o).isSome = true) {lib : Lib}
    (hlib : lib ∈ m.handles) : m.handles.count lib < w.refs lib := by
  obtain ⟨o,ho,hhome⟩ := h.named_of_handle hlib
  have hopen := hnamed o ho
  rw [World.run_dlclose_home w libs hhome,hlibs.count_eq] at hopen
  by_contra hlast
  rw [if_pos ⟨List.count_pos_iff.mpr hlib,Nat.le_of_not_lt hlast⟩] at hopen
  cases hopen

/-- `Shutdown` closes all handles before the containers are cleared. -/
theorem shutdown (h : Sound m w) (iteration : Iteration) :
    Sound (m.shutdown iteration).2.1 (w.run (m.shutdown iteration).2.2) ∧
    (w.safe (m.shutdown iteration).2.2 = true ↔
      ∀ lib, lib ∈ m.handles → m.handles.count lib < w.refs lib) := by
  refine ⟨cleared _ _,?_⟩
  have hobjs := Manager.lookups_perm m.bindingsByName iteration
  have hlibs := Manager.lookups_perm m.libraryHandles iteration
  simp only [Manager.shutdown]
  generalize (iteration.order m.bindingsByName.keys).filterMap m.bindingsByName.lookup = objs
    at hobjs
  generalize (iteration.order m.libraryHandles.keys).filterMap m.libraryHandles.lookup = libs
    at hlibs
  have hcalls : ∀ a, a ∈ Action.lock :: objs.map .shutdown → w.act a = w ∧ w.allowed a = true := by
    intro a ha
    simp only [List.mem_cons,List.mem_map] at ha
    obtain rfl | ⟨o,ho,rfl⟩ := ha
    · exact ⟨rfl,rfl⟩
    · obtain ⟨lib,hlib⟩ := h.mapped o (h.stored o (hobjs.mem_iff.mp ho))
      exact ⟨rfl,by simp [World.allowed,hlib]⟩
  have hfirst : w.safe (.lock :: objs.map .shutdown) = true := by
    rw [World.safe_calls w fun a ha => (hcalls a ha).1]
    exact List.all_eq_true.mpr fun a ha => (hcalls a ha).2
  have hrun : w.run (.lock :: objs.map .shutdown) = w := w.run_calls fun a ha => (hcalls a ha).1
  simp only [World.safe_append,World.run_append,hrun,hfirst,World.safe_dlclose,World.run_destroys,
    World.safe_destroys]
  simp only [Bool.true_and,Bool.and_eq_true,List.all_eq_true,List.mem_dedup,List.mem_filter]
  constructor
  · rintro ⟨⟨_,hnamed⟩,_⟩ lib hlib
    exact h.open_of_home hlibs (fun o ho => hnamed o (hobjs.mem_iff.mpr ho)) hlib
  · intro hopen
    have hstays : ∀ o, o ∈ m.bindings.values →
        ((w.run (libs.map .dlclose)).home o).isSome = true :=
      fun o ho => h.home_of_open hlibs hopen ho
    exact ⟨⟨fun o ho => hstays o ho.1,fun o ho => hstays o (h.stored o (hobjs.mem_iff.mp ho))⟩,rfl⟩

end Sound

def Manager.Task.StaysOpen (m : Manager) (w : World) : Manager.Task → Prop
  | .remove name => ∀ lib, m.libraryHandles.lookup name = some lib → 1 < w.refs lib
  | .add config outcome => config.name ∉ m.bindingsByName → outcome.StaysOpen w

def Manager.TasksStayOpen (m : Manager) (w : World) : List Manager.Task → Prop
  | [] => True
  | task :: tasks =>
    task.StaysOpen m w ∧ TasksStayOpen (task.exec m).1 (w.run (task.exec m).2) tasks

/-- The operation closes no last handle too early: a failed `Initialize` or a reload
only closes handles of libraries that are open once more, and at `Shutdown` every
library with a handle in the table has been opened more often than that. -/
def Op.StaysOpen (m : Manager) (w : World) : Op → Prop
  | .registerBinding _ _ => True
  | .loadBinding _ outcome => outcome.StaysOpen w
  | .unloadBinding _ => True
  | .reloadConfiguration file iteration outcomes =>
    ∀ configs, (parseYamlConfig file).2 = some configs →
      (m.pushMappings file).TasksStayOpen w (m.tasks configs iteration outcomes)
  | .shutdown _ => ∀ lib, lib ∈ m.handles → m.handles.count lib < w.refs lib

def Op.plugin : Op → Bool
  | .registerBinding _ _ => false
  | _ => true

namespace Sound

variable {m : Manager} {w : World}

theorem runTasks (h : Sound m w) (tasks : List Manager.Task) :
    Sound (m.runTasks tasks).1 (w.run (m.runTasks tasks).2) ∧
    (w.safe (m.runTasks tasks).2 = true ↔ m.TasksStayOpen w tasks) := by
  induction tasks generalizing m w with
  | nil => exact ⟨h,iff_of_true rfl trivial⟩
  | cons task tasks ih =>
    have htask : Sound (task.exec m).1 (w.run (task.exec m).2) ∧
        (w.safe (task.exec m).2 = true ↔ task.StaysOpen m w) := by
      cases task with
      | remove name => exact h.remove name
      | add config outcome => exact h.add config outcome
    obtain ⟨hsound,hsafe⟩ := ih htask.1
    simp only [Manager.runTasks,World.run_append,World.safe_append,Bool.and_eq_true]
    exact ⟨hsound,and_congr htask.2 hsafe⟩

theorem reloadConfiguration (h : Sound m w) (file : Option Document) (iteration : Iteration)
    (outcomes : Nat → LoadOutcome) :
    Sound (m.reloadConfiguration file iteration outcomes).2.1
      (w.run (m.reloadConfiguration file iteration outcomes).2.2) ∧
    (w.safe (m.reloadConfiguration file iteration outcomes).2.2 = true ↔
      (Op.reloadConfiguration file iteration outcomes).StaysOpen m w) := by
  have hmapped : Sound (m.pushMappings file) w :=
    ⟨h.values_nodup,h.named_nodup,h.below,h.stored,h.handled,h.owned,h.mapped,h.counted⟩
  simp only [Manager.reloadConfiguration,Op.StaysOpen]
  cases (parseYamlConfig file).2 with
  | none => exact ⟨hmapped,by simp [World.safe]⟩
  | some configs =>
    obtain ⟨hsound,hsafe⟩ :=
      hmapped.runTasks ((m.pushMappings file).tasks configs iteration outcomes)
    refine ⟨?_,?_⟩
    · rw [World.run_append]
      exact hsound
    · rw [World.safe_append]
      have hunlock : ∀ w : World, w.safe [.unlock] = true := fun _ => rfl
      rw [hunlock,Bool.and_true]
      refine Iff.trans hsafe ⟨?_,fun htasks => htasks configs rfl⟩
      rintro htasks _ ⟨⟩
      exact htasks

theorem exec (h : Sound m w) {op : Op} (hop : op.plugin = true) :
    Sound (op.exec m).2.1 (w.run (op.exec m).2.2) ∧
    (w.safe (op.exec m).2.2 = true ↔ op.StaysOpen m w) := by
  cases op with
  | registerBinding config given => cases hop
  | loadBinding config outcome => exact h.loadBinding config outcome
  | unloadBinding name =>
    obtain ⟨hsound,hsafe⟩ := h.unloadBinding name
    exact ⟨hsound,iff_of_true hsafe trivial⟩
  | reloadConfiguration file iteration outcomes =>
    exact h.reloadConfiguration file iteration outcomes
  | shutdown iteration => exact h.shutdown iteration

end Sound

def State.world (s : State) : World := World.initial.run s.log

theorem State.next_world (s : State) (op : Op) :
    (s.next op).world = s.world.run (op.exec s.manager).2.2 := World.run_append ..

theorem Sound.reached {σ : Nat → Op} (hσ : ∀ k, (σ k).plugin = true) (n : Nat) :
    Sound (stateAt State.next .initial σ n).manager (stateAt State.next .initial σ n).world := by
  refine stateAt_invariant (I := fun s : State => Sound s.manager s.world)
    (C := fun _ op => op.plugin = true) (Sound.cleared 0 World.initial) (fun k _ => hσ k)
    (fun s op h hop => ?_) n (Nat.le_refl n)
  rw [State.next_world]
  exact (h.exec hop).1

/-- Over every run: no code of an unmapped library is ever called exactly when no
operation closes the last handle of a library that it still calls into. -/
theorem plugin_lifetime_iff (σ : Nat → Op) (n : Nat) (hσ : ∀ k, (σ k).plugin = true) :
    World.initial.safe (stateAt State.next .initial σ n).log = true ↔
    ∀ k, k < n → (σ k).StaysOpen (stateAt State.next .initial σ k).manager
      (stateAt State.next .initial σ k).world := by
  induction n with
  | zero => exact iff_of_true rfl fun k hk => absurd hk (Nat.not_lt_zero k)
  | succ n ih =>
    have hexec := ((Sound.reached hσ n).exec (hσ n)).2
    rw [Nat.forall_lt_succ_right,← ih,← hexec,stateAt_succ]
    show World.initial.safe (_++_) = true ↔ _
    rw [World.safe_append,Bool.and_eq_true]
    rfl

def ddsConfig : BindingConfig := ⟨"dds","libdds.so",BindingPriority.dds,true⟩

def loads (initError : Option Nat) : LoadOutcome := ⟨some 0,true,true,initError⟩

def loadUnload : Nat → Op :=
  schedule [.loadBinding ddsConfig (loads none)] (.unloadBinding "dds")

theorem plugin_lifetime_iff_load_unload :
    World.initial.safe (stateAt State.next .initial loadUnload 2).log = true ↔
    ∀ k, k < 2 → (loadUnload k).StaysOpen (stateAt State.next .initial loadUnload k).manager
      (stateAt State.next .initial loadUnload k).world := by
  refine plugin_lifetime_iff loadUnload 2 ?_
  refine schedule_forall (Q := fun op : Op => op.plugin = true) ?_ rfl
  intro op hop
  obtain rfl := List.mem_singleton.mp hop
  rfl

/-- A failed `Initialize`, and `Shutdown` with a loaded plugin. -/
theorem destroyed_after_dlclose :
    World.initial.safe (State.initial.next (.loadBinding ddsConfig (loads (some 1)))).log = false ∧
    World.initial.safe ((State.initial.next (.loadBinding ddsConfig (loads none))).next
      (.shutdown ⟨id,fun _ => List.Perm.refl _⟩)).log = false := by
  decide +kernel

end LapCom.Binding
