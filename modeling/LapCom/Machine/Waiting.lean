import Mathlib.Order.WellFoundedSet

set_option autoImplicit false

/-! Threads that wait for each other's locks. -/

namespace LapCom.Machine
open Relation

section Waiting
variable {T L : Type*} {owner : L → Option T} {wants : T → Option L}

/-- `t` cannot go on before `u` gives a lock back. -/
def WaitsFor (owner : L → Option T) (wants : T → Option L) (t u : T) : Prop :=
  ∃ l, wants t = some l ∧ owner l = some u

theorem waits_in_order {R : L → L → Prop}
    (horder : ∀ t l m, owner l = some t → wants t = some m → R l m) {t u : T} {l : L}
    (h : TransGen (WaitsFor owner wants) t u) (ht : wants t = some l) :
    ∃ m, owner m = some u ∧ ReflTransGen R l m := by
  induction h with
  | single h =>
    obtain ⟨m,hm,howner⟩ := h
    obtain rfl := Option.some.inj (ht.symm.trans hm)
    exact ⟨l,howner,.refl⟩
  | tail _ h ih =>
    obtain ⟨k,hk,hpath⟩ := ih
    obtain ⟨m,hm,howner⟩ := h
    exact ⟨m,howner,hpath.tail (horder _ k m hk hm)⟩

theorem no_cycle_of_order {R : L → L → Prop} (hR : ∀ l, ¬ TransGen R l l)
    (horder : ∀ t l m, owner l = some t → wants t = some m → R l m) (t : T) :
    ¬ TransGen (WaitsFor owner wants) t t := by
  intro h
  have hwants : ∃ l, wants t = some l := by
    obtain ⟨u,⟨l,hl,_⟩,_⟩ := TransGen.head'_iff.mp h
    exact ⟨l,hl⟩
  obtain ⟨l,hl⟩ := hwants
  obtain ⟨m,hm,hpath⟩ := waits_in_order horder h hl
  exact hR l (TransGen.tail' hpath (horder t m l hm hl))

/-- Where the locks that the threads want come after those that they have, in an order without a
cycle, some thread finds the lock that it wants free. -/
theorem exists_free {R : L → L → Prop} (hR : ∀ l, ¬ TransGen R l l)
    (horder : ∀ t l m, owner l = some t → wants t = some m → R l m) {busy : Set T}
    (hfinite : busy.Finite) (howners : ∀ l t, owner l = some t → t ∈ busy)
    (hbusy : busy.Nonempty) : ∃ t, t ∈ busy ∧ ∀ l, wants t = some l → owner l = none := by
  have hirrefl := no_cycle_of_order hR horder
  let waits : T → T → Prop := fun t u => TransGen (WaitsFor owner wants) u t
  have hstrict : IsStrictOrder T waits :=
    { irrefl := hirrefl, trans := fun _ _ _ htu huv => huv.trans htu }
  obtain ⟨⟨t,ht⟩,_,hmin⟩ := (hfinite.wellFoundedOn (r := waits)).has_min Set.univ
    ⟨⟨_,hbusy.some_mem⟩,trivial⟩
  refine ⟨t,ht,fun l hl => ?_⟩
  cases hu : owner l with
  | none => rfl
  | some u => exact absurd (.single ⟨l,hl,hu⟩) (hmin ⟨u,howners l u hu⟩ trivial)

/-- Threads that wait for one another only. -/
def Knot (owner : L → Option T) (wants : T → Option L) (K : Set T) : Prop :=
  ∀ t, t ∈ K → ∃ u, u ∈ K ∧ WaitsFor owner wants t u

/-- A cycle lies in a finite set where each member has a successor. -/
theorem exists_closed_of_cycle {A : Type*} {R : A → A → Prop} {a : A} (h : TransGen R a a) :
    ∃ as : List A, a ∈ as ∧ ∀ x, x ∈ as → ∃ y, y ∈ as ∧ R x y := by
  have hpath : ∀ b, TransGen R a b →
      ∃ as : List A, a ∈ as ∧ ∀ x, x ∈ as → ∃ y, (y ∈ as ∨ y = b) ∧ R x y := by
    intro b h
    induction h with
    | single h =>
      refine ⟨[a],List.mem_singleton_self a,fun x hx => ⟨_,.inr rfl,?_⟩⟩
      rw [List.mem_singleton.mp hx]
      exact h
    | @tail b c _ h ih =>
      obtain ⟨as,ha,hnext⟩ := ih
      refine ⟨b :: as,List.mem_cons_of_mem b ha,fun x hx => ?_⟩
      rcases List.mem_cons.mp hx with rfl | hx
      · exact ⟨c,.inr rfl,h⟩
      · obtain ⟨y,hy,hxy⟩ := hnext x hx
        exact ⟨y,.inl (List.mem_cons.mpr hy.symm),hxy⟩
  obtain ⟨as,ha,hnext⟩ := hpath a h
  refine ⟨as,ha,fun x hx => ?_⟩
  obtain ⟨y,hy | rfl,hxy⟩ := hnext x hx
  · exact ⟨y,hy,hxy⟩
  · exact ⟨y,ha,hxy⟩

end Waiting

end LapCom.Machine
