import Mathlib.Data.List.Count

set_option autoImplicit false

/-! What is acquired and released under keys, and the items that hold it in between. -/

namespace LapCom.Kernel

/-- The keys under which something was acquired, and those under which it was released. -/
structure Work (K : Type) where
  acquired : List K
  released : List K

namespace Work
variable {K : Type}

def nothing : Work K := ⟨[],[]⟩

def followedBy (v w : Work K) : Work K := ⟨v.acquired ++ w.acquired,v.released ++ w.released⟩

end Work

structure Account (K A : Type) where
  items : List A
  work : Work K

section Account
variable {K A : Type} [DecidableEq K] (holds : K → A → Bool)

/-- Each thing that was acquired has been released, or there is an item that holds it. -/
def Account.Balanced (a : Account K A) : Prop :=
  ∀ y, a.work.acquired.count y = a.work.released.count y+a.items.countP (holds y)

def Conserves (work : Work K) (before after : List A) : Prop :=
  ∀ y, work.acquired.count y+before.countP (holds y) =
    work.released.count y+after.countP (holds y)

variable {holds}

theorem Account.balanced_nil : Account.Balanced holds ⟨([] : List A),.nothing⟩ := by
  intro y
  simp [Work.nothing]

/-- Where some of the items become others, the account stays balanced just where the work conserves
what they hold. -/
theorem Account.Balanced.change_iff {a a' : Account K A} {work : Work K} {before after : List A}
    (h : a.Balanced holds) (hwork : a'.work = a.work.followedBy work)
    (hitems : ∀ p : A → Bool, a'.items.countP p+before.countP p = a.items.countP p+after.countP p) :
    a'.Balanced holds ↔ Conserves holds work before after := by
  refine forall_congr' fun y => ?_
  have hy := h y
  have hp := hitems (holds y)
  rw [hwork,Work.followedBy]
  simp only [List.count_append]
  omega

omit [DecidableEq K] in
theorem countP_set {l : List A} {i : Nat} {x : A} (h : l[i]? = some x) (x' : A) (p : A → Bool) :
    (l.set i x').countP p+[x].countP p = l.countP p+[x'].countP p := by
  obtain ⟨hi,rfl⟩ := List.getElem?_eq_some_iff.mp h
  have hle := List.boole_getElem_le_countP (p := p) hi
  rw [List.countP_set hi,List.countP_singleton,List.countP_singleton]
  omega

omit [DecidableEq K] in
theorem countP_pair (u v : A) (p : A → Bool) : [u,v].countP p = [u].countP p+[v].countP p :=
  by simp [List.countP_cons,Nat.add_comm]

omit [DecidableEq K] in
theorem countP_set_set {l : List A} {i j : Nat} {x z : A} (hij : i ≠ j) (hi : l[i]? = some x)
    (hj : l[j]? = some z) (x' z' : A) (p : A → Bool) :
    ((l.set i x').set j z').countP p+[x,z].countP p = l.countP p+[x',z'].countP p := by
  have hfirst := countP_set hi x' p
  have hsecond := countP_set (l := l.set i x') (by rw [List.getElem?_set_ne hij,hj]) z' p
  rw [countP_pair,countP_pair]
  omega

end Account

end LapCom.Kernel
