import Mathlib.Data.List.Perm.Basic
import Mathlib.Logic.Function.Basic

set_option autoImplicit false

namespace LapCom.Kernel

/-- Resources that are numbered as they are acquired; `releases` counts how often each has been
released. -/
structure Ledger where
  acquired : Nat
  releases : Nat → Nat

namespace Ledger

def initial : Ledger := ⟨0,fun _ => 0⟩

def acquire (l : Ledger) : Ledger := { l with acquired := l.acquired+1 }

def release (l : Ledger) (x : Nat) : Ledger :=
  { l with releases := Function.update l.releases x (l.releases x+1) }

def releaseAll (l : Ledger) (xs : List Nat) : Ledger := xs.foldl release l

/-- Those of the list are held and have not been released. Every other one that was acquired
has been released once. -/
structure Holds (l : Ledger) (held : List Nat) : Prop where
  nodup : held.Nodup
  bound : ∀ x, x ∈ held → x < l.acquired
  unreleased : ∀ x, x ∈ held → l.releases x = 0
  released : ∀ x, x < l.acquired → x ∉ held → l.releases x = 1
  fresh : ∀ x, l.acquired ≤ x → l.releases x = 0

namespace Holds
variable {l : Ledger} {held held' : List Nat} {x : Nat}

theorem initial : Holds .initial [] :=
  ⟨by simp,by simp,by simp,by simp [Ledger.initial],fun _ _ => rfl⟩

theorem once (h : Holds l held) (x : Nat) : l.releases x ≤ 1 := by
  by_cases hx : x < l.acquired
  · by_cases hheld : x ∈ held
    · have hzero := h.unreleased x hheld
      omega
    · exact Nat.le_of_eq (h.released x hx hheld)
  · have hzero := h.fresh x (by omega)
    omega

theorem perm (h : Holds l held) (hperm : held.Perm held') : Holds l held' :=
  ⟨hperm.nodup_iff.mp h.nodup,fun x hx => h.bound x (hperm.mem_iff.mpr hx),
    fun x hx => h.unreleased x (hperm.mem_iff.mpr hx),
    fun x hx hheld => h.released x hx fun hx' => hheld (hperm.mem_iff.mp hx'),h.fresh⟩

theorem acquire (h : Holds l held) : Holds l.acquire (l.acquired :: held) := by
  have hnew : l.acquired ∉ held := fun hx => Nat.lt_irrefl _ (h.bound _ hx)
  refine ⟨List.nodup_cons.mpr ⟨hnew,h.nodup⟩,?_,?_,?_,?_⟩
  · intro x hx
    rcases List.mem_cons.mp hx with rfl | hx
    · exact Nat.lt_succ_self _
    · exact Nat.lt_succ_of_lt (h.bound x hx)
  · intro x hx
    rcases List.mem_cons.mp hx with rfl | hx
    · exact h.fresh _ (Nat.le_refl _)
    · exact h.unreleased x hx
  · intro x hx hheld
    obtain ⟨hne,hheld⟩ := not_or.mp fun hor => hheld (List.mem_cons.mpr hor)
    have hlt : x < l.acquired+1 := hx
    exact h.released x (by omega) hheld
  · intro x hx
    have hle : l.acquired+1 ≤ x := hx
    exact h.fresh x (by omega)

theorem release (h : Holds l (x :: held)) : Holds (l.release x) held := by
  obtain ⟨hx,hnodup⟩ := List.nodup_cons.mp h.nodup
  have hne : ∀ y, y ≠ x → (l.release x).releases y = l.releases y :=
    fun y hy => Function.update_of_ne hy _ _
  have hlt : x < l.acquired := h.bound x List.mem_cons_self
  refine ⟨hnodup,fun y hy => h.bound y (List.mem_cons_of_mem x hy),?_,?_,?_⟩
  · intro y hy
    rw [hne y (by rintro rfl; exact hx hy)]
    exact h.unreleased y (List.mem_cons_of_mem x hy)
  · intro y hy hheld
    by_cases hyx : y = x
    · subst hyx
      have hzero := h.unreleased y List.mem_cons_self
      simp [Ledger.release,hzero]
    · rw [hne y hyx]
      refine h.released y hy fun hmem => ?_
      exact (List.mem_cons.mp hmem).elim hyx hheld
  · intro y hy
    have hle : l.acquired ≤ y := hy
    rw [hne y (by omega)]
    exact h.fresh y hle

theorem failed (h : Holds l held) : Holds (l.acquire.release l.acquired) held := h.acquire.release

theorem lost {l' : Ledger} (h : Holds l held) (hx : x ∈ held) (hacquired : l.acquired ≤ l'.acquired)
    (hreleases : l'.releases x = l.releases x) (hdropped : x ∉ held') : ¬ Holds l' held' := by
  intro h'
  have hlt := h.bound x hx
  have hzero := h.unreleased x hx
  have hone := h'.released x (by omega) hdropped
  omega

theorem releaseAll {xs : List Nat} (h : Holds l (xs++held)) : Holds (l.releaseAll xs) held := by
  induction xs generalizing l with
  | nil => exact h
  | cons x xs ih => exact ih (release h)

end Holds

/-- What one of several holders has, apart from what the others have. -/
theorem flatMap_update_perm {I : Type} [DecidableEq I] {l : List I} (hl : l.Nodup) {i : I}
    (hi : i ∈ l) (f : I → List Nat) :
    ∃ rest, ∀ v, (l.flatMap (Function.update f i v)).Perm (v ++ rest) := by
  obtain ⟨a,b,rfl⟩ := List.append_of_mem hi
  obtain ⟨_,hb,hdisjoint⟩ := List.nodup_append.mp hl
  have hother : ∀ m : List I, i ∉ m → ∀ v, m.flatMap (Function.update f i v) = m.flatMap f := by
    intro m hm v
    refine List.flatMap_congr fun j hj => ?_
    have hne : j ≠ i := fun h => hm (h ▸ hj)
    exact Function.update_of_ne hne v f
  have hia : i ∉ a := fun h => hdisjoint i h i List.mem_cons_self rfl
  refine ⟨a.flatMap f ++ b.flatMap f,fun v => ?_⟩
  rw [List.flatMap_append,List.flatMap_cons,Function.update_self,hother a hia,
    hother b (List.nodup_cons.mp hb).1]
  exact List.perm_append_comm_assoc _ _ _

end Ledger

end LapCom.Kernel
