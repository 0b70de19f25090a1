import Mathlib.Logic.Function.Basic

set_option autoImplicit false

namespace LapCom.Kernel

/-- The open descriptors of a process. Connections are numbered as they are accepted; `closes`
counts how often each has been closed. A closed descriptor may be given out again. -/
structure Descriptors where
  owner : Nat → Option Nat
  accepted : Nat
  closes : Nat → Nat

namespace Descriptors

def initial : Descriptors := ⟨fun _ => none,0,fun _ => 0⟩

def accept (d : Descriptors) (fd : Nat) : Descriptors :=
  { d with owner := Function.update d.owner fd (some d.accepted), accepted := d.accepted+1 }

def close (d : Descriptors) (fd : Nat) : Descriptors :=
  match d.owner fd with
  | none => d
  | some x =>
    { d with
      owner := Function.update d.owner fd none
      closes := Function.update d.closes x (d.closes x+1) }

structure Valid (d : Descriptors) : Prop where
  bound : ∀ fd x, d.owner fd = some x → x < d.accepted
  injective : ∀ fd fd' x, d.owner fd = some x → d.owner fd' = some x → fd = fd'
  opened : ∀ x, x < d.accepted → d.closes x = 0 → ∃ fd, d.owner fd = some x
  unclosed : ∀ fd x, d.owner fd = some x → d.closes x = 0
  fresh : ∀ x, d.accepted ≤ x → d.closes x = 0
  once : ∀ x, d.closes x ≤ 1

@[simp] theorem accept_owner_self (d : Descriptors) (fd : Nat) :
    (d.accept fd).owner fd = some d.accepted :=
  Function.update_self fd _ _

theorem accept_owner_of_ne (d : Descriptors) {fd a : Nat} (h : a ≠ fd) :
    (d.accept fd).owner a = d.owner a :=
  Function.update_of_ne h _ _

/-- A descriptor that is open keeps its connection when another one is given out. -/
theorem accept_owner_of_some {d : Descriptors} {fd a x : Nat} (hfree : d.owner fd = none)
    (ha : d.owner a = some x) : a ≠ fd ∧ (d.accept fd).owner a = some x := by
  have hne : a ≠ fd := by
    rintro rfl
    rw [hfree] at ha
    cases ha
  exact ⟨hne,(d.accept_owner_of_ne hne).trans ha⟩

theorem close_of_none {d : Descriptors} {fd : Nat} (h : d.owner fd = none) : d.close fd = d := by
  rw [close,h]

theorem close_of_some {d : Descriptors} {fd x : Nat} (h : d.owner fd = some x) :
    d.close fd =
      { d with
        owner := Function.update d.owner fd none
        closes := Function.update d.closes x (d.closes x+1) } := by
  rw [close,h]

@[simp] theorem close_accepted (d : Descriptors) (fd : Nat) :
    (d.close fd).accepted = d.accepted := by
  cases h : d.owner fd with
  | none => rw [close_of_none h]
  | some x => rw [close_of_some h]

@[simp] theorem close_owner_self (d : Descriptors) (fd : Nat) : (d.close fd).owner fd = none := by
  cases h : d.owner fd with
  | none => rw [close_of_none h,h]
  | some x => simp [close_of_some h]

theorem close_owner_of_ne (d : Descriptors) {fd a : Nat} (h : a ≠ fd) :
    (d.close fd).owner a = d.owner a := by
  cases ho : d.owner fd with
  | none => rw [close_of_none ho]
  | some x => simp [close_of_some ho,h]

theorem close_owner_of_some {d : Descriptors} {fd a x y : Nat} (hfd : d.owner fd = some x)
    (ha : d.owner a = some y) (hne : y ≠ x) : (d.close fd).owner a = some y := by
  have hafd : a ≠ fd := by
    rintro rfl
    rw [hfd] at ha
    exact hne (Option.some.inj ha).symm
  exact (d.close_owner_of_ne hafd).trans ha

theorem close_closes_self {d : Descriptors} {fd x : Nat} (h : d.owner fd = some x) :
    (d.close fd).closes x = d.closes x+1 := by
  simp [close_of_some h]

theorem close_closes_of_ne {d : Descriptors} {fd x y : Nat} (h : d.owner fd = some x)
    (hy : y ≠ x) : (d.close fd).closes y = d.closes y := by
  simp [close_of_some h,hy]

namespace Valid
variable {d : Descriptors}

theorem initial : Descriptors.initial.Valid :=
  { bound := nofun
    injective := nofun
    opened := nofun
    unclosed := fun _ _ _ => rfl
    fresh := fun _ _ => rfl
    once := fun _ => Nat.zero_le 1 }

theorem ne_accepted (h : d.Valid) {fd : Nat} : d.owner fd ≠ some d.accepted := by
  intro howner
  have hlt := h.bound fd d.accepted howner
  omega

theorem accept (h : d.Valid) {fd : Nat} (hfree : d.owner fd = none) : (d.accept fd).Valid := by
  -- the owners are those before and the new connection
  have hcases : ∀ a x, (d.accept fd).owner a = some x →
      (a = fd ∧ x = d.accepted) ∨ (a ≠ fd ∧ d.owner a = some x) := by
    intro a x hx
    by_cases ha : a = fd
    · subst ha
      rw [accept_owner_self] at hx
      exact .inl ⟨rfl,(Option.some.inj hx).symm⟩
    · rw [accept_owner_of_ne d ha] at hx
      exact .inr ⟨ha,hx⟩
  refine ⟨?_,?_,?_,?_,?_,h.once⟩
  · intro a x hx
    rcases hcases a x hx with ⟨_,rfl⟩ | ⟨_,hx⟩
    · exact Nat.lt_succ_self _
    · exact Nat.lt_succ_of_lt (h.bound a x hx)
  · intro a b x ha hb
    rcases hcases a x ha with ⟨rfl,rfl⟩ | ⟨_,hold⟩
    · rcases hcases b _ hb with ⟨rfl,_⟩ | ⟨_,hold⟩
      · rfl
      · exact absurd hold h.ne_accepted
    · rcases hcases b x hb with ⟨rfl,rfl⟩ | ⟨_,hold'⟩
      · exact absurd hold h.ne_accepted
      · exact h.injective a b x hold hold'
  · intro x hx hzero
    rcases Nat.lt_or_eq_of_le (Nat.lt_succ_iff.mp hx) with hx | rfl
    · obtain ⟨a,ha⟩ := h.opened x hx hzero
      exact ⟨a,(accept_owner_of_some hfree ha).2⟩
    · exact ⟨fd,accept_owner_self d fd⟩
  · intro a x hx
    rcases hcases a x hx with ⟨_,rfl⟩ | ⟨_,hx⟩
    · exact h.fresh _ (Nat.le_refl _)
    · exact h.unclosed a x hx
  · intro x hx
    exact h.fresh x (Nat.le_of_succ_le hx)

theorem close (h : d.Valid) (fd : Nat) : (d.close fd).Valid := by
  cases ho : d.owner fd with
  | none => rwa [close_of_none ho]
  | some y =>
    have hcases : ∀ a x, (d.close fd).owner a = some x → a ≠ fd ∧ x ≠ y ∧ d.owner a = some x := by
      intro a x hx
      have ha : a ≠ fd := by
        rintro rfl
        rw [close_owner_self] at hx
        cases hx
      rw [close_owner_of_ne d ha] at hx
      refine ⟨ha,?_,hx⟩
      rintro rfl
      exact ha (h.injective a fd x hx ho)
    refine ⟨?_,?_,?_,?_,?_,?_⟩
    · intro a x hx
      rw [close_accepted]
      exact h.bound a x (hcases a x hx).2.2
    · intro a b x ha hb
      exact h.injective a b x (hcases a x ha).2.2 (hcases b x hb).2.2
    · intro x hx hzero
      rw [close_accepted] at hx
      have hne : x ≠ y := by
        rintro rfl
        rw [close_closes_self ho] at hzero
        omega
      rw [close_closes_of_ne ho hne] at hzero
      obtain ⟨a,ha⟩ := h.opened x hx hzero
      exact ⟨a,close_owner_of_some ho ha hne⟩
    · intro a x hx
      obtain ⟨_,hne,hx⟩ := hcases a x hx
      rw [close_closes_of_ne ho hne]
      exact h.unclosed a x hx
    · intro x hx
      rw [close_accepted] at hx
      have hne : x ≠ y := by
        rintro rfl
        have hlt := h.bound fd x ho
        omega
      rw [close_closes_of_ne ho hne]
      exact h.fresh x hx
    · intro x
      by_cases hx : x = y
      · subst hx
        have hself := close_closes_self ho
        rw [h.unclosed fd x ho] at hself
        exact Nat.le_of_eq hself
      · rw [close_closes_of_ne ho hx]
        exact h.once x

end Valid

end Descriptors

end LapCom.Kernel
