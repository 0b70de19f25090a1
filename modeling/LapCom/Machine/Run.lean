import Mathlib.Data.List.GetD
import Mathlib.Data.Nat.Count
import Mathlib.Tactic.TypeStar

set_option autoImplicit false

namespace LapCom.Machine

/-- The state after `k` events of the schedule `σ`. Every finite run is a
schedule together with the number of its events that are read. -/
def stateAt {S E : Type*} (step : S → E → S) (s : S) (σ : Nat → E) : Nat → S
  | 0 => s
  | k+1 => step (stateAt step s σ k) (σ k)

@[simp] theorem stateAt_zero {S E : Type*} (step : S → E → S) (s : S) (σ : Nat → E) :
    stateAt step s σ 0 = s := rfl

theorem stateAt_succ {S E : Type*} (step : S → E → S) (s : S) (σ : Nat → E) (k : Nat) :
    stateAt step s σ (k+1) = step (stateAt step s σ k) (σ k) := rfl

theorem stateAt_add {S E : Type*} (step : S → E → S) (s : S) (σ : Nat → E) (a k : Nat) :
    stateAt step s σ (a+k) = stateAt step (stateAt step s σ a) (fun j => σ (a+j)) k := by
  induction k with
  | zero => rfl
  | succ k ih => rw [← Nat.add_assoc,stateAt_succ,stateAt_succ,ih]

theorem stateAt_congr {S E : Type*} {step : S → E → S} {s : S} {σ τ : Nat → E} {m : Nat}
    (h : ∀ k, k < m → τ k = σ k) (k : Nat) (hk : k ≤ m) :
    stateAt step s τ k = stateAt step s σ k := by
  induction k with
  | zero => rfl
  | succ k ih => rw [stateAt_succ,stateAt_succ,ih (by omega),h k (by omega)]

def schedule {E : Type*} (es : List E) (d : E) (k : Nat) : E := es.getD k d

theorem schedule_forall {E : Type*} {Q : E → Prop} {es : List E} {d : E}
    (hes : ∀ e, e ∈ es → Q e) (hd : Q d) (k : Nat) : Q (schedule es d k) := by
  unfold schedule
  by_cases hk : k < es.length
  · rw [List.getD_eq_getElem _ _ hk]
    exact hes _ (List.getElem_mem hk)
  · rw [List.getD_eq_default _ _ (by omega)]
    exact hd

/-- The invariant rule: `C` is what the steps of the run are known to meet. -/
theorem stateAt_invariant {S E : Type*} {step : S → E → S} {s : S} {σ : Nat → E} {n : Nat}
    {I : S → Prop} {C : S → E → Prop} (hinit : I s)
    (hC : ∀ k, k < n → C (stateAt step s σ k) (σ k))
    (hstep : ∀ t e, I t → C t e → I (step t e)) :
    ∀ k, k ≤ n → I (stateAt step s σ k) := by
  intro k
  induction k with
  | zero => intro _; exact hinit
  | succ k ih =>
    intro hk
    exact hstep _ _ (ih (by omega)) (hC k (by omega))

theorem between_invariant {I : Nat → Prop} {a b : Nat} (hinit : I a)
    (hstep : ∀ k, a ≤ k → k < b → I k → I (k+1)) : ∀ k, a ≤ k → k ≤ b → I k := by
  intro k hak
  induction k, hak using Nat.le_induction with
  | base => intro _; exact hinit
  | succ k hak ih =>
    intro hk
    exact hstep k hak (by omega) (ih (by omega))

def emitted {S E A : Type*} (out : S → E → List A) (step : S → E → S) (s : S) (σ : Nat → E) :
    Nat → List A
  | 0 => []
  | k+1 => emitted out step s σ k ++ out (stateAt step s σ k) (σ k)

theorem log_emitted {S E A : Type*} {out : S → E → List A} {step : S → E → S} {s : S}
    {σ : Nat → E} {n : Nat} {log : S → List A} {I : S → Prop} {C : E → Prop} (hinit : I s)
    (hC : ∀ k, k < n → C (σ k))
    (hstep : ∀ t e, I t → C e → I (step t e) ∧ log (step t e) = log t ++ out t e) :
    log (stateAt step s σ n) = log s ++ emitted out step s σ n := by
  have hinv := stateAt_invariant (C := fun _ e => C e) hinit hC fun t e hI he => (hstep t e hI he).1
  induction n with
  | zero => exact (List.append_nil _).symm
  | succ n ih =>
    rw [stateAt_succ,(hstep _ _ (hinv n (Nat.le_succ n)) (hC n (Nat.lt_succ_self n))).2,
      ih (fun k hk => hC k (by omega)) (fun k hk => hinv k (by omega)),emitted,List.append_assoc]

/-- Where the invariant survives every good step and decides whether a step is
good, the steps observed to behave are exactly the good ones, over whole runs. -/
theorem forall_iff_of_invariant {I P C : Nat → Prop} {n : Nat} (hinit : I 0)
    (hstep : ∀ k, I k → C k → I (k+1)) (hiff : ∀ k, I k → (P k ↔ C k)) :
    (∀ k, k < n → P k) ↔ (∀ k, k < n → C k) := by
  have hI : (∀ k, k < n → C k) → ∀ k, k ≤ n → I k := by
    intro hC k hk
    exact between_invariant hinit (fun j _ hj hi => hstep j hi (hC j (by omega))) k
      (Nat.zero_le k) hk
  constructor
  · intro hP k
    induction k using Nat.strongRecOn with
    | _ k ih =>
      intro hk
      have hk' : I k := between_invariant hinit
        (fun j _ hj hi => hstep j hi (ih j hj (by omega))) k (Nat.zero_le k) (Nat.le_refl k)
      exact (hiff k hk').mp (hP k hk)
  · intro hC k hk
    exact (hiff k (hI hC k (by omega))).mpr (hC k hk)

/-- What holds at first, and after a step just where the step is good, holds in every state of a run
just where its steps are good. -/
theorem holds_iff_of_step {I C : Nat → Prop} {n : Nat} (hinit : I 0)
    (hstep : ∀ k, I k → (I (k+1) ↔ C k)) : (∀ k, k ≤ n → I k) ↔ (∀ k, k < n → C k) := by
  rw [← forall_iff_of_invariant hinit (fun k h => (hstep k h).mpr) hstep]
  constructor
  · exact fun h k hk => h (k+1) hk
  · intro h k hk
    cases k with
    | zero => exact hinit
    | succ k => exact h k hk

/-- The run that goes on with `ρ` after `m` events of `σ`. -/
def splice {E : Type*} (σ : Nat → E) (m : Nat) (ρ : Nat → E) (k : Nat) : E :=
  if k < m then σ k else ρ (k-m)

theorem splice_before {E : Type*} {σ ρ : Nat → E} {m k : Nat} (h : k < m) :
    splice σ m ρ k = σ k := if_pos h

theorem splice_after {E : Type*} {σ ρ : Nat → E} {m j : Nat} : splice σ m ρ (m+j) = ρ j := by
  rw [splice,if_neg (by omega),Nat.add_sub_cancel_left]

/-- The runs that follow `σ` up to some point, and from there on take steps of `free` only. -/
def Follows {E : Type*} (free : E → Prop) (σ : Nat → E) (n : Nat) (τ : Nat → E) : Prop :=
  ∃ m, m ≤ n ∧ (∀ k, k < m → τ k = σ k) ∧ ∀ k, m ≤ k → free (τ k)

/-- Where a bad step lets free ones go wrong that follow it, the good steps of a run are all that it
takes for the runs that follow it to behave. -/
theorem forall_follows_iff {S E : Type*} {step : S → E → S} {s : S} {I : S → Prop}
    {C P : S → E → Prop} {free : E → Prop} (hinit : I s)
    (hstep : ∀ t e, I t → C t e → I (step t e)) (hsafe : ∀ t e, I t → P t e)
    (hfree : ∀ t e, free e → C t e)
    (hbad : ∀ t e, I t → ¬ C t e → ∃ ρ : Nat → E, (∀ j, free (ρ j)) ∧
      ∃ j, ¬ P (stateAt step (step t e) ρ j) (ρ j)) (σ : Nat → E) (n : Nat) :
    (∀ k, k < n → C (stateAt step s σ k) (σ k)) ↔
      ∀ τ, Follows free σ n τ → ∀ k, P (stateAt step s τ k) (τ k) := by
  constructor
  · rintro h τ ⟨m,hm,hbefore,hafter⟩ k
    have hgood : ∀ j, C (stateAt step s τ j) (τ j) := by
      intro j
      rcases Nat.lt_or_ge j m with hj | hj
      · rw [stateAt_congr hbefore j (by omega),hbefore j hj]
        exact h j (by omega)
      · exact hfree _ _ (hafter j hj)
    exact hsafe _ _ (stateAt_invariant hinit (fun j _ => hgood j) hstep k (Nat.le_refl k))
  · intro h k
    induction k using Nat.strongRecOn with
    | _ k ih =>
      intro hk
      have hI : I (stateAt step s σ k) :=
        stateAt_invariant hinit (fun j hj => ih j hj (by omega)) hstep k (Nat.le_refl k)
      by_contra hC
      obtain ⟨ρ,hρ,j,hj⟩ := hbad _ _ hI hC
      have hfollows : Follows free σ n (splice σ (k+1) ρ) := by
        refine ⟨k+1,hk,fun i hi => splice_before hi,fun i hi => ?_⟩
        obtain ⟨d,rfl⟩ := Nat.exists_eq_add_of_le hi
        rw [splice_after]
        exact hρ d
      have hstate : stateAt step s (splice σ (k+1) ρ) (k+1) =
          step (stateAt step s σ k) (σ k) := by
        rw [stateAt_congr (fun i hi => splice_before hi) (k+1) (Nat.le_refl _),stateAt_succ]
      have hP := h _ hfollows (k+1+j)
      rw [stateAt_add,hstate,splice_after] at hP
      simp only [splice_after] at hP
      exact hj hP

/-- Where every step of `T` lowers the rank and no other step raises it, `P` is reached with as many
steps of `T` as the rank was at first. -/
theorem reaches_of_rank {P T : Nat → Prop} [DecidablePred T] {r : Nat → Nat} {a b : Nat}
    (hab : a ≤ b) (hrank : ∀ k, a ≤ k → k ≤ b → r k = 0 → P k)
    (hstep : ∀ k, a ≤ k → k < b → ¬ P k → P (k+1) ∨
      r (k+1)+(if T k then 1 else 0) ≤ r k)
    (hcount : Nat.count T a+r a ≤ Nat.count T b) : ∃ k, a ≤ k ∧ k ≤ b ∧ P k := by
  by_contra hnot
  have hno : ∀ k, a ≤ k → k ≤ b → ¬ P k := fun k hak hkb hP => hnot ⟨k,hak,hkb,hP⟩
  have hsum : ∀ k, a ≤ k → k ≤ b → r k+Nat.count T k ≤ r a+Nat.count T a := by
    refine between_invariant (Nat.le_refl _) fun k hak hkb ih => ?_
    have hlower := (hstep k hak hkb (hno k hak (by omega))).resolve_left
      (hno (k+1) (by omega) hkb)
    rw [Nat.count_succ]
    omega
  have hlast := hsum b hab (Nat.le_refl b)
  exact hno b hab (Nat.le_refl b) (hrank b hab (Nat.le_refl b) (by omega))

theorem unmarked_of_count_eq {Q : Nat → Prop} [DecidablePred Q] {a b k : Nat} (hak : a ≤ k)
    (hkb : k < b) (hcount : Nat.count Q b = Nat.count Q a) : ¬ Q k := by
  intro hq
  have h₁ := Nat.count_monotone Q hak
  have h₂ := Nat.count_monotone Q (show k+1 ≤ b by omega)
  rw [Nat.count_succ,if_pos hq] at h₂
  omega

end LapCom.Machine
