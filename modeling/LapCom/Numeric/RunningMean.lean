import Mathlib.Algebra.BigOperators.Group.List.Basic
import Mathlib.Algebra.Order.Field.Basic
import Mathlib.Algebra.Order.Ring.Abs
import Mathlib.Data.Rat.Cast.Order
import Mathlib.Tactic.FieldSimp
import Mathlib.Tactic.Linarith
import Mathlib.Tactic.Ring

set_option autoImplicit false

namespace LapCom.Numeric

/-- A mean that is computed from its own rounded value. -/
structure RunningMean where
  count : Nat
  mean : Nat
  deriving DecidableEq

namespace RunningMean

def initial : RunningMean := ⟨0,0⟩

def add (m : RunningMean) (x : Nat) : RunningMean :=
  ⟨m.count+1,(m.mean*m.count+x)/(m.count+1)⟩

def addAll (m : RunningMean) (xs : List Nat) : RunningMean := xs.foldl add m

end RunningMean

/-- What the divisions of a running mean cut off, from the values alone. -/
structure Truncation where
  count : Nat
  sum : Nat
  cut : Nat
  deriving DecidableEq

namespace Truncation

def initial : Truncation := ⟨0,0,0⟩

def add (t : Truncation) (x : Nat) : Truncation :=
  ⟨t.count+1,t.sum+x,t.cut+(t.sum+x-t.cut)%(t.count+1)⟩

def addAll (t : Truncation) (xs : List Nat) : Truncation := xs.foldl add t

@[simp] theorem add_count (t : Truncation) (x : Nat) : (t.add x).count = t.count+1 := rfl

@[simp] theorem add_sum (t : Truncation) (x : Nat) : (t.add x).sum = t.sum+x := rfl

theorem addAll_count (t : Truncation) (xs : List Nat) :
    (t.addAll xs).count = t.count+xs.length := by
  induction xs generalizing t with
  | nil => rfl
  | cons x xs ih =>
    rw [addAll,List.foldl_cons,← addAll,ih,List.length_cons,add_count]
    omega

theorem addAll_sum (t : Truncation) (xs : List Nat) : (t.addAll xs).sum = t.sum+xs.sum := by
  induction xs generalizing t with
  | nil => rfl
  | cons x xs ih =>
    rw [addAll,List.foldl_cons,← addAll,ih,List.sum_cons,add_sum]
    omega

theorem cut_add_le (t : Truncation) (x : Nat) : (t.add x).cut ≤ t.cut+t.count := by
  have := Nat.mod_lt (t.sum+x-t.cut) (Nat.succ_pos t.count)
  simp only [add,Nat.succ_eq_add_one] at *
  omega

theorem two_mul_cut_le (t : Truncation) (xs : List Nat) (h : 2*t.cut ≤ t.count*(t.count-1)) :
    2*(t.addAll xs).cut ≤ (t.count+xs.length)*(t.count+xs.length-1) := by
  induction xs generalizing t with
  | nil => exact h
  | cons x xs ih =>
    have hstep : 2*(t.add x).cut ≤ (t.add x).count*((t.add x).count-1) := by
      have hcut := t.cut_add_le x
      rw [add_count,Nat.add_sub_cancel]
      cases hc : t.count with
      | zero => rw [hc] at h hcut; omega
      | succ c =>
        rw [hc,Nat.add_sub_cancel] at h
        rw [hc] at hcut
        have hexpand : (c+1+1)*(c+1) = (c+1)*c+2*(c+1) := by ring
        omega
    have hrest := ih (t.add x) hstep
    have hcount : (t.add x).count+xs.length = t.count+(x :: xs).length := by
      rw [add_count,List.length_cons]
      omega
    rwa [hcount] at hrest

end Truncation

structure Accounted (m : RunningMean) (t : Truncation) : Prop where
  count : m.count = t.count
  total : m.mean*m.count+t.cut = t.sum

theorem Accounted.initial : Accounted .initial .initial := ⟨rfl,rfl⟩

theorem Accounted.add {m : RunningMean} {t : Truncation} (h : Accounted m t) (x : Nat) :
    Accounted (m.add x) (t.add x) := by
  obtain ⟨hcount,htotal⟩ := h
  have hrest : t.sum+x-t.cut = m.mean*m.count+x := by omega
  have hdiv := Nat.div_add_mod' (m.mean*m.count+x) (m.count+1)
  refine ⟨congrArg (·+1) hcount,?_⟩
  simp only [RunningMean.add,Truncation.add,hrest,← hcount]
  omega

theorem Accounted.addAll {m : RunningMean} {t : Truncation} (h : Accounted m t) (xs : List Nat) :
    Accounted (m.addAll xs) (t.addAll xs) := by
  induction xs generalizing m t with
  | nil => exact h
  | cons x xs ih => exact ih (h.add x)

def cut (xs : List Nat) : Nat := (Truncation.initial.addAll xs).cut

theorem two_mul_cut_le (xs : List Nat) : 2*cut xs ≤ xs.length*(xs.length-1) := by
  have h := Truncation.initial.two_mul_cut_le xs (Nat.zero_le _)
  have hlength : Truncation.initial.count+xs.length = xs.length := Nat.zero_add _
  rwa [hlength] at h

def mean (xs : List Nat) : Nat := (RunningMean.initial.addAll xs).mean

theorem addAll_initial_count (xs : List Nat) :
    (RunningMean.initial.addAll xs).count = xs.length := by
  rw [(Accounted.initial.addAll xs).count,Truncation.addAll_count]
  exact Nat.zero_add _

theorem mean_mul_length (xs : List Nat) : mean xs*xs.length+cut xs = xs.sum := by
  have htotal := (Accounted.initial.addAll xs).total
  rw [addAll_initial_count,Truncation.addAll_sum] at htotal
  rw [cut,mean,htotal]
  exact Nat.zero_add _

theorem mean_concat (xs : List Nat) (x : Nat) :
    mean (xs++[x]) = (mean xs*xs.length+x)/(xs.length+1) := by
  have h : mean (xs++[x]) = ((RunningMean.initial.addAll xs).add x).mean := by
    simp only [mean,RunningMean.addAll,List.foldl_append,List.foldl_cons,List.foldl_nil]
  rw [h,RunningMean.add,addAll_initial_count]
  rfl

theorem cut_concat (xs : List Nat) (x : Nat) :
    cut (xs++[x]) = cut xs+(mean xs*xs.length+x)%(xs.length+1) := by
  have hxs := mean_mul_length xs
  have hconcat := mean_mul_length (xs++[x])
  have hdiv := Nat.div_add_mod' (mean xs*xs.length+x) (xs.length+1)
  rw [mean_concat,List.length_append,List.length_singleton,List.sum_append,
    List.sum_singleton] at hconcat
  omega

theorem mean_sub (xs : List Nat) (hne : xs ≠ []) :
    (xs.sum : ℚ)/xs.length-mean xs = cut xs/xs.length := by
  have hpos : (0 : ℚ) < xs.length := by exact_mod_cast List.length_pos_iff.mpr hne
  have htotal : (mean xs : ℚ)*xs.length+cut xs = xs.sum := by exact_mod_cast mean_mul_length xs
  rw [← htotal]
  field_simp
  ring

theorem mean_accurate_iff (xs : List Nat) (hne : xs ≠ []) :
    |(xs.sum : ℚ)/xs.length-mean xs| < 1 ↔ cut xs < xs.length := by
  have hpos : (0 : ℚ) < xs.length := by exact_mod_cast List.length_pos_iff.mpr hne
  have hcut : (0 : ℚ) ≤ cut xs/xs.length := by positivity
  rw [mean_sub xs hne,abs_of_nonneg hcut,div_lt_one hpos]
  exact Nat.cast_lt

/-- The running mean is never above the mean, and at most half the number of values below. -/
theorem mean_error_le (xs : List Nat) (hne : xs ≠ []) :
    0 ≤ (xs.sum : ℚ)/xs.length-mean xs ∧ (xs.sum : ℚ)/xs.length-mean xs ≤ (xs.length-1)/2 := by
  have hlength : 1 ≤ xs.length := List.length_pos_iff.mpr hne
  have hpos : (0 : ℚ) < xs.length := by exact_mod_cast hlength
  have hcut : 2*(cut xs : ℚ) ≤ xs.length*(xs.length-1) := by
    have h := two_mul_cut_le xs
    rw [← Nat.cast_one,← Nat.cast_sub hlength]
    exact_mod_cast h
  rw [mean_sub xs hne]
  refine ⟨by positivity,?_⟩
  rw [div_le_div_iff₀ hpos (by norm_num)]
  linarith

/-- Values that go down by one at each step lose all that can be lost. -/
theorem cut_descending (a k : Nat) (h : k ≤ a) :
    mean ((List.range (k+1)).map (a-·)) = a-k ∧
    2*cut ((List.range (k+1)).map (a-·)) = (k+1)*k := by
  induction k with
  | zero =>
    constructor
    · simp [mean,RunningMean.addAll,RunningMean.add,RunningMean.initial]
    · simp [cut,Truncation.addAll,Truncation.add,Truncation.initial,Nat.mod_one]
  | succ k ih =>
    obtain ⟨hmean,hcut⟩ := ih (by omega)
    have hsum : (a-k)*(k+1)+(a-(k+1)) = (a-(k+1))*(k+2)+(k+1) := by
      obtain ⟨d,rfl⟩ := Nat.exists_eq_add_of_le h
      rw [show k+1+d-k = d+1 by omega,Nat.add_sub_cancel_left]
      ring
    rw [List.range_succ,List.map_append,List.map_singleton,mean_concat,cut_concat,hmean,
      List.length_map,List.length_range,hsum]
    constructor
    · rw [Nat.add_comm,Nat.add_mul_div_right _ _ (by omega),Nat.div_eq_of_lt (by omega)]
      omega
    · rw [Nat.add_comm ((a-(k+1))*(k+2)),Nat.add_mul_mod_self_right,Nat.mod_eq_of_lt (by omega),
        Nat.mul_add,hcut]
      ring

end LapCom.Numeric
