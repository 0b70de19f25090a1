import LapCom.Crc.Remainder
import Mathlib.Dynamics.PeriodicPts.Lemmas
import Mathlib.NumberTheory.Divisors

set_option autoImplicit false

namespace LapCom.Crc

section Shifts
variable {w : Nat} (poly : BitVec w)

theorem shift_zero : shift poly 0 = 0 := by simp [shift]

theorem shifts_zero (n : Nat) : shifts poly n 0 = 0 := by
  induction n with
  | zero => rfl
  | succ n ih => rw [shifts,shift_zero,ih]

theorem shifts_eq_iterate (n : Nat) (c : BitVec w) : shifts poly n c = (shift poly)^[n] c := by
  induction n generalizing c with
  | zero => rfl
  | succ n ih => rw [shifts,ih,Function.iterate_succ_apply]

theorem shifts_comm (m n : Nat) (c : BitVec w) :
    shifts poly m (shifts poly n c) = shifts poly n (shifts poly m c) := by
  rw [← shifts_add,← shifts_add,Nat.add_comm]

variable {poly}

/-- A generator with a constant term only shifts zero to zero. -/
theorem eq_zero_of_shift (hodd : poly.getLsbD 0 = true) {c : BitVec w} (h : shift poly c = 0) :
    c = 0 := by
  cases hmsb : c.msb with
  | true =>
    have hbit := congrArg (fun x => x.getLsbD 0) h
    simp [shift,hmsb,hodd] at hbit
  | false =>
    have hshift : c <<< 1 = 0 := by simpa [shift,hmsb] using h
    have hzero : ∀ j, (0 : BitVec w).getLsbD j = false := fun j => BitVec.getLsbD_zero
    apply BitVec.eq_of_getLsbD_eq
    intro i hi
    by_cases hlast : i+1 = w
    · have htop : c.getLsbD i = c.msb := by
        rw [BitVec.msb_eq_getLsbD_last,show w-1 = i by omega]
      rw [htop,hmsb,hzero]
    · have hbit := congrArg (fun x => x.getLsbD (i+1)) hshift
      have hlt : i+1 < w := by omega
      have hpos : ¬ i+1 < 1 := by omega
      simpa only [BitVec.getLsbD_shiftLeft,hlt,hpos,decide_true,decide_false,Bool.not_false,
        Bool.true_and,Nat.add_sub_cancel,hzero] using hbit

theorem eq_zero_of_shifts (hodd : poly.getLsbD 0 = true) (n : Nat) {c : BitVec w}
    (h : shifts poly n c = 0) : c = 0 := by
  induction n generalizing c with
  | zero => exact h
  | succ n ih => exact eq_zero_of_shift hodd (ih h)

theorem shifts_injective (hodd : poly.getLsbD 0 = true) (n : Nat) :
    Function.Injective (shifts poly n) := by
  intro a b h
  have hzero : shifts poly n (a ^^^ b) = 0 := by rw [shifts_xor,h,BitVec.xor_self]; rfl
  exact BitVec.xor_eq_zero_iff.mp (eq_zero_of_shifts hodd n hzero)

theorem finite_register : Finite (BitVec w) :=
  Finite.of_injective BitVec.toFin fun _ _ => BitVec.eq_of_toFin_eq

theorem shifts_surjective (hodd : poly.getLsbD 0 = true) (n : Nat) :
    Function.Surjective (shifts poly n) :=
  have := finite_register (w := w)
  Finite.injective_iff_surjective.mp (shifts_injective hodd n)

/-- A map of registers that the division by the generator commutes with. -/
structure Linear (poly : BitVec w) (f : BitVec w → BitVec w) : Prop where
  xor : ∀ a b, f (a ^^^ b) = f a ^^^ f b
  shift : ∀ a, f (shift poly a) = shift poly (f a)

theorem Linear.id : Linear poly fun c => c := ⟨fun _ _ => rfl,fun _ => rfl⟩

theorem Linear.shifts (n : Nat) : Linear poly (shifts poly n) :=
  ⟨shifts_xor poly n,fun c => shifts_comm poly n 1 c⟩

theorem Linear.add {f g : BitVec w → BitVec w} (hf : Linear poly f) (hg : Linear poly g) :
    Linear poly fun c => f c ^^^ g c := by
  constructor
  · intro a b
    rw [hf.xor,hg.xor,xor_swap]
  · intro a
    rw [hf.shift,hg.shift,shift_xor]

theorem Linear.zero {f : BitVec w → BitVec w} (hf : Linear poly f) : f 0 = 0 := by
  have h := hf.xor 0 0
  rwa [BitVec.xor_self,BitVec.xor_self] at h

theorem Linear.apply_shifts {f : BitVec w → BitVec w} (hf : Linear poly f) (n : Nat)
    (c : BitVec w) : f (Crc.shifts poly n c) = Crc.shifts poly n (f c) := by
  induction n generalizing c with
  | zero => rfl
  | succ n ih => rw [Crc.shifts,ih,hf.shift]; rfl

end Shifts

section J1850

def j1850 : BitVec 8 := 0x1D

theorem j1850_odd : j1850.getLsbD 0 = true := rfl

def powers (e : BitVec 8) : List (BitVec 8) :=
  (List.range 8).map fun i => if e.getLsbD i then shifts j1850 i 1 else 0

theorem sum_powers : ∀ e : BitVec 8, (powers e).foldr (· ^^^ ·) 0 = e := by decide +kernel

/-- Such a map is known by the image of 1. -/
theorem Linear.ext_one {f g : BitVec 8 → BitVec 8} (hf : Linear j1850 f) (hg : Linear j1850 g)
    (h : f 1 = g 1) (e : BitVec 8) : f e = g e := by
  have hsum : ∀ l : List (BitVec 8), (∀ c ∈ l, f c = g c) →
      f (l.foldr (· ^^^ ·) 0) = g (l.foldr (· ^^^ ·) 0) := by
    intro l hl
    induction l with
    | nil => rw [List.foldr_nil,hf.zero,hg.zero]
    | cons c l ih =>
      obtain ⟨hc,hl⟩ := List.forall_mem_cons.mp hl
      rw [List.foldr_cons,hf.xor,hg.xor,hc,ih hl]
  rw [← sum_powers e]
  apply hsum
  intro c hc
  obtain ⟨i,_,rfl⟩ := List.mem_map.mp hc
  split_ifs
  · rw [hf.apply_shifts,hg.apply_shifts,h]
  · rw [hf.zero,hg.zero]

theorem shifts_255 (e : BitVec 8) : shifts j1850 255 e = e :=
  Linear.ext_one (.shifts 255) .id (by decide +kernel) e

/-- Where the remainder of `x^n+1` is the one of `x^k`, no register but zero comes back after `n`
shifts. -/
theorem not_periodic {n k : Nat} (h : shifts j1850 n 1 ^^^ 1 = shifts j1850 k 1) {e : BitVec 8}
    (he : e ≠ 0) : shifts j1850 n e ≠ e := by
  intro hback
  have hlinear := Linear.ext_one ((Linear.shifts n).add .id) (.shifts k) h e
  rw [hback,BitVec.xor_self] at hlinear
  exact he (eq_zero_of_shifts j1850_odd k hlinear.symm)

theorem minimalPeriod_shift {e : BitVec 8} (he : e ≠ 0) :
    Function.minimalPeriod (shift j1850) e = 255 := by
  have hperiodic : ∀ n, Function.IsPeriodicPt (shift j1850) n e ↔ shifts j1850 n e = e := by
    intro n
    rw [shifts_eq_iterate]
    rfl
  have hdvd : Function.minimalPeriod (shift j1850) e ∣ 255 :=
    ((hperiodic 255).mpr (shifts_255 e)).minimalPeriod_dvd
  have hmem : Function.minimalPeriod (shift j1850) e ∈ Nat.divisors 255 :=
    Nat.mem_divisors.mpr ⟨hdvd,by decide⟩
  have hnot : ∀ n, shifts j1850 n e ≠ e → ¬ Function.minimalPeriod (shift j1850) e ∣ n :=
    fun n hne hn => hne ((hperiodic n).mp (Function.isPeriodicPt_iff_minimalPeriod_dvd.mpr hn))
  have h15 := hnot 15 (not_periodic (by decide +kernel : _ = shifts j1850 33 1) he)
  have h51 := hnot 51 (not_periodic (by decide +kernel : _ = shifts j1850 238 1) he)
  have h85 := hnot 85 (not_periodic (by decide +kernel : _ = shifts j1850 170 1) he)
  have hdivisors : Nat.divisors 255 = {1,3,5,15,17,51,85,255} := by decide +kernel
  rw [hdivisors] at hmem
  simp only [Finset.mem_insert,Finset.mem_singleton] at hmem
  generalize Function.minimalPeriod (shift j1850) e = p at hmem h15 h51 h85
  rcases hmem with rfl | rfl | rfl | rfl | rfl | rfl | rfl | rfl
  all_goals omega

theorem shifts_eq_self_iff {e : BitVec 8} (he : e ≠ 0) (n : Nat) :
    shifts j1850 n e = e ↔ 255 ∣ n := by
  rw [← minimalPeriod_shift he,← Function.isPeriodicPt_iff_minimalPeriod_dvd,shifts_eq_iterate]
  rfl

/-- Where no register comes back, every register is the difference of some register and its
shift. -/
theorem xor_shifts_surjective {n : Nat} (h : ¬ 255 ∣ n) :
    Function.Surjective fun e : BitVec 8 => e ^^^ shifts j1850 n e := by
  have := finite_register (w := 8)
  apply Finite.injective_iff_surjective.mp
  intro a b hab
  have hback : shifts j1850 n (a ^^^ b) = a ^^^ b := by
    have hzero : (a ^^^ b) ^^^ shifts j1850 n (a ^^^ b) = 0 := by
      rw [shifts_xor,xor_swap]
      exact BitVec.xor_eq_zero_iff.mpr hab
    exact (BitVec.xor_eq_zero_iff.mp hzero).symm
  by_contra hne
  have hchanged : a ^^^ b ≠ 0 := fun hzero => hne (BitVec.xor_eq_zero_iff.mp hzero)
  exact h ((shifts_eq_self_iff hchanged n).mp hback)

end J1850

end LapCom.Crc
