import LapCom.Crc.Remainder
import Mathlib.Algebra.CharP.Two
import Mathlib.Algebra.Field.ZMod
import Mathlib.Algebra.Polynomial.FieldDivision
import Mathlib.Algebra.Polynomial.OfFn
import Mathlib.Tactic.LinearCombination

set_option autoImplicit false

namespace LapCom.Crc
open Polynomial

section Polynomials
variable {w : Nat}

/-- The bits of a register as coefficients over GF(2), bit `i` that of `x^i`. -/
noncomputable def toPolynomial (b : BitVec w) : (ZMod 2)[X] :=
  ofFn w fun i => if b.getLsbD i then 1 else 0

theorem coeff_toPolynomial (b : BitVec w) (k : Nat) :
    (toPolynomial b).coeff k = if b.getLsbD k then 1 else 0 := by
  by_cases hk : k < w
  · rw [toPolynomial,ofFn_coeff_eq_val_of_lt _ hk]
  · have hge := Nat.le_of_not_gt hk
    rw [toPolynomial,ofFn_coeff_eq_zero_of_ge _ hge,BitVec.getLsbD_of_ge b k hge]
    rfl

theorem toPolynomial_injective : Function.Injective (toPolynomial (w := w)) := by
  intro a b h
  apply BitVec.eq_of_getLsbD_eq
  intro i _
  have hi := congrArg (fun p => p.coeff i) h
  simp only [coeff_toPolynomial] at hi
  cases ha : a.getLsbD i <;> cases hb : b.getLsbD i <;> simp [ha,hb] at hi ⊢

theorem toPolynomial_xor (a b : BitVec w) :
    toPolynomial (a ^^^ b) = toPolynomial a+toPolynomial b := by
  ext k
  rw [coeff_add,coeff_toPolynomial,coeff_toPolynomial,coeff_toPolynomial,BitVec.getLsbD_xor]
  cases a.getLsbD k <;> cases b.getLsbD k <;> simp [CharTwo.add_self_eq_zero]

theorem degree_toPolynomial_lt (b : BitVec w) : (toPolynomial b).degree < w := ofFn_degree_lt _

noncomputable def ofPolynomial : (ZMod 2)[X] → BitVec w := Function.invFun toPolynomial

theorem ofPolynomial_toPolynomial (b : BitVec w) : ofPolynomial (toPolynomial b) = b :=
  Function.leftInverse_invFun toPolynomial_injective b

/-- A message is read most significant bit first. -/
noncomputable def message : List (BitVec w) → (ZMod 2)[X]
  | [] => 0
  | d :: ds => toPolynomial d*X^(w*ds.length)+message ds

/-- The remainder of the message with room for the register behind it and `init` added to its
first bits, xored with `final`. -/
noncomputable def crc (g : (ZMod 2)[X]) (init final : BitVec w) (ds : List (BitVec w)) :
    BitVec w :=
  ofPolynomial ((toPolynomial init*X^(w*ds.length)+message ds*X^w) %ₘ g) ^^^ final

noncomputable def generator (poly : BitVec w) : (ZMod 2)[X] := X^w+toPolynomial poly

variable (poly : BitVec w)

theorem generator_monic : (generator poly).Monic :=
  monic_X_pow_add (degree_toPolynomial_lt poly)

theorem degree_generator : (generator poly).degree = w := by
  rw [generator,degree_add_eq_left_of_degree_lt,degree_X_pow]
  rw [degree_X_pow]
  exact degree_toPolynomial_lt poly

theorem toPolynomial_modByMonic (c : BitVec w) :
    toPolynomial c %ₘ generator poly = toPolynomial c := by
  rw [modByMonic_eq_self_iff (generator_monic poly),degree_generator]
  exact degree_toPolynomial_lt c

theorem toPolynomial_shiftLeft (c : BitVec w) :
    X*toPolynomial c = toPolynomial (c <<< 1)+if c.msb then X^w else 0 := by
  ext k
  have htop : ((if c.msb then X^w else 0 : (ZMod 2)[X])).coeff k =
      if c.msb ∧ k = w then 1 else 0 := by
    cases c.msb <;> simp [coeff_X_pow]
  rw [coeff_add,coeff_toPolynomial,BitVec.getLsbD_shiftLeft,htop]
  cases k with
  | zero =>
    have hmsb : ¬ (c.msb ∧ 0 = w) := by
      rintro ⟨hmsb,rfl⟩
      simp [BitVec.msb_of_zero_length] at hmsb
    simp [hmsb]
  | succ k =>
    rw [coeff_X_mul,coeff_toPolynomial,BitVec.msb_eq_getLsbD_last]
    by_cases hk : k+1 < w
    · simp [hk,hk.ne]
    · by_cases hw : k+1 = w
      · subst hw
        simp
      · simp [hk,hw,BitVec.getLsbD_of_ge c k (by omega)]

theorem shift_dvd (c : BitVec w) :
    generator poly ∣ X*toPolynomial c-toPolynomial (shift poly c) := by
  rw [toPolynomial_shiftLeft,shift]
  cases c.msb with
  | false => simp
  | true =>
    have hself := CharTwo.add_self_eq_zero (toPolynomial poly)
    refine ⟨1,?_⟩
    rw [if_pos rfl,if_pos rfl,toPolynomial_xor,generator]
    linear_combination -hself

theorem shifts_dvd (n : Nat) (c : BitVec w) :
    generator poly ∣ X^n*toPolynomial c-toPolynomial (shifts poly n c) := by
  induction n generalizing c with
  | zero => simp [shifts]
  | succ n ih =>
    have hstep := (shift_dvd poly c).mul_left (X^n)
    have hsum := dvd_add hstep (ih (shift poly c))
    rw [shifts]
    convert hsum using 1
    ring

theorem remainder_dvd (c : BitVec w) (ds : List (BitVec w)) :
    generator poly ∣ toPolynomial c*X^(w*ds.length)+message ds*X^w-
      toPolynomial (remainder poly c ds) := by
  induction ds generalizing c with
  | nil => simp [message,remainder]
  | cons d ds ih =>
    have hbyte := (shifts_dvd poly w (c ^^^ d)).mul_right (X^(w*ds.length))
    have hsum := dvd_add hbyte (ih (update poly c d))
    rw [remainder]
    convert hsum using 1
    rw [toPolynomial_xor,update,message,List.length_cons,Nat.mul_succ,pow_add]
    ring

theorem crc_eq (init final : BitVec w) (ds : List (BitVec w)) :
    crc (generator poly) init final ds = remainder poly init ds ^^^ final := by
  have hmod := modByMonic_eq_of_dvd_sub (generator_monic poly) (remainder_dvd poly init ds)
  rw [crc,hmod,toPolynomial_modByMonic,ofPolynomial_toPolynomial]

/-- The CRCs of two messages of one length differ by the remainder of the messages' difference. -/
theorem crc_xor_crc (init final : BitVec w) {ds es : List (BitVec w)}
    (h : ds.length = es.length) :
    crc (generator poly) init final ds ^^^ crc (generator poly) init final es =
      crc (generator poly) 0 0 (List.zipWith (· ^^^ ·) ds es) := by
  have hzip := remainder_zipWith poly init init h
  rw [BitVec.xor_self] at hzip
  rw [crc_eq,crc_eq,crc_eq,xor_swap,BitVec.xor_self,← hzip]
  rfl

end Polynomials

end LapCom.Crc
