import Mathlib.Data.Nat.Notation

set_option autoImplicit false

namespace LapCom.Crc

/-- One step of polynomial division over GF(2), most significant bit first:
`poly` is the generator without its leading coefficient. -/
def shift {w : Nat} (poly c : BitVec w) : BitVec w :=
  if c.msb then (c <<< 1) ^^^ poly else c <<< 1

def shifts {w : Nat} (poly : BitVec w) : Nat → BitVec w → BitVec w
  | 0, c => c
  | n+1, c => shifts poly n (shift poly c)

def update {w : Nat} (poly c d : BitVec w) : BitVec w := shifts poly w (c ^^^ d)

def remainder {w : Nat} (poly : BitVec w) : BitVec w → List (BitVec w) → BitVec w
  | c, [] => c
  | c, d :: ds => remainder poly (update poly c d) ds

theorem xor_swap {w : Nat} (a b p q : BitVec w) :
    (a ^^^ p) ^^^ (b ^^^ q) = (a ^^^ b) ^^^ (p ^^^ q) := by
  rw [BitVec.xor_assoc,BitVec.xor_assoc,← BitVec.xor_assoc p,BitVec.xor_comm p b,
    BitVec.xor_assoc b]

theorem shift_xor {w : Nat} (poly a b : BitVec w) :
    shift poly (a ^^^ b) = shift poly a ^^^ shift poly b := by
  unfold shift
  rw [BitVec.msb_xor,BitVec.shiftLeft_xor_distrib]
  cases ha : a.msb <;> cases hb : b.msb <;> simp
  · rw [BitVec.xor_assoc]
  · rw [BitVec.xor_assoc,BitVec.xor_comm (b <<< 1),BitVec.xor_assoc]
  · rw [xor_swap,BitVec.xor_self,BitVec.xor_zero]

theorem shifts_xor {w : Nat} (poly : BitVec w) (n : Nat) (a b : BitVec w) :
    shifts poly n (a ^^^ b) = shifts poly n a ^^^ shifts poly n b := by
  induction n generalizing a b with
  | zero => rfl
  | succ n ih => rw [shifts,shifts,shifts,shift_xor,ih]

theorem shifts_add {w : Nat} (poly : BitVec w) (m n : Nat) (c : BitVec w) :
    shifts poly (m+n) c = shifts poly n (shifts poly m c) := by
  induction m generalizing c with
  | zero => rw [Nat.zero_add]; rfl
  | succ m ih => rw [Nat.succ_add,shifts,shifts,ih]

theorem update_xor {w : Nat} (poly c e d f : BitVec w) :
    update poly (c ^^^ e) (d ^^^ f) = update poly c d ^^^ update poly e f := by
  rw [update,xor_swap,shifts_xor]; rfl

/-- A difference in the register travels through the rest of the message. -/
theorem remainder_xor {w : Nat} (poly c e : BitVec w) (ds : List (BitVec w)) :
    remainder poly (c ^^^ e) ds = remainder poly c ds ^^^ shifts poly (w*ds.length) e := by
  induction ds generalizing c e with
  | nil => rfl
  | cons d ds ih =>
    have hu : update poly (c ^^^ e) d = update poly c d ^^^ shifts poly w e := by
      have h := update_xor poly c e d 0#w
      rwa [BitVec.xor_zero,update.eq_1 poly e,BitVec.xor_zero] at h
    rw [remainder,remainder,hu,ih,← shifts_add,List.length_cons,Nat.mul_succ,Nat.add_comm]

theorem remainder_zipWith {w : Nat} (poly c e : BitVec w) {ds es : List (BitVec w)}
    (h : ds.length = es.length) :
    remainder poly (c ^^^ e) (List.zipWith (· ^^^ ·) ds es) =
      remainder poly c ds ^^^ remainder poly e es := by
  induction ds generalizing c e es with
  | nil =>
    cases es with
    | nil => rfl
    | cons f es => simp at h
  | cons d ds ih =>
    cases es with
    | nil => simp at h
    | cons f es =>
      rw [List.zipWith_cons_cons,remainder,remainder,remainder,update_xor]
      exact ih _ _ (Nat.succ.inj h)

theorem remainder_set {w : Nat} (poly c v : BitVec w) (ds : List (BitVec w)) (i : Nat)
    (hi : i < ds.length) :
    remainder poly c (ds.set i v) =
      remainder poly c ds ^^^ shifts poly (w*(ds.length-i)) (ds[i] ^^^ v) := by
  induction ds generalizing c i with
  | nil => simp at hi
  | cons d ds ih =>
    cases i with
    | zero =>
      have hd : update poly c v = update poly c d ^^^ shifts poly w (d ^^^ v) := by
        have h := update_xor poly c 0#w d (d ^^^ v)
        rwa [BitVec.xor_zero,← BitVec.xor_assoc,BitVec.xor_self,BitVec.zero_xor,
          update.eq_1 poly 0#w,BitVec.zero_xor] at h
      rw [List.set_cons_zero,remainder,remainder,hd,remainder_xor,← shifts_add]
      simp only [List.length_cons,Nat.sub_zero,List.getElem_cons_zero,Nat.mul_succ]
      rw [Nat.add_comm]
    | succ i =>
      have hlt : i < ds.length := by simpa using hi
      simp only [List.set_cons_succ,remainder,List.length_cons,List.getElem_cons_succ,
        Nat.add_sub_add_right]
      exact ih (update poly c d) i hlt

end LapCom.Crc
