import Mathlib.Data.List.Nodup
import Mathlib.Tactic.Ring

set_option autoImplicit false

namespace LapCom.Bytes

variable {w : Nat}

/-- The byte of `x` at place `p`; place 0 is the lowest. -/
def byteAt (x : BitVec w) (p : Nat) : BitVec 8 := (x >>> (8*p)).setWidth 8

def place (w : Nat) (b : BitVec 8) (p : Nat) : BitVec w := b.setWidth w <<< (8*p)

def split (ps : List Nat) (x : BitVec w) : List (BitVec 8) := ps.map (byteAt x)

def join (x : BitVec w) : List Nat → List (BitVec 8) → BitVec w
  | p :: ps, b :: bs => join (x ||| place w b p) ps bs
  | _, _ => x

@[simp] theorem split_length (ps : List Nat) (x : BitVec w) : (split ps x).length = ps.length :=
  List.length_map _

theorem getLsbD_byteAt (x : BitVec w) (p i : Nat) :
    (byteAt x p).getLsbD i = (decide (i < 8) && x.getLsbD (8*p+i)) := by
  rw [byteAt,BitVec.getLsbD_setWidth,BitVec.getLsbD_ushiftRight]

theorem getLsbD_place (b : BitVec 8) (p i : Nat) :
    (place w b p).getLsbD i = (decide (i < w) && decide (8*p ≤ i) && b.getLsbD (i-8*p)) := by
  rw [place,BitVec.getLsbD_shiftLeft,BitVec.getLsbD_setWidth]
  by_cases h : i < w
  · have h' : i-8*p < w := by omega
    by_cases hp : 8*p ≤ i <;> simp [h,h',hp,Nat.not_lt.mpr]
  · simp [h]

theorem getLsbD_join (x : BitVec w) (ps : List Nat) (bs : List (BitVec 8)) (i : Nat) :
    (join x ps bs).getLsbD i = true ↔ x.getLsbD i = true ∨
      ∃ e, e ∈ ps.zip bs ∧ (place w e.2 e.1).getLsbD i = true := by
  induction ps generalizing x bs with
  | nil => simp [join]
  | cons p ps ih =>
    cases bs with
    | nil => simp [join]
    | cons b bs => simp [join,ih,or_assoc]

theorem mem_zip_split {ps : List Nat} {x : BitVec w} {e : Nat × BitVec 8} :
    e ∈ ps.zip (split ps x) ↔ e.1 ∈ ps ∧ e.2 = byteAt x e.1 := by
  induction ps with
  | nil => simp [split]
  | cons p ps ih =>
    show e ∈ (p,byteAt x p) :: ps.zip (split ps x) ↔ _
    rw [List.mem_cons,ih,List.mem_cons,or_and_right]
    refine or_congr_left ⟨?_,?_⟩
    · rintro rfl
      exact ⟨rfl,rfl⟩
    · rintro ⟨h₁,h₂⟩
      exact Prod.ext h₁ (by rw [h₂,h₁])

/-- Reading back what was written, where the places cover the word. -/
theorem join_split {n : Nat} {ps : List Nat} (hps : ∀ p, p < n → p ∈ ps) (x : BitVec (8*n)) :
    join 0 ps (split ps x) = x := by
  apply BitVec.eq_of_getLsbD_eq
  intro i hi
  apply Bool.eq_iff_iff.mpr
  rw [getLsbD_join]
  constructor
  · rintro (h | ⟨⟨p,b⟩,he,h⟩)
    · simp at h
    · have hb : b = byteAt x p := (mem_zip_split.mp he).2
      rw [getLsbD_place,hb,getLsbD_byteAt] at h
      simp only [Bool.and_eq_true,decide_eq_true_eq] at h
      obtain ⟨⟨_,hle⟩,_,h⟩ := h
      rwa [Nat.add_sub_cancel' hle] at h
  · intro h
    have hmul : 8*(i/8) ≤ i := Nat.mul_div_le i 8
    refine .inr ⟨(i/8,byteAt x (i/8)),mem_zip_split.mpr ⟨hps _ (by omega),rfl⟩,?_⟩
    rw [getLsbD_place,getLsbD_byteAt]
    simp only [Bool.and_eq_true,decide_eq_true_eq]
    refine ⟨⟨hi,hmul⟩,by omega,?_⟩
    rwa [Nat.add_sub_cancel' hmul]

theorem split_join {n : Nat} {ps : List Nat} {bs : List (BitVec 8)} (hlt : ∀ p, p ∈ ps → p < n)
    (hnodup : ps.Nodup) (hlen : bs.length = ps.length) :
    split ps (join (0 : BitVec (8*n)) ps bs) = bs := by
  apply List.ext_getElem (by rw [split_length,hlen])
  intro k hk hk'
  rw [split_length] at hk
  have hp := hlt _ (List.getElem_mem hk)
  simp only [split,List.getElem_map]
  apply BitVec.eq_of_getLsbD_eq
  intro i hi
  apply Bool.eq_iff_iff.mpr
  rw [getLsbD_byteAt,Bool.and_eq_true,getLsbD_join]
  simp only [getLsbD_place,Bool.and_eq_true,decide_eq_true_eq]
  constructor
  · rintro ⟨_,h | ⟨e,he,⟨_,hle⟩,h⟩⟩
    · simp at h
    · obtain ⟨j,hj,rfl⟩ := List.mem_iff_getElem.mp he
      have hj' : j < ps.length := (List.lt_length_left_of_zip hj)
      simp only [List.getElem_zip] at hle h
      have hbit : 8*ps[k]+i-8*ps[j] < 8 := BitVec.lt_of_getLsbD h
      have hsame : j = k := (List.Nodup.getElem_inj_iff hnodup).mp (by omega)
      subst hsame
      rwa [Nat.add_sub_cancel_left] at h
  · intro h
    refine ⟨hi,.inr ⟨(ps[k],bs[k]),?_,⟨by omega,by omega⟩,?_⟩⟩
    · exact List.mem_iff_getElem.mpr ⟨k,by simp [hlen,hk],by simp⟩
    · rwa [Nat.add_sub_cancel_left]

end LapCom.Bytes
