import LapCom.SeqLock.Calls
import LapCom.SeqLock.Solo
import Mathlib.Algebra.Ring.Parity
import Mathlib.Data.Fintype.Card

set_option autoImplicit false

namespace LapCom.SeqLock
open LapCom.Machine

section Parity

variable {P C ι D R : Type} [DecidableEq ι]

def inside [Fintype P] (i : ι) (m : Machine P C ι D R) : Finset P :=
  Finset.univ.filter fun p => (m.pc p).inSection i = true

theorem mem_inside [Fintype P] {i : ι} {m : Machine P C ι D R} {p : P} :
    p ∈ inside i m ↔ (m.pc p).inSection i = true := by
  simp [inside]

variable [DecidableEq P]

def OddInside [Fintype P] (i : ι) (m : Machine P C ι D R) : Prop :=
  writing (m.slot i).sequence = true ↔ Odd (inside i m).card

theorem OddInside.step [Fintype P] {program : C → Program ι D R} {i : ι} {m : Machine P C ι D R}
    (h : OddInside i m) (e : Event P C) : OddInside i (step program m e) := by
  unfold OddInside at h
  obtain hs | ⟨p,c,stores,rfl,hp,hs⟩ | ⟨p,c,store,stores,rfl,hp,hs⟩ | ⟨p,c,rfl,hp,hs⟩ :=
    step_cases program i m e
  · have hsame : inside i (SeqLock.step program m e) = inside i m := by
      ext q
      rw [mem_inside,mem_inside,hs.sections q]
    rw [OddInside,hs.slot,hsame]
    exact h
  · have hnew : inside i (SeqLock.step program m (.tick p)) = insert p (inside i m) := by
      ext q
      rw [Finset.mem_insert,mem_inside,mem_inside,hs]
      by_cases hq : q = p <;> simp [hq,Pc.inSection]
    have hout : p ∉ inside i m := by simp [mem_inside,hp,Pc.inSection]
    rw [OddInside,hnew,Finset.card_insert_of_notMem hout,Nat.odd_add_one,← h,hs]
    simp [writing_succ]
  · have hsame : inside i (SeqLock.step program m (.tick p)) = inside i m := by
      ext q
      rw [mem_inside,mem_inside,hs]
      by_cases hq : q = p <;> simp [hq,hp,Pc.inSection]
    rw [OddInside,hsame,← h,hs]
    simp
  · have hnew : inside i (SeqLock.step program m (.tick p)) = (inside i m).erase p := by
      ext q
      rw [Finset.mem_erase,mem_inside,mem_inside,hs]
      by_cases hq : q = p <;> simp [hq,Pc.inSection]
    have hin : p ∈ inside i m := by simp [mem_inside,hp,Pc.inSection]
    have hcard := Finset.card_erase_add_one hin
    have hodd : Odd (inside i m).card ↔ ¬ Odd ((inside i m).erase p).card := by
      rw [← hcard,Nat.odd_add_one]
    rw [OddInside,hnew,← not_iff_not,← hodd,← h,hs]
    simp [writing_succ]

theorem oddInside_at [Fintype P] {program : C → Program ι D R} {m₀ : Machine P C ι D R} {i : ι}
    (heven : writing (m₀.slot i).sequence = false) (hquiet : Quiet i m₀) (σ : Nat → Event P C)
    (k : Nat) : OddInside i (stateAt (step program) m₀ σ k) := by
  induction k with
  | zero =>
    have hnone : inside i m₀ = ∅ := by
      ext q
      simp [mem_inside,hquiet q]
    simp [OddInside,hnone,heven]
  | succ k ih => exact ih.step (σ k)

theorem sampled_even_at {program : C → Program ι D R} {m₀ : Machine P C ι D R}
    (hidle : ∀ p, m₀.pc p = .idle) (σ : Nat → Event P C) (k : Nat) {p : P} {c : C} {i : ι}
    {f rest : ReadFunc D R} {n : Nat} {seq1 : BitVec 64}
    (h : (stateAt (step program) m₀ σ k).pc p = .copying c i f n seq1 rest) :
    writing seq1 = false := by
  induction k generalizing c n seq1 rest f i with
  | zero => rw [stateAt_zero,hidle p] at h; cases h
  | succ k ih =>
    rw [stateAt_succ] at h
    obtain hs | ⟨c',_,_,hs⟩ | ⟨j,_,_,hs⟩ := step_pc_cases program (stateAt (step program) m₀ σ k)
      (σ k) p
    · rw [hs] at h; exact ih h
    · rw [hs] at h
      cases hprog : program c' <;> simp [start,hprog] at h
    · rw [hs] at h
      cases hpc : (stateAt (step program) m₀ σ k).pc p with
      | idle => simp [hpc,Pc.act] at h
      | returned c' o => simp [hpc,Pc.act] at h
      | checking c' i' free stores =>
        simp only [hpc,Pc.act] at h
        split at h <;> cases h
      | entering c' i' stores => simp [hpc,Pc.act] at h
      | storing c' i' rest' => cases rest' <;> simp [hpc,Pc.act] at h
      | sampling c' i' g n' =>
        simp only [hpc,Pc.act] at h
        cases hw : writing ((stateAt (step program) m₀ σ k).slot j).sequence with
        | true =>
          rw [hw,if_pos rfl] at h
          exact absurd h (retry_ne_copying _ _ _ _ _ _ _ _ _ _)
        | false =>
          simp only [hw,Bool.false_eq_true,if_false,Pc.copying.injEq] at h
          obtain ⟨_,_,_,_,rfl,_⟩ := h
          exact hw
      | copying c' i' g n' seq rest' =>
        cases rest' with
        | load field next =>
          simp only [hpc,Pc.act,Pc.copying.injEq] at h
          obtain ⟨_,_,_,_,rfl,_⟩ := h
          exact ih hpc
        | ret v =>
          simp only [hpc,Pc.act] at h
          split at h
          · cases h
          · exact absurd h (retry_ne_copying _ _ _ _ _ _ _ _ _ _)

end Parity

section Later

variable {P C ι D R : Type} [DecidableEq ι] [DecidableEq P]

/-- Process `p` has stopped inside a section of slot `i`; after it, between the
events `a` and `b`, process `q` runs a whole section of its call `c`, and nobody
else writes to the slot meanwhile. -/
structure LaterSection (program : C → Program ι D R) (m₀ : Machine P C ι D R)
    (σ : Nat → Event P C) (i : ι) (p q : P) (c : C) (stores : List (D → D)) (a b : Nat) :
    Prop where
  crashed : ((stateAt (step program) m₀ σ a).pc p).inSection i = true
  stopped : ∀ k, a ≤ k → k ≤ b → σ k ≠ .tick p
  order : a < b
  opens : σ a = .tick q ∧ (stateAt (step program) m₀ σ a).pc q = .entering c i stores
  inside : ∀ k, a < k → k ≤ b → ∃ rest, (stateAt (step program) m₀ σ k).pc q = .storing c i rest
  closes : σ b = .tick q ∧ (stateAt (step program) m₀ σ b).pc q = .storing c i []
  alone : ∀ k r, a < k → k < b → σ k = .tick r → r ≠ q →
    enters i (stateAt (step program) m₀ σ k) (σ k) = false ∧
      ((stateAt (step program) m₀ σ k).pc r).inSection i = false

theorem LaterSection.midway {program : C → Program ι D R} {m₀ : Machine P C ι D R}
    {σ : Nat → Event P C} {i : ι} {p q : P} {c : C} {stores : List (D → D)} {a b : Nat}
    (h : LaterSection program m₀ σ i p q c stores a b) : ∀ k, a+1 ≤ k → k ≤ b →
      ((stateAt (step program) m₀ σ k).slot i).sequence =
        ((stateAt (step program) m₀ σ a).slot i).sequence+1 ∧
      ∃ done rest, stores = done++rest ∧
        (stateAt (step program) m₀ σ k).pc q = .storing c i rest ∧
        ((stateAt (step program) m₀ σ k).slot i).fields =
          applyStores done ((stateAt (step program) m₀ σ a).slot i).fields := by
  refine between_invariant ?_ ?_
  · obtain ⟨he,hpc⟩ := h.opens
    have hs := step_tick_busy program (m := stateAt (step program) m₀ σ a) (p := q) (i := i)
      (by rw [hpc]; rfl)
    rw [stateAt_succ,he,hs,hpc]
    exact ⟨by simp [Pc.act],[],stores,rfl,by simp [Pc.act],by simp [Pc.act,applyStores]⟩
  · rintro k hak hkb ⟨hseq,done,rest,hst,hpc,hfields⟩
    obtain ⟨rest',hnext⟩ := h.inside (k+1) (by omega) (by omega)
    rw [stateAt_succ] at hnext ⊢
    obtain hs | ⟨r,c',stores',he,hr,hs⟩ | ⟨r,c',store,rest₁,he,hr,hs⟩ | ⟨r,c',he,hr,hs⟩ :=
      step_cases program i (stateAt (step program) m₀ σ k) (σ k)
    · refine ⟨by rw [hs.slot,hseq],done,rest,hst,?_,by rw [hs.slot,hfields]⟩
      rw [hnext,← hs.storing hnext,hpc]
    · have hrq : r ≠ q := by rintro rfl; rw [hpc] at hr; cases hr
      have hquiet := (h.alone k r (by omega) hkb he hrq).1
      rw [enters_iff.mpr ⟨r,c',stores',he,hr⟩] at hquiet; cases hquiet
    · by_cases hrq : r = q
      · subst r
        rw [hpc] at hr
        cases hr
        rw [hs]
        exact ⟨by simp [hseq],done++[store],rest₁,by simp [hst],by simp,
          by simp [applyStores,hfields]⟩
      · have hout := (h.alone k r (by omega) hkb he hrq).2
        simp [hr,Pc.inSection] at hout
    · by_cases hrq : r = q
      · subst r
        rw [hs] at hnext
        simp at hnext
      · have hout := (h.alone k r (by omega) hkb he hrq).2
        simp [hr,Pc.inSection] at hout

theorem LaterSection.slot_after {program : C → Program ι D R} {m₀ : Machine P C ι D R}
    {σ : Nat → Event P C} {i : ι} {p q : P} {c : C} {stores : List (D → D)} {a b : Nat}
    (h : LaterSection program m₀ σ i p q c stores a b) :
    (stateAt (step program) m₀ σ (b+1)).slot i =
        writeSection stores ((stateAt (step program) m₀ σ a).slot i) ∧
      (stateAt (step program) m₀ σ (b+1)).pc q = .returned c .done := by
  obtain ⟨he,hpc⟩ := h.closes
  obtain ⟨hseq,done,rest,hst,hpc',hfields⟩ := h.midway b (by have := h.order; omega)
    (Nat.le_refl b)
  rw [hpc] at hpc'
  cases hpc'
  have hs := step_tick_busy program (m := stateAt (step program) m₀ σ b) (p := q) (i := i)
    (by rw [hpc]; rfl)
  rw [stateAt_succ,he,hs,hpc]
  refine ⟨?_,by simp [Pc.act]⟩
  rw [List.append_nil] at hst
  simp [Pc.act,writeSection,hseq,hfields,hst]

theorem no_value_of_odd {program : C → Program ι D R} {m₀ : Machine P C ι D R}
    (hidle : ∀ p, m₀.pc p = .idle) (σ : Nat → Event P C) {k : Nat} {r : P} {c : C} {i : ι}
    {f : ReadFunc D R} {v : R} (hprog : program c = .read i f)
    (hodd : writing ((stateAt (step program) m₀ σ k).slot i).sequence = true) :
    ¬ Returns program (stateAt (step program) m₀ σ k) (σ k) r c (.value (some v)) := by
  intro hret
  obtain ⟨j,g,a,hprog',hread⟩ := reads_of_returns hidle σ hret
  rw [hprog] at hprog'
  cases hprog'
  obtain ⟨_,hret⟩ := hread.returns
  obtain ⟨c',n,seq1,hpc,hseq⟩ := returns_value (hread.runs k hread.order (Nat.le_refl k)) hret
  have heven := sampled_even_at hidle σ k hpc
  rw [hseq,hodd] at heven; cases heven

end Later

end LapCom.SeqLock
