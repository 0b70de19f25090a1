import LapCom.SeqLock.Protocol
import Mathlib.Tactic.IntervalCases

set_option autoImplicit false

namespace LapCom.SeqLock
open LapCom.Machine

section Runs

variable {P C ι D R : Type}

def Pc.Reading (i : ι) (f : ReadFunc D R) (pc : Pc C ι D R) : Prop :=
  ∃ c n, pc = .sampling c i f n ∨ ∃ seq1 rest, pc = .copying c i f n seq1 rest

theorem reading_slot? {i : ι} {f : ReadFunc D R} {pc : Pc C ι D R} (h : pc.Reading i f) :
    pc.slot? = some i := by
  obtain ⟨c,n,rfl | ⟨seq1,rest,rfl⟩⟩ := h <;> rfl

theorem retry_ne_copying (c c' : C) (i j : ι) (f g rest : ReadFunc D R) (n n' : Nat)
    (seq1 : BitVec 64) : retry c i f n ≠ .copying c' j g n' seq1 rest := by
  unfold retry
  split <;> simp

theorem retry_ne_value (c c' : C) (i : ι) (f : ReadFunc D R) (n : Nat) (r : R) :
    retry c i f n ≠ .returned c' (.value (some r)) := by
  unfold retry
  split <;> simp

variable [DecidableEq ι]

def Balanced (i : ι) (m : Machine P C ι D R) (opened closed : Nat) : Prop :=
  (Quiet i m ∧ opened = closed) ∨
    ∃ p, (∀ q, (m.pc q).inSection i = true ↔ q = p) ∧ opened = closed+1

theorem Balanced.closed_le {i : ι} {m : Machine P C ι D R} {opened closed : Nat}
    (h : Balanced i m opened closed) : closed ≤ opened := by
  obtain ⟨_,h⟩ | ⟨_,_,h⟩ := h <;> omega

theorem Balanced.quiet_iff {i : ι} {m : Machine P C ι D R} {opened closed : Nat}
    (h : Balanced i m opened closed) : Quiet i m ↔ opened = closed := by
  obtain ⟨hq,h⟩ | ⟨p,hp,h⟩ := h
  · simp [hq,h]
  · constructor
    · intro hq
      have := (hp p).mpr rfl
      rw [hq p] at this; cases this
    · omega

variable [DecidableEq P]

def opened (program : C → Program ι D R) (m₀ : Machine P C ι D R) (σ : Nat → Event P C) (i : ι)
    (k : Nat) : Nat :=
  Nat.count (fun j => enters i (stateAt (step program) m₀ σ j) (σ j) = true) k

def closed (program : C → Program ι D R) (m₀ : Machine P C ι D R) (σ : Nat → Event P C) (i : ι)
    (k : Nat) : Nat :=
  Nat.count (fun j => leaves i (stateAt (step program) m₀ σ j) (σ j) = true) k

theorem opened_succ (program : C → Program ι D R) (m₀ : Machine P C ι D R)
    (σ : Nat → Event P C) (i : ι) (k : Nat) : opened program m₀ σ i (k+1) =
      opened program m₀ σ i k +
        if enters i (stateAt (step program) m₀ σ k) (σ k) = true then 1 else 0 :=
  Nat.count_succ _ _

theorem closed_succ (program : C → Program ι D R) (m₀ : Machine P C ι D R)
    (σ : Nat → Event P C) (i : ι) (k : Nat) : closed program m₀ σ i (k+1) =
      closed program m₀ σ i k +
        if leaves i (stateAt (step program) m₀ σ k) (σ k) = true then 1 else 0 :=
  Nat.count_succ _ _

theorem opened_mono (program : C → Program ι D R) (m₀ : Machine P C ι D R) (σ : Nat → Event P C)
    (i : ι) {a b : Nat} (h : a ≤ b) : opened program m₀ σ i a ≤ opened program m₀ σ i b :=
  Nat.count_monotone _ h

theorem closed_mono (program : C → Program ι D R) (m₀ : Machine P C ι D R) (σ : Nat → Event P C)
    (i : ι) {a b : Nat} (h : a ≤ b) : closed program m₀ σ i a ≤ closed program m₀ σ i b :=
  Nat.count_monotone _ h

theorem step_sequence (program : C → Program ι D R) (i : ι) (m : Machine P C ι D R)
    (e : Event P C) : ((step program m e).slot i).sequence = (m.slot i).sequence +
      BitVec.ofNat 64 ((if enters i m e = true then 1 else 0) +
        (if leaves i m e = true then 1 else 0)) := by
  obtain hs | ⟨p,c,stores,rfl,hp,hs⟩ | ⟨p,c,store,stores,rfl,hp,hs⟩ | ⟨p,c,rfl,hp,hs⟩ :=
    step_cases program i m e
  · simp [hs.slot,hs.no_enter,hs.no_leave]
  · simp [hs,enters,leaves,hp]
  · simp [hs,enters,leaves,hp]
  · simp [hs,enters,leaves,hp]

/-- The counter counts constructors and destructors, whatever the schedule. -/
theorem sequence_at (program : C → Program ι D R) (m₀ : Machine P C ι D R)
    (σ : Nat → Event P C) (i : ι) (k : Nat) :
    ((stateAt (step program) m₀ σ k).slot i).sequence = (m₀.slot i).sequence +
      BitVec.ofNat 64 (opened program m₀ σ i k+closed program m₀ σ i k) := by
  induction k with
  | zero => simp [opened,closed]
  | succ k ih =>
    rw [stateAt_succ,step_sequence,ih,opened_succ,closed_succ,BitVec.add_assoc,
      ← BitVec.ofNat_add]
    congr 2
    omega

theorem Balanced.step {program : C → Program ι D R} {i : ι} {m : Machine P C ι D R}
    {e : Event P C} {opened closed : Nat} (h : Balanced i m opened closed)
    (he : Exclusive i m e) :
    Balanced i (step program m e) (opened+if enters i m e = true then 1 else 0)
      (closed+if leaves i m e = true then 1 else 0) := by
  obtain hs | ⟨p,c,stores,rfl,hp,hs⟩ | ⟨p,c,store,stores,rfl,hp,hs⟩ | ⟨p,c,rfl,hp,hs⟩ :=
    step_cases program i m e
  · simpa [Balanced,Quiet,hs.sections,hs.no_enter,hs.no_leave] using h
  · have hin : enters i m (.tick p) = true := enters_iff.mpr ⟨p,c,stores,rfl,hp⟩
    have hquiet := he hin
    have heq := h.quiet_iff.mp hquiet
    refine .inr ⟨p,fun q => ?_,?_⟩
    · rw [hs]
      by_cases hq : q = p
      · simp [hq,Pc.inSection]
      · simp [hq,hquiet q]
    · simp [hin,leaves,hp,heq]
  · have hsame : ∀ q, ((SeqLock.step program m (.tick p)).pc q).inSection i =
        (m.pc q).inSection i := by
      intro q
      rw [hs]
      by_cases hq : q = p
      · simp [hq,hp,Pc.inSection]
      · simp [hq]
    simpa [Balanced,Quiet,hsame,enters,leaves,hp] using h
  · have hin : (m.pc p).inSection i = true := by simp [hp,Pc.inSection]
    obtain ⟨hq,_⟩ | ⟨q,hq,hcount⟩ := h
    · rw [hq p] at hin; cases hin
    · have hpq := (hq p).mp hin
      subst hpq
      refine .inl ⟨fun r => ?_,?_⟩
      · rw [hs]
        by_cases hr : r = p
        · simp [hr,Pc.inSection]
        · have := (hq r).not.mpr hr
          simpa [hr] using this
      · simp [enters,leaves,hp,hcount]

theorem balanced_at {program : C → Program ι D R} {m₀ : Machine P C ι D R}
    {σ : Nat → Event P C} {i : ι} {n : Nat} (hquiet : Quiet i m₀)
    (hex : ∀ k, k < n → Exclusive i (stateAt (step program) m₀ σ k) (σ k)) :
    ∀ k, k ≤ n → Balanced i (stateAt (step program) m₀ σ k) (opened program m₀ σ i k)
      (closed program m₀ σ i k) := by
  intro k hk
  refine between_invariant (a := 0) (b := k)
    (I := fun j => Balanced i (stateAt (step program) m₀ σ j) (opened program m₀ σ i j)
      (closed program m₀ σ i j)) ?_ ?_ k (Nat.zero_le k) (Nat.le_refl k)
  · exact .inl ⟨hquiet,by simp [opened,closed]⟩
  · intro j _ hj hb
    rw [opened_succ,closed_succ]
    exact hb.step (hex j (by omega))

theorem quiet_stable {program : C → Program ι D R} {m₀ : Machine P C ι D R}
    {σ : Nat → Event P C} {i : ι} {a b : Nat} (hab : a ≤ b)
    (hquiet : Quiet i (stateAt (step program) m₀ σ a))
    (hcount : opened program m₀ σ i b = opened program m₀ σ i a) :
    Quiet i (stateAt (step program) m₀ σ b) ∧
      (stateAt (step program) m₀ σ b).slot i = (stateAt (step program) m₀ σ a).slot i := by
  refine between_invariant (a := a) (b := b)
    (I := fun k => Quiet i (stateAt (step program) m₀ σ k) ∧
      (stateAt (step program) m₀ σ k).slot i = (stateAt (step program) m₀ σ a).slot i)
    ⟨hquiet,rfl⟩ ?_ b hab (Nat.le_refl b)
  rintro k hak hkb ⟨hq,hslot⟩
  have hun := unmarked_of_count_eq hak hkb hcount
  rw [stateAt_succ]
  obtain hs | ⟨p,c,stores,he,hp,_⟩ | ⟨p,c,store,stores,_,hp,_⟩ | ⟨p,c,_,hp,_⟩ :=
    step_cases program i (stateAt (step program) m₀ σ k) (σ k)
  · exact ⟨fun q => by rw [hs.sections q,hq q],by rw [hs.slot,hslot]⟩
  · exact absurd (enters_iff.mpr ⟨p,c,stores,he,hp⟩) hun
  · have := hq p; simp [hp,Pc.inSection] at this
  · have := hq p; simp [hp,Pc.inSection] at this

structure InRead (program : C → Program ι D R) (m₀ : Machine P C ι D R) (σ : Nat → Event P C)
    (p : P) (i : ι) (f : ReadFunc D R) (a b : Nat) : Prop where
  order : a < b
  starts : ∃ c, (stateAt (step program) m₀ σ (a+1)).pc p = .sampling c i f 0
  runs : ∀ k, a < k → k ≤ b → ((stateAt (step program) m₀ σ k).pc p).Reading i f

structure Reads (program : C → Program ι D R) (m₀ : Machine P C ι D R) (σ : Nat → Event P C)
    (p : P) (i : ι) (f : ReadFunc D R) (a b : Nat) (r : R) : Prop
    extends InRead program m₀ σ p i f a b where
  returns : ∃ c, (stateAt (step program) m₀ σ (b+1)).pc p = .returned c (.value (some r))

theorem quiet_of_even {program : C → Program ι D R} {m₀ : Machine P C ι D R}
    {σ : Nat → Event P C} {i : ι} {k : Nat} (heven : writing (m₀.slot i).sequence = false)
    (hb : Balanced i (stateAt (step program) m₀ σ k) (opened program m₀ σ i k)
      (closed program m₀ σ i k))
    (hseq : writing ((stateAt (step program) m₀ σ k).slot i).sequence = false) :
    Quiet i (stateAt (step program) m₀ σ k) := by
  have h₀ := (writing_iff (m₀.slot i).sequence).not.mp (by simp [heven])
  have h₁ := (writing_iff ((stateAt (step program) m₀ σ k).slot i).sequence).not.mp (by simp [hseq])
  rw [sequence_at,BitVec.toNat_add,BitVec.toNat_ofNat] at h₁
  apply hb.quiet_iff.mpr
  obtain ⟨_,h⟩ | ⟨_,_,h⟩ := hb
  · exact h
  · omega

/-- Equal samples of the counter less than `2^63` sections apart are one sample. -/
theorem same_sections {program : C → Program ι D R} {m₀ : Machine P C ι D R}
    {σ : Nat → Event P C} {i : ι} {t b : Nat} (htb : t ≤ b)
    (ht : opened program m₀ σ i t = closed program m₀ σ i t)
    (hb : closed program m₀ σ i b ≤ opened program m₀ σ i b)
    (hfew : opened program m₀ σ i b < opened program m₀ σ i t+2^63)
    (hseq : ((stateAt (step program) m₀ σ t).slot i).sequence =
      ((stateAt (step program) m₀ σ b).slot i).sequence) :
    opened program m₀ σ i b = opened program m₀ σ i t := by
  have hopen := opened_mono program m₀ σ i htb
  have hclose := closed_mono program m₀ σ i htb
  rw [sequence_at,sequence_at] at hseq
  have h := congrArg BitVec.toNat (BitVec.add_right_inj (m₀.slot i).sequence |>.mp hseq)
  simp only [BitVec.toNat_ofNat] at h
  omega

/-- The copy a reader has made so far continues, on the contents at some quiet
moment of its call, to the value of the whole read function there, unless a
constructor has run since. -/
def CopySupported (program : C → Program ι D R) (m₀ : Machine P C ι D R) (σ : Nat → Event P C)
    (i : ι) (f : ReadFunc D R) (a k : Nat) (seq1 : BitVec 64) (rest : ReadFunc D R) : Prop :=
  ∃ t, a < t ∧ t ≤ k ∧ Quiet i (stateAt (step program) m₀ σ t) ∧
    ((stateAt (step program) m₀ σ t).slot i).sequence = seq1 ∧
    (opened program m₀ σ i k = opened program m₀ σ i t →
      rest.eval ((stateAt (step program) m₀ σ t).slot i) =
        f.eval ((stateAt (step program) m₀ σ t).slot i))

theorem CopySupported.later {program : C → Program ι D R} {m₀ : Machine P C ι D R}
    {σ : Nat → Event P C} {i : ι} {f : ReadFunc D R} {a k : Nat} {seq1 : BitVec 64}
    {rest : ReadFunc D R} (h : CopySupported program m₀ σ i f a k seq1 rest) :
    CopySupported program m₀ σ i f a (k+1) seq1 rest := by
  obtain ⟨t,hat,htk,hq,hseq,heval⟩ := h
  refine ⟨t,hat,by omega,hq,hseq,fun hcount => heval ?_⟩
  have h₁ := opened_mono program m₀ σ i htk
  have h₂ := opened_mono program m₀ σ i (Nat.le_add_right k 1)
  omega

theorem CopySupported.load {program : C → Program ι D R} {m₀ : Machine P C ι D R}
    {σ : Nat → Event P C} {i : ι} {f : ReadFunc D R} {a k : Nat} {seq1 : BitVec 64} {α : Type}
    {field : Slot D → α} {next : α → ReadFunc D R}
    (h : CopySupported program m₀ σ i f a k seq1 (.load field next)) :
    CopySupported program m₀ σ i f a (k+1) seq1
      (next (field ((stateAt (step program) m₀ σ k).slot i))) := by
  obtain ⟨t,hat,htk,hq,hseq,heval⟩ := h
  refine ⟨t,hat,by omega,hq,hseq,fun hcount => ?_⟩
  have h₁ := opened_mono program m₀ σ i htk
  have h₂ := opened_mono program m₀ σ i (Nat.le_add_right k 1)
  have hcount' : opened program m₀ σ i k = opened program m₀ σ i t := by omega
  rw [(quiet_stable htk hq hcount').2]
  exact heval hcount'

theorem copy_supported {program : C → Program ι D R} {m₀ : Machine P C ι D R}
    {σ : Nat → Event P C} {p : P} {i : ι} {f : ReadFunc D R} {a b : Nat}
    (heven : writing (m₀.slot i).sequence = false) (hquiet : Quiet i m₀)
    (hex : ∀ k, k < b → Exclusive i (stateAt (step program) m₀ σ k) (σ k))
    (hread : InRead program m₀ σ p i f a b) :
    ∀ k, a+1 ≤ k → k ≤ b → ∀ c n seq1 rest,
      (stateAt (step program) m₀ σ k).pc p = .copying c i f n seq1 rest →
        CopySupported program m₀ σ i f a k seq1 rest := by
  refine between_invariant ?_ ?_
  · intro c n seq1 rest hpc
    obtain ⟨c',hstart⟩ := hread.starts
    rw [hstart] at hpc; cases hpc
  · intro k hak hkb ih c n seq1 rest hpc
    have hreading := hread.runs k (by omega) (by omega)
    have hslot := reading_slot? hreading
    rw [stateAt_succ] at hpc
    by_cases he : σ k = .tick p
    · rw [he,step_pc_self program hslot] at hpc
      obtain ⟨c',n',hk | ⟨seq1',rest',hk⟩⟩ := hreading
      · -- the first load of the sequence: the copy starts on what is there now
        rw [hk,Pc.act] at hpc
        cases hw : writing ((stateAt (step program) m₀ σ k).slot i).sequence with
        | true =>
          simp only [hw,if_true] at hpc
          exact absurd hpc (retry_ne_copying _ _ _ _ _ _ _ _ _ _)
        | false =>
          simp only [hw,Bool.false_eq_true,if_false,Pc.copying.injEq] at hpc
          obtain ⟨rfl,_,_,rfl,rfl,rfl⟩ := hpc
          have hbal := balanced_at hquiet (n := k) (fun j hj => hex j (by omega)) k (Nat.le_refl k)
          exact ⟨k,by omega,by omega,quiet_of_even heven hbal hw,rfl,fun _ => rfl⟩
      · cases rest' with
        | load field next =>
          rw [hk,Pc.act] at hpc
          simp only [Pc.copying.injEq] at hpc
          obtain ⟨rfl,_,_,rfl,rfl,rfl⟩ := hpc
          exact (ih _ _ _ _ hk).load
        | ret v =>
          rw [hk,Pc.act] at hpc
          by_cases hs : seq1' = ((stateAt (step program) m₀ σ k).slot i).sequence
          · simp [hs] at hpc
          · simp only [hs,if_false] at hpc
            exact absurd hpc (retry_ne_copying _ _ _ _ _ _ _ _ _ _)
    · rw [step_pc_other program hslot he] at hpc
      exact (ih _ _ _ _ hpc).later

theorem returns_value {program : C → Program ι D R} {m : Machine P C ι D R} {e : Event P C}
    {p : P} {i : ι} {f : ReadFunc D R} {c : C} {r : R} (h : (m.pc p).Reading i f)
    (hret : (step program m e).pc p = .returned c (.value (some r))) :
    ∃ c' n seq1, m.pc p = .copying c' i f n seq1 (.ret r) ∧ seq1 = (m.slot i).sequence := by
  have hslot := reading_slot? h
  by_cases he : e = .tick p
  · rw [he,step_pc_self program hslot] at hret
    obtain ⟨c',n,hk | ⟨seq1,rest,hk⟩⟩ := h
    · rw [hk,Pc.act] at hret
      cases hw : writing (m.slot i).sequence with
      | true => simp only [hw,if_true] at hret; exact absurd hret (retry_ne_value _ _ _ _ _ _)
      | false => simp [hw] at hret
    · cases rest with
      | load field next => rw [hk,Pc.act] at hret; cases hret
      | ret v =>
        rw [hk,Pc.act] at hret
        by_cases hs : seq1 = (m.slot i).sequence
        · simp only [hs,if_true,Pc.returned.injEq,Outcome.value.injEq,Option.some.injEq] at hret
          obtain ⟨_,rfl⟩ := hret
          exact ⟨c',n,seq1,hk,hs⟩
        · simp only [hs,if_false] at hret
          exact absurd hret (retry_ne_value _ _ _ _ _ _)
  · rw [step_pc_other program hslot he] at hret
    obtain ⟨c',n,hk | ⟨seq1,rest,hk⟩⟩ := h <;> rw [hk] at hret <;> cases hret

theorem Reads.snapshot {program : C → Program ι D R} {m₀ : Machine P C ι D R}
    {σ : Nat → Event P C} {p : P} {i : ι} {f : ReadFunc D R} {a b : Nat} {r : R}
    (hread : Reads program m₀ σ p i f a b r)
    (heven : writing (m₀.slot i).sequence = false) (hquiet : Quiet i m₀)
    (hex : ∀ k, k < b → Exclusive i (stateAt (step program) m₀ σ k) (σ k))
    (hfew : opened program m₀ σ i b < opened program m₀ σ i a+2^63) :
    ∃ t, a < t ∧ t ≤ b ∧ Quiet i (stateAt (step program) m₀ σ t) ∧
      r = f.eval ((stateAt (step program) m₀ σ t).slot i) := by
  have hab := hread.order
  have hreading := hread.runs b hab (Nat.le_refl b)
  obtain ⟨c,hret⟩ := hread.returns
  -- only the second load of the sequence returns a value, and it saw the first one again
  obtain ⟨c',n,seq1,hpc,hseq⟩ : ∃ c' n seq1, (stateAt (step program) m₀ σ b).pc p =
      .copying c' i f n seq1 (.ret r) ∧
        seq1 = ((stateAt (step program) m₀ σ b).slot i).sequence :=
    returns_value hreading hret
  obtain ⟨t,hat,htb,hq,hseqt,heval⟩ :=
    copy_supported heven hquiet hex hread.toInRead b (by omega) (Nat.le_refl b) c' n seq1 (.ret r)
      hpc
  refine ⟨t,hat,htb,hq,heval ?_⟩
  have hbalt := balanced_at hquiet (fun j hj => hex j (by omega)) t (Nat.le_refl t)
  have hbalb := balanced_at hquiet hex b (Nat.le_refl b)
  have hmono := opened_mono program m₀ σ i (show a ≤ t by omega)
  exact same_sections htb (hbalt.quiet_iff.mp hq) hbalb.closed_le (by omega)
    (by rw [hseqt,hseq])

/-- Where writers serialise, what `Read` returns is its read function applied to
the slot at one quiet moment of the call. -/
theorem read_linearizable (program : C → Program ι D R) (m₀ : Machine P C ι D R)
    (σ : Nat → Event P C) (p : P) (i : ι) (f : ReadFunc D R) (a b : Nat) (r : R)
    (heven : writing (m₀.slot i).sequence = false) (hquiet : Quiet i m₀)
    (hex : ∀ k, k < b → Exclusive i (stateAt (step program) m₀ σ k) (σ k))
    (hread : Reads program m₀ σ p i f a b r)
    (hfew : opened program m₀ σ i b < opened program m₀ σ i a+2^63) :
    ∃ t, a < t ∧ t ≤ b ∧ Quiet i (stateAt (step program) m₀ σ t) ∧
      r = f.eval ((stateAt (step program) m₀ σ t).slot i) :=
  hread.snapshot heven hquiet hex hfew

end Runs

section Sample

def pairProgram : Bool → Program Unit (Nat × Nat) (Nat × Nat)
  | true => .write () [fun d => (1,d.2),fun d => (d.1,2)]
  | false => .read () (.load (fun s => s.fields.1) fun x =>
      .load (fun s => s.fields.2) fun y => .ret (x,y))

def pairStart : Machine Bool Bool Unit (Nat × Nat) (Nat × Nat) :=
  ⟨fun _ => ⟨0,(0,0)⟩,fun _ => .idle⟩

def pairEvents : Nat → Event Bool Bool :=
  schedule [.call false false,.call true true,.tick true,.tick false,.tick true,.tick true,
    .tick true,.tick false,.tick false,.tick false,.tick false] (.call true false)

theorem read_linearizable_pair : ∃ t, 0 < t ∧ t ≤ 10 ∧
    Quiet () (stateAt (step pairProgram) pairStart pairEvents t) ∧
      (1,2) = ReadFunc.eval (.load (fun s => s.fields.1) fun x =>
        .load (fun s => s.fields.2) fun y => .ret (x,y))
          ((stateAt (step pairProgram) pairStart pairEvents t).slot ()) := by
  refine read_linearizable pairProgram pairStart pairEvents false () _ 0 10 (1,2) (by decide)
    (fun _ => rfl) ?_ ⟨⟨by omega,⟨false,rfl⟩,?_⟩,⟨false,rfl⟩⟩ ?_
  · intro k hk
    interval_cases k <;> intro he <;> first | (cases he; done) | (intro q; cases q <;> rfl)
  · intro k h₁ h₂
    interval_cases k
    all_goals first
      | exact ⟨false,_,.inl rfl⟩
      | exact ⟨false,_,.inr ⟨_,_,rfl⟩⟩
  · decide

end Sample

end LapCom.SeqLock
