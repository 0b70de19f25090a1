import LapCom.SeqLock.Protocol

set_option autoImplicit false

namespace LapCom.SeqLock
open LapCom.Machine

/-- `SeqLockReader::Read` on a slot nobody touches, with the attempts it has left. -/
def readLoop {D R : Type} (f : ReadFunc D R) (s : Slot D) : Nat → Option R
  | 0 => none
  | attempts+1 => if writing s.sequence then readLoop f s attempts else some (f.eval s)

def read {D R : Type} (f : ReadFunc D R) (s : Slot D) : Option R := readLoop f s (maxRetryCount+1)

theorem readLoop_eq {D R : Type} (f : ReadFunc D R) (s : Slot D) (attempts : Nat) :
    readLoop f s attempts =
      if writing s.sequence ∨ attempts = 0 then none else some (f.eval s) := by
  induction attempts with
  | zero => simp [readLoop]
  | succ attempts ih =>
    cases hw : writing s.sequence with
    | true => simp [readLoop,ih,hw]
    | false => simp [readLoop,hw]

theorem read_eq {D R : Type} (f : ReadFunc D R) (s : Slot D) :
    read f s = if writing s.sequence then none else some (f.eval s) := by
  simp [read,readLoop_eq]

section Alone

variable {P C ι D R : Type}

def actN : Nat → Pc C ι D R × Slot D → Pc C ι D R × Slot D
  | 0, x => x
  | n+1, x => actN n (x.1.act x.2)

def Settles (x y : Pc C ι D R × Slot D) : Prop := ∃ n, actN n x = y

theorem Settles.refl (x : Pc C ι D R × Slot D) : Settles x x := ⟨0,rfl⟩

theorem Settles.step {x y : Pc C ι D R × Slot D} (h : Settles (x.1.act x.2) y) : Settles x y := by
  obtain ⟨n,hn⟩ := h
  exact ⟨n+1,hn⟩

theorem settles_storing (c : C) (i : ι) (stores : List (D → D)) (s : Slot D) :
    Settles (.storing c i stores,s)
      ((.returned c .done,⟨s.sequence+1,applyStores stores s.fields⟩) : Pc C ι D R × Slot D) := by
  induction stores generalizing s with
  | nil => exact .step (.refl _)
  | cons store stores ih =>
    refine .step ?_
    simpa [Pc.act,applyStores] using ih { s with fields := store s.fields }

theorem settles_entering (c : C) (i : ι) (stores : List (D → D)) (s : Slot D) :
    Settles (.entering c i stores,s)
      ((.returned c .done,writeSection stores s) : Pc C ι D R × Slot D) :=
  .step (settles_storing c i stores { s with sequence := s.sequence+1 })

theorem settles_copying (c : C) (i : ι) (f rest : ReadFunc D R) (n : Nat) (s : Slot D) :
    Settles (.copying c i f n s.sequence rest,s) (.returned c (.value (some (rest.eval s))),s) := by
  induction rest with
  | ret r => refine .step ?_; simpa [Pc.act,ReadFunc.eval] using Settles.refl _
  | load field next ih => exact .step (ih (field s))

theorem settles_sampling (c : C) (i : ι) (f : ReadFunc D R) (s : Slot D) (n attempts : Nat)
    (hn : n+attempts = maxRetryCount+1) (hpos : 0 < attempts) :
    Settles (.sampling c i f n,s) (.returned c (.value (readLoop f s attempts)),s) := by
  induction attempts generalizing n with
  | zero => omega
  | succ attempts ih =>
    refine .step ?_
    cases hw : writing s.sequence with
    | false => simpa [Pc.act,hw,readLoop] using settles_copying c i f f n s
    | true =>
      simp only [Pc.act,hw,if_true,readLoop]
      cases attempts with
      | zero =>
        have hgive : n+1 > maxRetryCount := by omega
        simpa [retry,hgive,readLoop] using Settles.refl _
      | succ attempts =>
        have hgo : ¬ n+1 > maxRetryCount := by omega
        simpa only [retry,if_neg hgo] using ih (n+1) (by omega) (by omega)

theorem act_slot? {i : ι} {pc : Pc C ι D R} (s : Slot D)
    (h : pc.slot? = some i ∨ pc.slot? = none) :
    (pc.act s).1.slot? = some i ∨ (pc.act s).1.slot? = none := by
  cases pc with
  | idle => exact h
  | returned c o => exact h
  | checking c j free stores =>
    simp only [Pc.act]; split
    · exact h
    · exact .inr rfl
  | entering c j stores => exact h
  | storing c j stores =>
    cases stores with
    | nil => exact .inr rfl
    | cons store stores => exact h
  | sampling c j f n =>
    simp only [Pc.act,retry]; split
    · split
      · exact .inr rfl
      · exact h
    · exact h
  | copying c j f n seq1 rest =>
    cases rest with
    | load field next => exact h
    | ret r =>
      simp only [Pc.act,retry]; split
      · exact .inr rfl
      · split
        · exact .inr rfl
        · exact h

variable [DecidableEq ι]

def soloRun : Program ι D R → (ι → Slot D) → Outcome R × (ι → Slot D)
  | .reject, slot => (.rejected,slot)
  | .write i stores, slot => (.done,Function.update slot i (writeSection stores (slot i)))
  | .checkedWrite i free stores, slot =>
      if free (slot i).fields then
        (.done,Function.update slot i (writeSection stores (slot i)))
      else (.refused,slot)
  | .read i f, slot => (.value (read f (slot i)),slot)

variable [DecidableEq P]

def place (m : Machine P C ι D R) (p : P) (i : ι) (x : Pc C ι D R × Slot D) :
    Machine P C ι D R :=
  ⟨Function.update m.slot i x.2,Function.update m.pc p x.1⟩

theorem step_place (program : C → Program ι D R) (m : Machine P C ι D R) (p : P) (i : ι)
    (x : Pc C ι D R × Slot D) (h : x.1.slot? = some i ∨ x.1.slot? = none) :
    step program (place m p i x) (.tick p) = place m p i (x.1.act x.2) := by
  have hpc : (place m p i x).pc p = x.1 := Function.update_self _ _ _
  obtain h | h := h
  · rw [step_tick_busy program (i := i) (by rw [hpc,h])]
    simp [place]
  · rw [step_tick_idle program (by rw [hpc,h])]
    obtain ⟨pc,s⟩ := x
    cases pc <;> first | rfl | simp [Pc.slot?] at h

def alone (program : C → Program ι D R) (p : P) (m : Machine P C ι D R) (n : Nat) :
    Machine P C ι D R :=
  stateAt (step program) m (fun _ => .tick p) n

theorem alone_succ (program : C → Program ι D R) (p : P) (m : Machine P C ι D R) (n : Nat) :
    alone program p m (n+1) = alone program p (step program m (.tick p)) n := by
  have h := stateAt_add (step program) m (fun _ => .tick p) 1 n
  rw [Nat.add_comm] at h
  exact h

theorem alone_place (program : C → Program ι D R) (m : Machine P C ι D R) (p : P) (i : ι)
    (n : Nat) (x : Pc C ι D R × Slot D) (h : x.1.slot? = some i ∨ x.1.slot? = none) :
    alone program p (place m p i x) n = place m p i (actN n x) := by
  induction n generalizing x with
  | zero => rfl
  | succ n ih => rw [alone_succ,step_place program m p i x h,ih _ (act_slot? x.2 h)]; rfl

theorem alone_outcome {program : C → Program ι D R} {p : P} {m : Machine P C ι D R} {n n' : Nat}
    {c : C} {o o' : Outcome R} (h : (alone program p m n).pc p = .returned c o)
    (h' : (alone program p m n').pc p = .returned c o') : o = o' := by
  have hstay : ∀ (m : Machine P C ι D R) k, (m.pc p).slot? = none → alone program p m k = m := by
    intro m k hm
    induction k with
    | zero => rfl
    | succ k ih => rw [alone_succ,step_tick_idle program hm,ih]
  have hlater : ∀ n k o, (alone program p m n).pc p = .returned c o →
      (alone program p m (n+k)).pc p = .returned c o := by
    intro n k o hn
    have hadd : alone program p m (n+k) = alone program p (alone program p m n) k :=
      stateAt_add (step program) m (fun _ => .tick p) n k
    rw [hadd,hstay _ k (by rw [hn]; rfl),hn]
  have h₁ := hlater n n' o h
  have h₂ := hlater n' n o' h'
  rw [Nat.add_comm,h₂] at h₁
  cases h₁; rfl

theorem solo_returns (program : C → Program ι D R) (m : Machine P C ι D R) (p : P) (c : C)
    (hidle : (m.pc p).slot? = none) :
    ∃ n, alone program p (step program m (.call p c)) n =
      ⟨(soloRun (program c) m.slot).2,
        Function.update m.pc p (.returned c (soloRun (program c) m.slot).1)⟩ := by
  have hcall := step_call_idle program c hidle
  have hplace : ∀ i, (start c (program c)).slot? = some i →
      step program m (.call p c) = place m p i (start c (program c),m.slot i) := by
    intro i _
    rw [hcall]; simp [place]
  cases hprog : program c with
  | reject => exact ⟨0,by rw [hcall,hprog]; rfl⟩
  | write i stores =>
    obtain ⟨n,hn⟩ := settles_entering (R := R) c i stores (m.slot i)
    refine ⟨n,?_⟩
    rw [hplace i (by rw [hprog]; rfl),alone_place,hprog,start,hn]
    · rfl
    · rw [hprog]; exact .inl rfl
  | checkedWrite i free stores =>
    rw [hplace i (by rw [hprog]; rfl),hprog,start]
    by_cases hfree : free (m.slot i).fields = true
    · obtain ⟨n,hn⟩ := settles_entering (R := R) c i stores (m.slot i)
      refine ⟨n+1,?_⟩
      rw [alone_place _ _ _ _ _ _ (.inl rfl),actN]
      simp only [Pc.act,hfree,if_true,hn,soloRun]; rfl
    · refine ⟨1,?_⟩
      rw [alone_place _ _ _ _ _ _ (.inl rfl),actN]
      simp [Pc.act,hfree,soloRun,actN,place]
  | read i f =>
    obtain ⟨n,hn⟩ := settles_sampling (ι := ι) c i f (m.slot i) 0 (maxRetryCount+1) (by omega)
      (by omega)
    refine ⟨n,?_⟩
    rw [hplace i (by rw [hprog]; rfl),alone_place,hprog,start,hn]
    · simp [place,soloRun,read]
    · rw [hprog]; exact .inl rfl

end Alone

end LapCom.SeqLock
