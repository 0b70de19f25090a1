import LapCom.SeqLock.Linearizable

set_option autoImplicit false

namespace LapCom.SeqLock
open LapCom.Machine

section Calls

variable {P C ι D R : Type}

def Pc.Follows (program : C → Program ι D R) : Pc C ι D R → Prop
  | .idle => True
  | .checking c i free stores => program c = .checkedWrite i free stores
  | .entering c i stores =>
      program c = .write i stores ∨ ∃ free, program c = .checkedWrite i free stores
  | .storing c i rest => ∃ done, program c = .write i (done++rest) ∨
      ∃ free, program c = .checkedWrite i free (done++rest)
  | .sampling c i f _ => program c = .read i f
  | .copying c i f _ _ _ => program c = .read i f
  | .returned _ _ => True

def Pc.call? : Pc C ι D R → Option C
  | .idle => none
  | .checking c _ _ _ => some c
  | .entering c _ _ => some c
  | .storing c _ _ => some c
  | .sampling c _ _ _ => some c
  | .copying c _ _ _ _ _ => some c
  | .returned c _ => some c

theorem start_call? (c : C) (prog : Program ι D R) : (start c prog).call? = some c := by
  cases prog <;> rfl

theorem retry_call? (c : C) (i : ι) (f : ReadFunc D R) (n : Nat) :
    (retry c i f n).call? = some c := by
  unfold retry
  split <;> rfl

theorem act_call? (pc : Pc C ι D R) (s : Slot D) : (pc.act s).1.call? = pc.call? := by
  cases pc with
  | idle => rfl
  | returned c outcome => rfl
  | checking c i free stores => simp only [Pc.act]; split <;> rfl
  | entering c i stores => rfl
  | storing c i rest => cases rest <;> rfl
  | sampling c i f n =>
    simp only [Pc.act]
    split
    · exact retry_call? c i f n
    · rfl
  | copying c i f n seq1 rest =>
    cases rest with
    | load field next => rfl
    | ret r =>
      simp only [Pc.act]
      split
      · rfl
      · exact retry_call? c i f n

theorem start_follows (program : C → Program ι D R) (c : C) :
    (start c (program c)).Follows program := by
  cases h : program c <;> simp [start,Pc.Follows,h]

theorem retry_follows {program : C → Program ι D R} {c : C} {i : ι} {f : ReadFunc D R}
    (h : program c = .read i f) (n : Nat) : (retry c i f n).Follows program := by
  unfold retry
  split
  · trivial
  · exact h

theorem act_follows {program : C → Program ι D R} {pc : Pc C ι D R} (s : Slot D)
    (h : pc.Follows program) : (pc.act s).1.Follows program := by
  cases pc with
  | idle => exact h
  | returned c outcome => exact h
  | checking c i free stores =>
    simp only [Pc.act]
    split
    · exact .inr ⟨free,h⟩
    · trivial
  | entering c i stores => exact ⟨[],h⟩
  | storing c i rest =>
    cases rest with
    | nil => trivial
    | cons store rest =>
      obtain ⟨done,h⟩ := h
      exact ⟨done++[store],by simpa using h⟩
  | sampling c i f n =>
    simp only [Pc.act]
    split
    · exact retry_follows h n
    · exact h
  | copying c i f n seq1 rest =>
    cases rest with
    | load field next => exact h
    | ret r =>
      simp only [Pc.act]
      split
      · trivial
      · exact retry_follows h n

theorem reading_of_act {i : ι} {f : ReadFunc D R} {pc : Pc C ι D R} (s : Slot D)
    (h : (pc.act s).1.Reading i f) : pc.Reading i f := by
  obtain ⟨c,n,h⟩ := h
  cases pc with
  | idle => simp [Pc.act] at h
  | returned c' outcome => simp [Pc.act] at h
  | checking c' j free stores =>
    simp only [Pc.act] at h
    split at h <;> simp at h
  | entering c' j stores => simp [Pc.act] at h
  | storing c' j rest => cases rest <;> simp [Pc.act] at h
  | sampling c' j g n' =>
    have : j = i ∧ g = f := by
      simp only [Pc.act,retry] at h
      split at h
      · split at h <;> simp at h
        exact ⟨h.2.1,h.2.2.1⟩
      · simp at h
        exact ⟨h.2.1,h.2.2.1⟩
    obtain ⟨rfl,rfl⟩ := this
    exact ⟨c',n',.inl rfl⟩
  | copying c' j g n' seq1 rest =>
    have : j = i ∧ g = f := by
      cases rest with
      | load field next =>
        simp [Pc.act] at h
        exact ⟨h.2.1,h.2.2.1⟩
      | ret r =>
        simp only [Pc.act,retry] at h
        split at h
        · simp at h
        · split at h <;> simp at h
          exact ⟨h.2.1,h.2.2.1⟩
    obtain ⟨rfl,rfl⟩ := this
    exact ⟨c',n',.inr ⟨seq1,rest,rfl⟩⟩

def Pc.writes : Pc C ι D R → Bool
  | .checking _ _ _ _ => true
  | .entering _ _ _ => true
  | .storing _ _ _ => true
  | _ => false

theorem retry_writes (c : C) (i : ι) (f : ReadFunc D R) (n : Nat) :
    (retry c i f n).writes = false := by
  unfold retry
  split <;> rfl

theorem act_writes {pc : Pc C ι D R} (s : Slot D) (h : pc.writes = false) :
    (pc.act s).1.writes = false := by
  cases pc with
  | idle => rfl
  | returned c outcome => rfl
  | checking c i free stores => cases h
  | entering c i stores => cases h
  | storing c i rest => cases h
  | sampling c i f n =>
    simp only [Pc.act]
    split
    · exact retry_writes c i f n
    · rfl
  | copying c i f n seq1 rest =>
    cases rest with
    | load field next => rfl
    | ret r =>
      simp only [Pc.act]
      split
      · rfl
      · exact retry_writes c i f n

variable [DecidableEq ι] [DecidableEq P]

theorem step_pc_cases (program : C → Program ι D R) (m : Machine P C ι D R) (e : Event P C)
    (p : P) : (step program m e).pc p = m.pc p ∨
      (∃ c, e = .call p c ∧ (m.pc p).slot? = none ∧
        (step program m e).pc p = start c (program c)) ∨
      (∃ i, e = .tick p ∧ (m.pc p).slot? = some i ∧
        (step program m e).pc p = ((m.pc p).act (m.slot i)).1) := by
  cases e with
  | call q c =>
    cases hq : (m.pc q).slot? with
    | some j => exact .inl (by rw [step_call_busy program c hq])
    | none =>
      rw [step_call_idle program c hq]
      by_cases hp : p = q
      · subst p
        exact .inr (.inl ⟨c,rfl,hq,by simp⟩)
      · exact .inl (by simp [hp])
  | tick q =>
    cases hq : (m.pc q).slot? with
    | none => exact .inl (by rw [step_tick_idle program hq])
    | some j =>
      by_cases hp : p = q
      · subst p
        exact .inr (.inr ⟨j,rfl,hq,step_pc_self program hq⟩)
      · exact .inl (by rw [step_tick_busy program hq]; simp [hp])

theorem step_follows {program : C → Program ι D R} {m : Machine P C ι D R}
    (h : ∀ p, (m.pc p).Follows program) (e : Event P C) (p : P) :
    ((step program m e).pc p).Follows program := by
  obtain hs | ⟨c,_,_,hs⟩ | ⟨i,_,_,hs⟩ := step_pc_cases program m e p
  · rw [hs]; exact h p
  · rw [hs]; exact start_follows program c
  · rw [hs]; exact act_follows _ (h p)

theorem follows_at {program : C → Program ι D R} {m₀ : Machine P C ι D R}
    (h : ∀ p, (m₀.pc p).Follows program) (σ : Nat → Event P C) (k : Nat) (p : P) :
    ((stateAt (step program) m₀ σ k).pc p).Follows program := by
  induction k generalizing p with
  | zero => exact h p
  | succ k ih => exact step_follows ih (σ k) p

theorem calls_at {program : C → Program ι D R} {m₀ : Machine P C ι D R} {σ : Nat → Event P C}
    {n : Nat} {Q : C → Prop} (hinit : ∀ p, m₀.pc p = .idle)
    (hcalls : ∀ k, k < n → ∀ p c, σ k = .call p c → Q c) :
    ∀ k, k ≤ n → ∀ p c, ((stateAt (step program) m₀ σ k).pc p).call? = some c → Q c := by
  intro k
  induction k with
  | zero =>
    intro _ p c hc
    rw [stateAt_zero,hinit p] at hc; cases hc
  | succ k ih =>
    intro hk p c hc
    rw [stateAt_succ] at hc
    obtain hs | ⟨c',he,_,hs⟩ | ⟨i,_,_,hs⟩ := step_pc_cases program (stateAt (step program) m₀ σ k)
      (σ k) p
    · rw [hs] at hc; exact ih (by omega) p c hc
    · rw [hs,start_call?] at hc
      cases hc
      exact hcalls k (by omega) p c he
    · rw [hs,act_call?] at hc; exact ih (by omega) p c hc

theorem inRead_of_reading {program : C → Program ι D R} {m₀ : Machine P C ι D R}
    (hidle : ∀ p, (m₀.pc p).slot? = none) (σ : Nat → Event P C) (k : Nat) {p : P} {i : ι}
    {f : ReadFunc D R} (h : ((stateAt (step program) m₀ σ k).pc p).Reading i f) :
    ∃ a, InRead program m₀ σ p i f a k := by
  have hextend : ∀ k, ((stateAt (step program) m₀ σ (k+1)).pc p).Reading i f →
      (∃ a, InRead program m₀ σ p i f a k) → ∃ a, InRead program m₀ σ p i f a (k+1) := by
    rintro k hk ⟨a,ha⟩
    refine ⟨a,by have := ha.order; omega,ha.starts,fun j haj hj => ?_⟩
    obtain hj | hj := Nat.lt_or_eq_of_le hj
    · exact ha.runs j haj (by omega)
    · exact hj ▸ hk
  induction k with
  | zero =>
    have := reading_slot? h
    rw [stateAt_zero,hidle p] at this; cases this
  | succ k ih =>
    have h' := h
    rw [stateAt_succ] at h'
    obtain hs | ⟨c,_,_,hs⟩ | ⟨j,_,_,hs⟩ := step_pc_cases program (stateAt (step program) m₀ σ k)
      (σ k) p
    · rw [hs] at h'
      exact hextend k h (ih h')
    · -- the call begins in this very event
      refine ⟨k,by omega,?_,fun j hkj hj => ?_⟩
      · rw [hs] at h'
        obtain ⟨c',n,hc | ⟨seq1,rest,hc⟩⟩ := h'
        · refine ⟨c,?_⟩
          rw [stateAt_succ,hs]
          cases hprog : program c <;> simp [start,hprog] at hc ⊢
          exact ⟨hc.2.1,hc.2.2.1⟩
        · cases hprog : program c <;> simp [start,hprog] at hc
      · have : j = k+1 := by omega
        exact this ▸ h
    · rw [hs] at h'
      exact hextend k h (ih (reading_of_act _ h'))

def Returns (program : C → Program ι D R) (m : Machine P C ι D R) (e : Event P C) (p : P) (c : C)
    (outcome : Outcome R) : Prop :=
  (m.pc p).slot? ≠ none ∧ (step program m e).pc p = .returned c outcome

theorem storing_of_returns {program : C → Program ι D R} {m : Machine P C ι D R} {e : Event P C}
    {p : P} {c : C} (h : Returns program m e p c .done) :
    e = .tick p ∧ ∃ i, m.pc p = .storing c i [] := by
  obtain ⟨hbusy,hret⟩ := h
  have hretry : ∀ c' i f n, (retry c' i f n : Pc C ι D R) ≠ .returned c .done := by
    intro c' i f n
    unfold retry
    split <;> simp
  obtain hs | ⟨c',_,hs,_⟩ | ⟨j,he,hj,hs⟩ := step_pc_cases program m e p
  · rw [hs] at hret
    rw [hret] at hbusy
    exact absurd rfl hbusy
  · exact absurd hs hbusy
  · refine ⟨he,?_⟩
    rw [hs] at hret
    cases hpc : m.pc p with
    | idle => rw [hpc] at hj; cases hj
    | returned c' o => rw [hpc] at hj; cases hj
    | checking c' i free stores =>
      simp only [hpc,Pc.act] at hret
      split at hret <;> simp at hret
    | entering c' i stores => simp [hpc,Pc.act] at hret
    | storing c' i rest =>
      cases rest <;> simp [hpc,Pc.act] at hret
      exact ⟨i,by rw [hret]⟩
    | sampling c' i f n =>
      simp only [hpc,Pc.act] at hret
      split at hret
      · exact absurd hret (hretry _ _ _ _)
      · cases hret
    | copying c' i f n seq1 rest =>
      cases rest with
      | load field next => simp [hpc,Pc.act] at hret
      | ret v =>
        simp only [hpc,Pc.act] at hret
        split at hret
        · simp at hret
        · exact absurd hret (hretry _ _ _ _)

theorem reads_of_returns {program : C → Program ι D R} {m₀ : Machine P C ι D R}
    (hidle : ∀ p, m₀.pc p = .idle) (σ : Nat → Event P C) {k : Nat} {p : P} {c : C} {r : R}
    (h : Returns program (stateAt (step program) m₀ σ k) (σ k) p c (.value (some r))) :
    ∃ i f a, program c = .read i f ∧ Reads program m₀ σ p i f a k r := by
  obtain ⟨hbusy,hret⟩ := h
  have hfollow : ((stateAt (step program) m₀ σ k).pc p).Follows program :=
    follows_at (fun q => by rw [hidle q]; trivial) σ k p
  obtain hs | ⟨c',_,hs,_⟩ | ⟨j,he,hj,hs⟩ := step_pc_cases program (stateAt (step program) m₀ σ k)
    (σ k) p
  · rw [hs] at hret
    rw [hret] at hbusy
    exact absurd rfl hbusy
  · exact absurd hs hbusy
  · rw [hs] at hret
    have hvalue : ∃ i f, ((stateAt (step program) m₀ σ k).pc p).Reading i f ∧
        program c = .read i f := by
      cases hpc : (stateAt (step program) m₀ σ k).pc p with
      | idle => rw [hpc] at hj; cases hj
      | returned c' o => rw [hpc] at hj; cases hj
      | checking c' i free stores =>
        rw [hpc] at hret
        simp only [Pc.act] at hret
        split at hret <;> simp at hret
      | entering c' i stores => simp [hpc,Pc.act] at hret
      | storing c' i rest => cases rest <;> simp [hpc,Pc.act] at hret
      | sampling c' i f n =>
        rw [hpc] at hret
        simp only [Pc.act] at hret
        split at hret
        · exact absurd hret (retry_ne_value _ _ _ _ _ _)
        · cases hret
      | copying c' i f n seq1 rest =>
        rw [hpc] at hret hfollow
        cases rest with
        | load field next => cases hret
        | ret v =>
          simp only [Pc.act] at hret
          split at hret
          · cases hret
            exact ⟨i,f,⟨c,n,.inr ⟨seq1,.ret r,rfl⟩⟩,hfollow⟩
          · exact absurd hret (retry_ne_value _ _ _ _ _ _)
    obtain ⟨i,f,hreading,hprog⟩ := hvalue
    obtain ⟨a,ha⟩ := inRead_of_reading (fun q => by rw [hidle q]; rfl) σ k hreading
    refine ⟨i,f,a,hprog,ha,⟨c,?_⟩⟩
    rw [stateAt_succ,hs]
    exact hret

/-- Where one process makes all the writing calls, writers serialise. -/
theorem exclusive_of_single_writer {program : C → Program ι D R} {m₀ : Machine P C ι D R}
    {σ : Nat → Event P C} {n : Nat} (w : P) (hinit : ∀ q, q ≠ w → (m₀.pc q).writes = false)
    (hcalls : ∀ k, k < n → ∀ q c, q ≠ w → σ k = .call q c → (start c (program c)).writes = false)
    (i : ι) : ∀ k, k < n → Exclusive i (stateAt (step program) m₀ σ k) (σ k) := by
  have hreaders : ∀ k, k ≤ n → ∀ q, q ≠ w →
      ((stateAt (step program) m₀ σ k).pc q).writes = false := by
    intro k
    induction k with
    | zero => intro _; exact hinit
    | succ k ih =>
      intro hk q hq
      have hold := ih (by omega) q hq
      rw [stateAt_succ]
      obtain hs | ⟨c,he,_,hs⟩ | ⟨j,_,_,hs⟩ := step_pc_cases program
        (stateAt (step program) m₀ σ k) (σ k) q
      · rw [hs]; exact hold
      · rw [hs]; exact hcalls k (by omega) q c hq he
      · rw [hs]; exact act_writes _ hold
  intro k hk henter q
  obtain ⟨p,c,stores,_,hp⟩ := enters_iff.mp henter
  have hpw : p = w := by
    by_contra hne
    have := hreaders k (by omega) p hne
    rw [hp] at this; cases this
  by_cases hq : q = w
  · rw [hq,← hpw,hp]; rfl
  · cases hpc : (stateAt (step program) m₀ σ k).pc q with
    | storing c' j rest =>
      have := hreaders k (by omega) q hq
      rw [hpc] at this; cases this
    | _ => rfl

theorem opened_le (program : C → Program ι D R) (m₀ : Machine P C ι D R) (σ : Nat → Event P C)
    (i : ι) (k : Nat) : opened program m₀ σ i k ≤ k :=
  Nat.count_le _

instance [Fintype P] (i : ι) (m : Machine P C ι D R) : Decidable (Quiet i m) :=
  inferInstanceAs (Decidable (∀ q, (m.pc q).inSection i = false))

end Calls

end LapCom.SeqLock
