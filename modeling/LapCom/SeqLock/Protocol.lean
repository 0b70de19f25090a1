import LapCom.Machine.Run
import Mathlib.Logic.Function.Basic

set_option autoImplicit false

namespace LapCom.SeqLock

/-- A slot in shared memory: the sequence counter and the fields it guards. -/
structure Slot (D : Type) where
  sequence : BitVec 64
  fields : D
  deriving DecidableEq, Repr

def writing (sequence : BitVec 64) : Bool := sequence &&& 1 = 1

theorem writing_iff (sequence : BitVec 64) : writing sequence = true ↔ sequence.toNat%2 = 1 := by
  have h : (sequence &&& 1).toNat = sequence.toNat%2 := by
    rw [BitVec.toNat_and]
    exact Nat.and_one_is_mod _
  rw [writing,decide_eq_true_iff,← BitVec.toNat_inj,h]; rfl

theorem writing_succ (sequence : BitVec 64) : writing (sequence+1#64) = !writing sequence := by
  have h₀ := writing_iff sequence
  have h₁ := writing_iff (sequence+1#64)
  rw [BitVec.toNat_add,show (1#64).toNat = 1 from rfl] at h₁
  cases hw : writing sequence with
  | true =>
    have := h₀.mp hw
    have hn : ¬ writing (sequence+1#64) = true := by rw [h₁]; omega
    simpa using hn
  | false =>
    have : ¬ sequence.toNat%2 = 1 := fun h => by simp [h₀.mpr h] at hw
    have hn : writing (sequence+1#64) = true := by rw [h₁]; omega
    simpa using hn

/-- A read function, one load at a time. What it loads next may depend on what
it has loaded so far. -/
inductive ReadFunc (D R : Type) : Type 1 where
  | ret : R → ReadFunc D R
  | load {α : Type} : (Slot D → α) → (α → ReadFunc D R) → ReadFunc D R

def ReadFunc.eval {D R : Type} : ReadFunc D R → Slot D → R
  | .ret r, _ => r
  | .load field k, s => (k (field s)).eval s

def applyStores {D : Type} (stores : List (D → D)) (d : D) : D :=
  stores.foldl (fun d store => store d) d

def writeSection {D : Type} (stores : List (D → D)) (s : Slot D) : Slot D :=
  ⟨s.sequence+1+1,applyStores stores s.fields⟩

/-- What a call does to shared memory: a write section (the stores made between
the constructor and the destructor of `SeqLockWriter`), such a section behind a
check of the unlocked slot, or a `SeqLockReader::Read`. -/
inductive Program (ι D R : Type) : Type 1 where
  | reject : Program ι D R
  | write : ι → List (D → D) → Program ι D R
  | checkedWrite : ι → (D → Bool) → List (D → D) → Program ι D R
  | read : ι → ReadFunc D R → Program ι D R

inductive Outcome (R : Type) where
  | rejected
  | refused
  | done
  | value : Option R → Outcome R
  deriving DecidableEq, Repr

/-- Where a process stands in its call `c`: before the check, before the
constructor, before the next store (the destructor when none is left), before
the first load of the sequence, before the next load of the read function (the
second load of the sequence when none is left). -/
inductive Pc (C ι D R : Type) : Type 1 where
  | idle : Pc C ι D R
  | checking (c : C) (i : ι) (free : D → Bool) (stores : List (D → D)) : Pc C ι D R
  | entering (c : C) (i : ι) (stores : List (D → D)) : Pc C ι D R
  | storing (c : C) (i : ι) (stores : List (D → D)) : Pc C ι D R
  | sampling (c : C) (i : ι) (f : ReadFunc D R) (retryCount : Nat) : Pc C ι D R
  | copying (c : C) (i : ι) (f : ReadFunc D R) (retryCount : Nat) (seq1 : BitVec 64)
      (rest : ReadFunc D R) : Pc C ι D R
  | returned (c : C) (outcome : Outcome R) : Pc C ι D R

def maxRetryCount : Nat := 1000

section Steps

variable {P C ι D R : Type}

/-- `++retry_count > MAX_RETRY_COUNT` gives up, otherwise the loop starts over. -/
def retry (c : C) (i : ι) (f : ReadFunc D R) (retryCount : Nat) : Pc C ι D R :=
  if retryCount+1 > maxRetryCount then .returned c (.value none)
  else .sampling c i f (retryCount+1)

def start (c : C) : Program ι D R → Pc C ι D R
  | .reject => .returned c .rejected
  | .write i stores => .entering c i stores
  | .checkedWrite i free stores => .checking c i free stores
  | .read i f => .sampling c i f 0

def Pc.slot? : Pc C ι D R → Option ι
  | .idle => none
  | .checking _ i _ _ => some i
  | .entering _ i _ => some i
  | .storing _ i _ => some i
  | .sampling _ i _ _ => some i
  | .copying _ i _ _ _ _ => some i
  | .returned _ _ => none

def Pc.act : Pc C ι D R → Slot D → Pc C ι D R × Slot D
  | .idle, s => (.idle,s)
  | .checking c i free stores, s =>
      (if free s.fields then .entering c i stores else .returned c .refused,s)
  | .entering c i stores, s => (.storing c i stores,{ s with sequence := s.sequence+1 })
  | .storing c i (store :: stores), s =>
      (.storing c i stores,{ s with fields := store s.fields })
  | .storing c _ [], s => (.returned c .done,{ s with sequence := s.sequence+1 })
  | .sampling c i f n, s =>
      (if writing s.sequence then retry c i f n else .copying c i f n s.sequence f,s)
  | .copying c i f n seq1 (.load field k), s => (.copying c i f n seq1 (k (field s)),s)
  | .copying c i f n seq1 (.ret r), s =>
      (if seq1 = s.sequence then .returned c (.value (some r)) else retry c i f n,s)
  | .returned c outcome, s => (.returned c outcome,s)

structure Machine (P C ι D R : Type) : Type 1 where
  slot : ι → Slot D
  pc : P → Pc C ι D R

inductive Event (P C : Type) where
  | call : P → C → Event P C
  | tick : P → Event P C
  deriving DecidableEq, Repr

variable [DecidableEq ι]

def Pc.inSection (i : ι) : Pc C ι D R → Bool
  | .storing _ j _ => j = i
  | _ => false

def enters (i : ι) (m : Machine P C ι D R) : Event P C → Bool
  | .call _ _ => false
  | .tick p => match m.pc p with
    | .entering _ j _ => j = i
    | _ => false

def leaves (i : ι) (m : Machine P C ι D R) : Event P C → Bool
  | .call _ _ => false
  | .tick p => match m.pc p with
    | .storing _ j [] => j = i
    | _ => false

def Quiet (i : ι) (m : Machine P C ι D R) : Prop := ∀ q, (m.pc q).inSection i = false

/-- Writers serialise: a constructor runs only where no section is in progress. -/
def Exclusive (i : ι) (m : Machine P C ι D R) (e : Event P C) : Prop :=
  enters i m e = true → Quiet i m

theorem start_inSection (c : C) (i : ι) (prog : Program ι D R) :
    (start c prog).inSection i = false := by
  cases prog <;> rfl

theorem retry_inSection (c : C) (i j : ι) (f : ReadFunc D R) (n : Nat) :
    (retry c j f n).inSection i = false := by
  unfold retry
  split <;> rfl

theorem inSection_of_idle {i : ι} {pc : Pc C ι D R} (h : pc.slot? = none) :
    pc.inSection i = false := by
  cases pc <;> first | rfl | simp [Pc.slot?] at h

theorem enters_iff {i : ι} {m : Machine P C ι D R} {e : Event P C} :
    enters i m e = true ↔ ∃ p c stores, e = .tick p ∧ m.pc p = .entering c i stores := by
  cases e with
  | call p c => simp [enters]
  | tick p => cases hp : m.pc p <;> simp [enters,hp]

variable [DecidableEq P]

/-- A process inside a call ignores a new call, one outside ignores a tick. -/
def step (program : C → Program ι D R) (m : Machine P C ι D R) :
    Event P C → Machine P C ι D R
  | .call p c =>
      match (m.pc p).slot? with
      | none => { m with pc := Function.update m.pc p (start c (program c)) }
      | some _ => m
  | .tick p =>
      match (m.pc p).slot? with
      | none => m
      | some i =>
        let next := (m.pc p).act (m.slot i)
        ⟨Function.update m.slot i next.2,Function.update m.pc p next.1⟩

theorem step_call_busy (program : C → Program ι D R) {m : Machine P C ι D R} {p : P} {i : ι}
    (c : C) (h : (m.pc p).slot? = some i) : step program m (.call p c) = m := by
  simp [step,h]

theorem step_call_idle (program : C → Program ι D R) {m : Machine P C ι D R} {p : P} (c : C)
    (h : (m.pc p).slot? = none) : step program m (.call p c) =
      { m with pc := Function.update m.pc p (start c (program c)) } := by
  simp [step,h]

theorem step_tick_busy (program : C → Program ι D R) {m : Machine P C ι D R} {p : P} {i : ι}
    (h : (m.pc p).slot? = some i) : step program m (.tick p) =
      ⟨Function.update m.slot i ((m.pc p).act (m.slot i)).2,
        Function.update m.pc p ((m.pc p).act (m.slot i)).1⟩ := by
  simp [step,h]

theorem step_tick_idle (program : C → Program ι D R) {m : Machine P C ι D R} {p : P}
    (h : (m.pc p).slot? = none) : step program m (.tick p) = m := by
  simp [step,h]

theorem step_pc_other (program : C → Program ι D R) {m : Machine P C ι D R} {p : P} {i : ι}
    {e : Event P C} (h : (m.pc p).slot? = some i) (he : e ≠ .tick p) :
    (step program m e).pc p = m.pc p := by
  cases e with
  | call q c =>
    cases hq : (m.pc q).slot? with
    | none =>
      have hne : p ≠ q := by rintro rfl; rw [h] at hq; cases hq
      rw [step_call_idle program c hq]
      exact Function.update_of_ne hne _ _
    | some j => rw [step_call_busy program c hq]
  | tick q =>
    have hne : p ≠ q := by rintro rfl; exact he rfl
    cases hq : (m.pc q).slot? with
    | none => rw [step_tick_idle program hq]
    | some j =>
      rw [step_tick_busy program hq]
      exact Function.update_of_ne hne _ _

theorem step_pc_self (program : C → Program ι D R) {m : Machine P C ι D R} {p : P} {i : ι}
    (h : (m.pc p).slot? = some i) :
    (step program m (.tick p)).pc p = ((m.pc p).act (m.slot i)).1 := by
  rw [step_tick_busy program h]
  exact Function.update_self _ _ _

structure Silent (program : C → Program ι D R) (i : ι) (m : Machine P C ι D R)
    (e : Event P C) : Prop where
  no_enter : enters i m e = false
  no_leave : leaves i m e = false
  slot : (step program m e).slot i = m.slot i
  pc : ∀ q, (step program m e).pc q = m.pc q ∨
    ((step program m e).pc q).inSection i = false ∧ (m.pc q).inSection i = false

theorem Silent.sections {program : C → Program ι D R} {i : ι} {m : Machine P C ι D R}
    {e : Event P C} (h : Silent program i m e) (q : P) :
    ((step program m e).pc q).inSection i = (m.pc q).inSection i := by
  obtain hq | ⟨h₁,h₂⟩ := h.pc q
  · rw [hq]
  · rw [h₁,h₂]

theorem Silent.storing {program : C → Program ι D R} {i : ι} {m : Machine P C ι D R}
    {e : Event P C} (h : Silent program i m e) {q : P} {c : C} {stores : List (D → D)}
    (hq : (step program m e).pc q = .storing c i stores) : m.pc q = .storing c i stores := by
  obtain hsame | ⟨h₁,_⟩ := h.pc q
  · rw [← hsame,hq]
  · simp [hq,Pc.inSection] at h₁

theorem silent_of_tick {program : C → Program ι D R} {i : ι} {m : Machine P C ι D R} {p : P}
    (henter : enters i m (.tick p) = false) (hleave : leaves i m (.tick p) = false)
    (hpc : (m.pc p).inSection i = false)
    (hslot : ∀ j, (m.pc p).slot? = some j →
      ((m.pc p).act (m.slot j)).1.inSection i = false ∧
        (j = i → ((m.pc p).act (m.slot j)).2 = m.slot j)) : Silent program i m (.tick p) := by
  refine ⟨henter,hleave,?_,fun q => ?_⟩
  · cases hp : (m.pc p).slot? with
    | none => rw [step_tick_idle program hp]
    | some j =>
      rw [step_tick_busy program hp]
      by_cases hj : i = j
      · subst j
        simpa using (hslot i hp).2 rfl
      · exact Function.update_of_ne hj _ _
  · cases hp : (m.pc p).slot? with
    | none => rw [step_tick_idle program hp]; exact .inl rfl
    | some j =>
      rw [step_tick_busy program hp]
      by_cases hq : q = p
      · subst q
        exact .inr ⟨by simpa using (hslot j hp).1,hpc⟩
      · exact .inl (by simp [hq])

theorem silent_of_call (program : C → Program ι D R) (i : ι) (m : Machine P C ι D R) (p : P)
    (c : C) : Silent program i m (.call p c) := by
  cases hp : (m.pc p).slot? with
  | none =>
    have hs := step_call_idle program c hp
    refine ⟨rfl,rfl,by rw [hs],fun q => ?_⟩
    rw [hs]
    by_cases hq : q = p
    · subst q
      exact .inr ⟨by simp [start_inSection],inSection_of_idle hp⟩
    · exact .inl (by simp [hq])
  | some j =>
    have hs := step_call_busy program c hp
    exact ⟨rfl,rfl,by rw [hs],fun q => .inl (by rw [hs])⟩

theorem step_cases (program : C → Program ι D R) (i : ι) (m : Machine P C ι D R)
    (e : Event P C) :
    Silent program i m e ∨
    (∃ p c stores, e = .tick p ∧ m.pc p = .entering c i stores ∧ step program m e =
      ⟨Function.update m.slot i { m.slot i with sequence := (m.slot i).sequence+1 },
        Function.update m.pc p (.storing c i stores)⟩) ∨
    (∃ p c store stores, e = .tick p ∧ m.pc p = .storing c i (store :: stores) ∧
      step program m e =
        ⟨Function.update m.slot i { m.slot i with fields := store (m.slot i).fields },
          Function.update m.pc p (.storing c i stores)⟩) ∨
    (∃ p c, e = .tick p ∧ m.pc p = .storing c i [] ∧ step program m e =
      ⟨Function.update m.slot i { m.slot i with sequence := (m.slot i).sequence+1 },
        Function.update m.pc p (.returned c .done)⟩) := by
  cases e with
  | call p c => exact .inl (silent_of_call program i m p c)
  | tick p =>
    cases hp : m.pc p with
    | idle => exact .inl (silent_of_tick (by simp [enters,hp]) (by simp [leaves,hp])
        (by rw [hp]; rfl) (by simp [hp,Pc.slot?]))
    | returned c o => exact .inl (silent_of_tick (by simp [enters,hp]) (by simp [leaves,hp])
        (by rw [hp]; rfl) (by simp [hp,Pc.slot?]))
    | checking c j free stores =>
      refine .inl (silent_of_tick (by simp [enters,hp]) (by simp [leaves,hp]) (by rw [hp]; rfl) ?_)
      intro k _
      simp only [hp,Pc.act,implies_true,and_true]
      split <;> rfl
    | sampling c j f n =>
      refine .inl (silent_of_tick (by simp [enters,hp]) (by simp [leaves,hp]) (by rw [hp]; rfl) ?_)
      intro k _
      simp only [hp,Pc.act,implies_true,and_true]
      split
      · exact retry_inSection c i j f n
      · rfl
    | copying c j f n seq1 rest =>
      refine .inl (silent_of_tick (by simp [enters,hp]) (by simp [leaves,hp]) (by rw [hp]; rfl) ?_)
      intro k _
      cases rest with
      | load field next => simp [hp,Pc.act,Pc.inSection]
      | ret r =>
        simp only [hp,Pc.act,implies_true,and_true]
        split
        · rfl
        · exact retry_inSection c i j f n
    | entering c j stores =>
      by_cases hj : j = i
      · subst j
        refine .inr (.inl ⟨p,c,stores,rfl,hp,?_⟩)
        rw [step_tick_busy program (i := i) (by rw [hp]; rfl),hp]; rfl
      · refine .inl (silent_of_tick (by simp [enters,hp,hj]) (by simp [leaves,hp])
          (by rw [hp]; rfl) ?_)
        intro k hk
        simp only [hp,Pc.slot?,Option.some.injEq] at hk
        subst k
        simp [hp,Pc.act,Pc.inSection,hj]
    | storing c j stores =>
      by_cases hj : j = i
      · subst j
        have hs := step_tick_busy program (p := p) (m := m) (i := i) (by rw [hp]; rfl)
        cases stores with
        | nil => exact .inr (.inr (.inr ⟨p,c,rfl,hp,by rw [hs,hp]; rfl⟩))
        | cons store stores =>
          exact .inr (.inr (.inl ⟨p,c,store,stores,rfl,hp,by rw [hs,hp]; rfl⟩))
      · refine .inl (silent_of_tick (by simp [enters,hp]) ?_ (by simp [hp,Pc.inSection,hj]) ?_)
        · cases stores <;> simp [leaves,hp,hj]
        · intro k hk
          simp only [hp,Pc.slot?,Option.some.injEq] at hk
          subst k
          cases stores <;> simp [hp,Pc.act,Pc.inSection,hj]

end Steps

end LapCom.SeqLock
