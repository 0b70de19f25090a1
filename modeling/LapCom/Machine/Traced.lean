import Mathlib.Tactic.TypeStar

set_option autoImplicit false

namespace LapCom.Machine

/-- A computation on a state `S` that records what it does. -/
def Traced (S A α : Type) : Type := S → α × S × List A

namespace Traced
variable {S A α β : Type}

def run (m : Traced S A α) (s : S) : α × S × List A := m s

instance : Monad (Traced S A) where
  pure a := fun s => (a,s,[])
  bind m f := fun s =>
    (((f (m.run s).1).run (m.run s).2.1).1,((f (m.run s).1).run (m.run s).2.1).2.1,
      (m.run s).2.2 ++ ((f (m.run s).1).run (m.run s).2.1).2.2)

def state : Traced S A S := fun s => (s,s,[])

def record (a : A) : Traced S A Unit := fun s => ((),s,[a])

@[simp] theorem run_pure (a : α) (s : S) : (pure a : Traced S A α).run s = (a,s,[]) := rfl

@[simp] theorem run_bind (m : Traced S A α) (f : α → Traced S A β) (s : S) : (m >>= f).run s =
    (((f (m.run s).1).run (m.run s).2.1).1,((f (m.run s).1).run (m.run s).2.1).2.1,
      (m.run s).2.2 ++ ((f (m.run s).1).run (m.run s).2.1).2.2) := rfl

@[simp] theorem run_state (s : S) : (state : Traced S A S).run s = (s,s,[]) := rfl

@[simp] theorem run_record (a : A) (s : S) :
    (record a : Traced S A Unit).run s = ((),s,[a]) := rfl

/-- From a state in `P` the computation ends in `Q`, and all that it records is `Ok`. -/
def Triple (Ok : A → Prop) (P : S → Prop) (m : Traced S A α) (Q : α → S → Prop) : Prop :=
  ∀ s, P s → Q (m.run s).1 (m.run s).2.1 ∧ ∀ a ∈ (m.run s).2.2, Ok a

variable {Ok : A → Prop} {P : S → Prop}

theorem Triple.pure {a : α} {Q : α → S → Prop} (h : ∀ s, P s → Q a s) :
    Triple Ok P (Pure.pure a) Q := by
  intro s hs
  exact ⟨h s hs,by simp⟩

theorem Triple.bind {m : Traced S A α} {f : α → Traced S A β} {Q : α → S → Prop}
    {R : β → S → Prop} (hm : Triple Ok P m Q) (hf : ∀ a, Triple Ok (Q a) (f a) R) :
    Triple Ok P (m >>= f) R := by
  intro s hs
  obtain ⟨hq,hfirst⟩ := hm s hs
  obtain ⟨hr,hrest⟩ := hf _ _ hq
  refine ⟨hr,fun a ha => ?_⟩
  rcases List.mem_append.mp ha with ha | ha
  · exact hfirst a ha
  · exact hrest a ha

theorem Triple.state {Q : S → S → Prop} (h : ∀ s, P s → Q s s) :
    Triple Ok P (Traced.state : Traced S A S) Q := by
  intro s hs
  exact ⟨h s hs,by simp⟩

theorem Triple.record {a : A} (h : Ok a) :
    Triple Ok P (Traced.record a : Traced S A Unit) fun _ => P := by
  intro s hs
  exact ⟨hs,by simp [h]⟩

theorem Triple.weaken {m : Traced S A α} {P' : S → Prop} {Q Q' : α → S → Prop}
    (h : Triple Ok P m Q) (hP : ∀ s, P' s → P s) (hQ : ∀ a s, Q a s → Q' a s) :
    Triple Ok P' m Q' := by
  intro s hs
  obtain ⟨hq,hok⟩ := h s (hP s hs)
  exact ⟨hQ _ _ hq,hok⟩

theorem Triple.ite {c : Prop} [Decidable c] {m n : Traced S A α} {Q : α → S → Prop}
    (hm : c → Triple Ok P m Q) (hn : ¬ c → Triple Ok P n Q) :
    Triple Ok P (if c then m else n) Q := by
  split
  · exact hm ‹c›
  · exact hn ‹¬ c›

end Traced

end LapCom.Machine
