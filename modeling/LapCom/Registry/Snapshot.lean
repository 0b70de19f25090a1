import LapCom.Registry.SingleRegistry
import LapCom.SeqLock.Calls
import Mathlib.Data.Fintype.Basic
import Mathlib.Tactic.IntervalCases

set_option autoImplicit false

namespace LapCom.Registry
open LapCom.SeqLock LapCom.Machine

def Call.answer : Call → Outcome ServiceSlot → Option ServiceSlot
  | .findService _, outcome => foundOf outcome
  | .readSlot _, outcome => slotOf outcome
  | _, _ => none

theorem onValid_read {slotIndex : BitVec 32}
    {body : SlotIndex → Program SlotIndex SlotFields ServiceSlot} {i : SlotIndex}
    {f : ReadFunc SlotFields ServiceSlot} (h : onValid slotIndex body = .read i f) :
    ∃ j, body j = .read i f := by
  unfold onValid at h
  split at h
  · cases h
  · exact ⟨_,h⟩

theorem answer_value {c : Call} {i : SlotIndex} {f : ReadFunc SlotFields ServiceSlot}
    {s found : ServiceSlot} (hprog : c.program = .read i f)
    (h : c.answer (.value (some (f.eval s))) = some found) : found = s := by
  cases c with
  | findService id =>
    obtain ⟨j,hj⟩ := onValid_read hprog
    cases hj
    simp only [Call.answer,foundOf,slotOf,eval_findFunc] at h
    by_cases hfound : s.fields.serviceId = id ∧ s.fields.isActive = true
    · simp only [if_pos hfound,SingleRegistry.filterFound] at h
      split at h <;> simp at h
      exact h.symm
    · simp [hfound,SingleRegistry.filterFound,ServiceSlot.new,SlotFields.empty] at h
  | readSlot slotIndex =>
    obtain ⟨j,hj⟩ := onValid_read hprog
    cases hj
    simpa [Call.answer,slotOf] using h.symm
  | registerService slotIndex r => cases h
  | unregisterService slotIndex => cases h
  | updateHeartbeat slotIndex t => cases h

theorem answer_some {c : Call} {outcome : Outcome ServiceSlot} {found : ServiceSlot}
    (h : c.answer outcome = some found) : ∃ s, outcome = .value (some s) := by
  cases c <;> cases outcome <;>
    simp_all [Call.answer,foundOf,slotOf,SingleRegistry.filterFound]
  rename_i v
  cases v <;> simp_all

section Shared

variable {P : Type} [DecidableEq P]

def SharedBank.fresh : SharedBank P := ⟨Bank.fresh,fun _ => .idle⟩

def sharedAt (σ : Nat → CallEvent P) (k : Nat) : SharedBank P :=
  stateAt (step Call.program) SharedBank.fresh σ k

/-- Whatever slot a call hands out in event `k` was in the registry at a moment
without a writer. -/
def SnapshotAt (σ : Nat → CallEvent P) (k : Nat) : Prop :=
  ∀ p c outcome found, Returns Call.program (sharedAt σ k) (σ k) p c outcome →
    c.answer outcome = some found →
      ∃ i f t, c.program = .read i f ∧ t ≤ k ∧ Quiet i (sharedAt σ t) ∧
        (sharedAt σ t).slot i = found

/-- No call of `Read` before event `n` overlaps `2^63` write sections. -/
def ShortReads (σ : Nat → CallEvent P) (n : Nat) : Prop :=
  ∀ p i f a b, b < n → InRead Call.program SharedBank.fresh σ p i f a b →
    opened Call.program SharedBank.fresh σ i b < opened Call.program SharedBank.fresh σ i a+2^63

theorem shortReads_of_lt {n : Nat} (hn : n < 2^63) (σ : Nat → CallEvent P) : ShortReads σ n := by
  intro p i f a b hb _
  have := opened_le Call.program SharedBank.fresh σ i b
  omega

/-- Where writers serialise, readers of the registry see whole registrations. -/
theorem snapshot_of_serialised (σ : Nat → CallEvent P) (n : Nat)
    (hser : ∀ k, k < n → ∀ i, Exclusive i (sharedAt σ k) (σ k)) (hshort : ShortReads σ n) :
    ∀ k, k < n → SnapshotAt σ k := by
  intro k hk p c outcome found hret hanswer
  obtain ⟨s,rfl⟩ := answer_some hanswer
  obtain ⟨i,f,a,hprog,hread⟩ := reads_of_returns (fun _ => rfl) σ hret
  obtain ⟨t,_,htk,hquiet,hs⟩ := hread.snapshot (show writing 0 = false by decide) (fun _ => rfl)
    (fun j hj => hser j (by omega) i) (hshort p i f a k hk hread.toInRead)
  rw [hs] at hanswer
  exact ⟨i,f,t,hprog,htk,hquiet,(answer_value hprog hanswer).symm⟩

end Shared

section Settled

def settled : Nat → CallEvent Bool :=
  schedule (.call true (.registerService 1 (plainRegistration 1 1)) ::
    List.replicate 15 (.tick true)++
    .call false (.readSlot 1) :: List.replicate 14 (.tick false)) (.tick false)

theorem snapshot_of_settled : ShortReads settled 31 ∧ ∀ k, k < 31 → SnapshotAt settled k := by
  have hshort := shortReads_of_lt (show 31 < 2^63 by omega) settled
  refine ⟨hshort,snapshot_of_serialised settled 31 (fun k hk i => ?_) hshort⟩
  refine exclusive_of_single_writer true (fun q _ => rfl) ?_ i k hk
  intro j hj q c hq he
  interval_cases j <;> cases he <;> first | rfl | exact absurd rfl hq

def overlap : Nat → CallEvent (Fin 3) :=
  schedule ([.call 0 (.registerService 1 (plainRegistration 1 1)),
    .call 1 (.registerService 1 (plainRegistration 1025 2)),.tick 0,.tick 1,.tick 0,.tick 1,
    .tick 0,.tick 0,.tick 1,.call 2 (.readSlot 1)]++List.replicate 14 (.tick 2)) (.tick 2)

def mixedSlot : ServiceSlot := ⟨2,{ SlotFields.empty with serviceId := 1025, instanceId := 1 }⟩

theorem overlapping_registrations_mix :
    Returns Call.program (sharedAt overlap 23) (overlap 23) 2 (.readSlot 1)
      (.value (some mixedSlot)) ∧ ¬ SnapshotAt overlap 23 := by
  have hret : Returns Call.program (sharedAt overlap 23) (overlap 23) 2 (.readSlot 1)
      (.value (some mixedSlot)) := ⟨by decide +kernel,rfl⟩
  refine ⟨hret,fun h => ?_⟩
  obtain ⟨i,f,t,hprog,ht,hquiet,hslot⟩ := h 2 (.readSlot 1) _ mixedSlot hret rfl
  cases hprog
  have hnever : ∀ t, t < 24 → Quiet ⟨1,by decide⟩ (sharedAt overlap t) →
      ((sharedAt overlap t).slot ⟨1,by decide⟩).fields.serviceId ≠ 1025 := by decide +kernel
  exact hnever t (by omega) hquiet (congrArg (fun s => s.fields.serviceId) hslot)

end Settled

end LapCom.Registry
