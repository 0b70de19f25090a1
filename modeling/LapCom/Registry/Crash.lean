import LapCom.Registry.Exclusion
import LapCom.SeqLock.Crash
import Mathlib.Algebra.Ring.Parity
import Mathlib.Tactic.IntervalCases

set_option autoImplicit false

namespace LapCom.Registry
open LapCom.SeqLock LapCom.Machine

section Crash

variable {P : Type} [DecidableEq P]

/-- No call that reads slot `i` returns a value between the events `a` and `b`. -/
def NoReturnWithin (i : SlotIndex) (σ : Nat → CallEvent P) (a b : Nat) : Prop :=
  ∀ k, a < k → k < b → ∀ r c f v, Call.program c = .read i f →
    ¬ Returns Call.program (sharedAt σ k) (σ k) r c (.value (some v))

def Readable (i : SlotIndex) (σ : Nat → CallEvent P) (b : Nat) (s : ServiceSlot) : Prop :=
  ∀ r c f, Call.program c = .read i f → ((sharedAt σ (b+1)).pc r).slot? = none →
    ∃ n, (alone Call.program r (step Call.program (sharedAt σ (b+1)) (.call r c)) n).pc r =
      .returned c (.value (some (f.eval s)))

theorem validSlot_of_entering {σ : Nat → CallEvent P} {k : Nat} {q : P} {c : Call} {i : SlotIndex}
    {stores : List (SlotFields → SlotFields)} (h : (sharedAt σ k).pc q = .entering c i stores) :
    ∃ x, validSlot? x = some i := by
  have hfollow := sharedAt_follows σ k q
  rw [h] at hfollow
  obtain ⟨x,_,_,hx,_⟩ | ⟨x,_,hx,_⟩ | ⟨x,_,_,hx⟩ := writing_call hfollow <;> exact ⟨x,hx⟩

theorem alone_reads (m : SharedBank P) {r : P} {c : Call} {i : SlotIndex}
    {f : ReadFunc SlotFields ServiceSlot} (hprog : c.program = .read i f)
    (hidle : (m.pc r).slot? = none) :
    ∃ n, (alone Call.program r (step Call.program m (.call r c)) n).pc r =
      .returned c (.value
        (if writing (m.slot i).sequence then none else some (f.eval (m.slot i)))) := by
  obtain ⟨n,hn⟩ := solo_returns Call.program m r c hidle
  refine ⟨n,?_⟩
  rw [hn]
  simp [soloRun,hprog,read_eq]

theorem unreadable_of_odd {i : SlotIndex} {σ : Nat → CallEvent P} {b : Nat} {x : BitVec 32} {r : P}
    (hx : validSlot? x = some i) (hidle : ((sharedAt σ (b+1)).pc r).slot? = none)
    (hodd : writing ((sharedAt σ (b+1)).slot i).sequence = true) (s : ServiceSlot) :
    ¬ Readable i σ b s := by
  intro hread
  have hprog : (Call.readSlot x).program = .read i copySlot := by simp [Call.program,onValid,hx]
  obtain ⟨n,hn⟩ := hread r _ _ hprog hidle
  obtain ⟨n',hn'⟩ := alone_reads _ hprog hidle
  have := alone_outcome hn hn'
  rw [hodd] at this
  cases this

/-- A section after crashed ones is safe just when an even number of processes
was left inside. -/
theorem crashed_writer_iff [Fintype P] (σ : Nat → CallEvent P) (i : SlotIndex) (p q : P) (c : Call)
    (stores : List (SlotFields → SlotFields)) (a b : Nat)
    (h : LaterSection Call.program SharedBank.fresh σ i p q c stores a b) :
    (NoReturnWithin i σ a b ∧ Readable i σ b (writeSection stores ((sharedAt σ a).slot i))) ↔
      Even (inside i (sharedAt σ a)).card := by
  have hparity : writing ((sharedAt σ a).slot i).sequence = true ↔
      Odd (inside i (sharedAt σ a)).card :=
    oddInside_at (show writing 0 = false by decide) (fun _ => rfl) σ a
  obtain ⟨hafter,hreturned⟩ : (sharedAt σ (b+1)).slot i =
      writeSection stores ((sharedAt σ a).slot i) ∧ (sharedAt σ (b+1)).pc q = .returned c .done :=
    h.slot_after
  have hseq : writing ((sharedAt σ (b+1)).slot i).sequence =
      writing ((sharedAt σ a).slot i).sequence := by
    rw [hafter]
    simp [writeSection,writing_succ]
  rw [← Nat.not_odd_iff_even,← hparity]
  constructor
  · rintro ⟨_,hread⟩ hodd
    obtain ⟨x,hx⟩ := validSlot_of_entering h.opens.2
    exact unreadable_of_odd hx (by rw [hreturned]; rfl) (hseq.trans hodd) _ hread
  · intro heven
    refine ⟨fun k hak hkb r c' f v hprog => ?_,fun r c' f hprog hidle => ?_⟩
    · refine no_value_of_odd (fun _ => rfl) σ hprog ?_
      rw [(h.midway k hak (by omega)).1]
      simpa [writing_succ,sharedAt] using heven
    · obtain ⟨n,hn⟩ := alone_reads _ hprog hidle
      refine ⟨n,?_⟩
      rw [hn,hseq,if_neg heven,hafter]

end Crash

section Abandoned

inductive Peer where
  | stopped
  | writer
  | reader
  deriving DecidableEq

instance : Fintype Peer := ⟨{.stopped,.writer,.reader},fun p => by cases p <;> decide⟩

def abandoned : Nat → CallEvent Peer :=
  schedule (.call .stopped (.registerService 1 (plainRegistration 1 1)) ::
    List.replicate 4 (.tick .stopped)++
    .call .writer (.registerService 1 (plainRegistration 1025 2)) ::
    List.replicate 3 (.tick .writer)++
    .call .reader (.readSlot 1) :: List.replicate 14 (.tick .reader)++
    List.replicate 12 (.tick .writer)) (.tick .reader)

theorem abandoned_laterSection : LaterSection Call.program SharedBank.fresh abandoned slotOne
    .stopped .writer (.registerService 1 (plainRegistration 1025 2))
    (registerStores (plainRegistration 1025 2)) 7 35 := by
  refine ⟨by decide +kernel,?_,by omega,⟨rfl,rfl⟩,?_,⟨rfl,rfl⟩,?_⟩
  · intro k h₁ h₂
    interval_cases k <;> intro he <;> cases he
  · intro k h₁ h₂
    interval_cases k <;> exact ⟨_,rfl⟩
  · intro k r h₁ h₂ he hr
    interval_cases k <;> cases he <;> first | exact absurd rfl hr | exact ⟨rfl,rfl⟩

def leftoverSlot : ServiceSlot := ⟨2,{ SlotFields.empty with serviceId := 1025, instanceId := 1 }⟩

theorem crashed_writer_iff_abandoned : (NoReturnWithin slotOne abandoned 7 35 ∧
    Readable slotOne abandoned 35 (writeSection (registerStores (plainRegistration 1025 2))
      ((sharedAt abandoned 7).slot slotOne))) ↔ Even (inside slotOne (sharedAt abandoned 7)).card :=
  crashed_writer_iff abandoned slotOne .stopped .writer _ _ 7 35 abandoned_laterSection

theorem crashed_writer_tears :
    LaterSection Call.program SharedBank.fresh abandoned slotOne .stopped .writer
      (.registerService 1 (plainRegistration 1025 2)) (registerStores (plainRegistration 1025 2))
      7 35 ∧
    ¬ NoReturnWithin slotOne abandoned 7 35 ∧
    ¬ Readable slotOne abandoned 35 (writeSection (registerStores (plainRegistration 1025 2))
      ((sharedAt abandoned 7).slot slotOne)) := by
  refine ⟨abandoned_laterSection,fun h => ?_,?_⟩
  · exact h 23 (by omega) (by omega) .reader (.readSlot 1) copySlot leftoverSlot rfl
      ⟨by decide +kernel,rfl⟩
  · exact unreadable_of_odd (x := 1) (r := .writer) rfl rfl (by decide +kernel) _

end Abandoned

end LapCom.Registry
