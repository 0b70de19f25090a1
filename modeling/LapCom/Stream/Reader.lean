import Mathlib.Data.List.Basic
import Mathlib.Tactic.TypeStar

set_option autoImplicit false

namespace LapCom.Stream

variable {α S : Type*}

/-- Units on their way to one reader. `cut k` says that a call which gets as far
as `k` units from here returns there, whatever it asked for. -/
structure Reader (α : Type*) where
  input : List α
  cut : Nat → Bool

def stop (cut : Nat → Bool) : Nat → Nat
  | 0 => 0
  | n+1 => if cut 1 then 1 else stop (fun k => cut (k+1)) n+1

theorem stop_le (cut : Nat → Bool) (n : Nat) : stop cut n ≤ n := by
  induction n generalizing cut with
  | zero => exact Nat.le_refl 0
  | succ n ih =>
    rw [stop]
    split
    · omega
    · exact Nat.succ_le_succ (ih _)

theorem stop_pos (cut : Nat → Bool) {n : Nat} (hn : 0 < n) : 0 < stop cut n := by
  cases n with
  | zero => omega
  | succ n =>
    rw [stop]
    split <;> omega

def Reader.skip (r : Reader α) (n : Nat) : Reader α :=
  { input := r.input.drop n, cut := fun k => r.cut (k+n) }

@[simp] theorem Reader.skip_input (r : Reader α) (n : Nat) :
    (r.skip n).input = r.input.drop n := rfl

theorem Reader.skip_skip (r : Reader α) (m n : Nat) : (r.skip m).skip n = r.skip (m+n) := by
  simp only [skip,List.drop_drop]
  congr 1
  funext k
  rw [Nat.add_assoc,Nat.add_comm n m]

theorem Reader.skip_append (xs ys : List α) (cut : Nat → Bool) :
    ({ input := xs++ys, cut := cut } : Reader α).skip xs.length =
      { input := ys, cut := fun k => cut (k+xs.length) } := by
  simp [skip]

/-- One call for up to `n` units. Where nothing is left the call waits. -/
def Reader.read (r : Reader α) (n : Nat) : Option (List α × Reader α) :=
  match r.input with
  | [] => none
  | _ :: _ => some (r.input.take (stop r.cut n),r.skip (stop r.cut n))

theorem Reader.read_nil {r : Reader α} (h : r.input = []) (n : Nat) : r.read n = none := by
  rw [read,h]

theorem Reader.read_of_ne_nil {r : Reader α} (h : r.input ≠ []) (n : Nat) :
    r.read n = some (r.input.take (stop r.cut n),r.skip (stop r.cut n)) := by
  rw [read]
  cases hi : r.input with
  | nil => exact absurd hi h
  | cons x xs => rfl

/-- A program that takes what the reader gives, call after call, until it waits. -/
def run (asks : S → Nat) (receive : S → List α → S) : Nat → S → Reader α → S
  | 0,s,_ => s
  | fuel+1,s,r =>
    match r.read (asks s) with
    | none => s
    | some (data,r) => run asks receive fuel (receive s data) r

section Run
variable {asks : S → Nat} {receive : S → List α → S}

def drain (asks : S → Nat) (receive : S → List α → S) (s : S) (r : Reader α) : S :=
  run asks receive r.input.length s r

theorem run_of_nil {r : Reader α} (h : r.input = []) (fuel : Nat) (s : S) :
    run asks receive fuel s r = s := by
  cases fuel with
  | zero => rfl
  | succ fuel => rw [run,Reader.read_nil h]

theorem run_fuel (hpos : ∀ s, 0 < asks s) {m n : Nat} {r : Reader α}
    (hm : r.input.length ≤ m) (hn : r.input.length ≤ n) (s : S) :
    run asks receive m s r = run asks receive n s r := by
  induction m generalizing n s r with
  | zero =>
    have hnil : r.input = [] := List.eq_nil_of_length_eq_zero (by omega)
    rw [run_of_nil hnil,run_of_nil hnil]
  | succ m ih =>
    by_cases hnil : r.input = []
    · rw [run_of_nil hnil,run_of_nil hnil]
    · have hlen : 0 < r.input.length := List.length_pos_iff.mpr hnil
      have hstop := stop_pos r.cut (hpos s)
      obtain ⟨n,rfl⟩ : ∃ k, n = k+1 := ⟨n-1,by omega⟩
      have hskip : (r.skip (stop r.cut (asks s))).input.length < r.input.length := by
        rw [Reader.skip_input,List.length_drop]
        omega
      simp only [run,Reader.read_of_ne_nil hnil]
      exact ih (by omega) (by omega) _

theorem drain_nil {r : Reader α} (h : r.input = []) (s : S) : drain asks receive s r = s :=
  run_of_nil h _ s

theorem drain_read (hpos : ∀ s, 0 < asks s) {r : Reader α} (h : r.input ≠ []) (s : S) :
    drain asks receive s r =
      drain asks receive (receive s (r.input.take (stop r.cut (asks s))))
        (r.skip (stop r.cut (asks s))) := by
  have hlen : 0 < r.input.length := List.length_pos_iff.mpr h
  have hstop := stop_pos r.cut (hpos s)
  rw [drain,show r.input.length = r.input.length-1+1 by omega]
  simp only [run,Reader.read_of_ne_nil h]
  have hskip : (r.skip (stop r.cut (asks s))).input.length ≤ r.input.length-1 := by
    rw [Reader.skip_input,List.length_drop]
    omega
  exact run_fuel hpos hskip (Nat.le_refl _) _

end Run

/-- What the calls of one sending loop do. `fail k` says that a call made when `k`
units are gone fails. -/
structure Calls where
  cut : Nat → Bool
  fail : Nat → Bool

def Calls.skip (c : Calls) (n : Nat) : Calls :=
  { cut := fun k => c.cut (k+n), fail := fun k => c.fail (k+n) }

/-- The sending loop: what it added to `sent`, and whether it got to the end. -/
def sendAll : Nat → Calls → List α → List α → List α × Bool
  | _,_,[],sent => (sent,true)
  | 0,_,_ :: _,sent => (sent,false)
  | fuel+1,c,x :: data,sent =>
    if c.fail 0 then (sent,false)
    else
      let n := stop c.cut (data.length+1)
      sendAll fuel (c.skip n) ((x :: data).drop n) (sent++(x :: data).take n)

theorem sendAll_of_not_fail {fuel : Nat} {c : Calls} {data : List α}
    (hfail : ∀ k, c.fail k = false) (h : data.length ≤ fuel) (sent : List α) :
    sendAll fuel c data sent = (sent++data,true) := by
  induction fuel generalizing c data sent with
  | zero =>
    have hnil : data = [] := List.eq_nil_of_length_eq_zero (by omega)
    simp [sendAll,hnil]
  | succ fuel ih =>
    cases data with
    | nil => simp [sendAll]
    | cons x data =>
      have hstop : 0 < stop c.cut (data.length+1) := stop_pos c.cut (Nat.succ_pos _)
      have hdrop : ((x :: data).drop (stop c.cut (data.length+1))).length ≤ fuel := by
        rw [List.length_drop]
        simp only [List.length_cons] at h ⊢
        omega
      have hfail' : ∀ k, (c.skip (stop c.cut (data.length+1))).fail k = false :=
        fun k => hfail _
      simp only [sendAll,hfail 0,Bool.false_eq_true,if_false]
      rw [ih hfail' hdrop,List.append_assoc,List.take_append_drop]

end LapCom.Stream
