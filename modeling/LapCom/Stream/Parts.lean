import LapCom.Stream.Reader

set_option autoImplicit false

namespace LapCom.Stream

variable {α : Type*}

def progress : Nat → Calls → Nat → Nat
  | _,_,0 => 0
  | 0,_,_+1 => 0
  | fuel+1,c,n+1 =>
    if c.fail 0 then 0
    else stop c.cut (n+1)+progress fuel (c.skip (stop c.cut (n+1))) (n+1-stop c.cut (n+1))

theorem sendAll_fst (fuel : Nat) (c : Calls) (data sent : List α) :
    (sendAll fuel c data sent).1 = sent++data.take (progress fuel c data.length) := by
  induction fuel generalizing c data sent with
  | zero => cases data <;> simp [sendAll,progress]
  | succ fuel ih =>
    cases data with
    | nil => simp [sendAll,progress]
    | cons x data =>
      rw [sendAll,List.length_cons,progress]
      by_cases hfail : c.fail 0 = true
      · simp [hfail]
      · rw [if_neg hfail,if_neg hfail]
        dsimp only
        rw [ih,List.length_drop,List.length_cons,List.append_assoc,← List.take_add]

theorem progress_le (fuel : Nat) (c : Calls) (n : Nat) : progress fuel c n ≤ n := by
  induction fuel generalizing c n with
  | zero => cases n <;> simp [progress]
  | succ fuel ih =>
    cases n with
    | zero => simp [progress]
    | succ n =>
      have hstop := stop_le c.cut (n+1)
      have hrest := ih (c.skip (stop c.cut (n+1))) (n+1-stop c.cut (n+1))
      rw [progress]
      split <;> omega

/-- What is sent of a message in parts, with one loop for each and no look at how the loops
before it ended. -/
def sendParts : List (List α) → (Nat → Calls) → List α
  | [], _ => []
  | p :: rest, calls =>
    p.take (progress p.length (calls 0) p.length)++sendParts rest fun k => calls (k+1)

/-- No loop for these parts sends a unit. -/
def Silent : List (List α) → (Nat → Calls) → Prop
  | [], _ => True
  | p :: rest, calls =>
    progress p.length (calls 0) p.length = 0 ∧ Silent rest fun k => calls (k+1)

/-- Behind a part that is cut short nothing is sent. -/
def Stops : List (List α) → (Nat → Calls) → Prop
  | [], _ => True
  | p :: rest, calls =>
    if progress p.length (calls 0) p.length = p.length then Stops rest fun k => calls (k+1)
    else Silent rest fun k => calls (k+1)

theorem Silent.sendParts_eq {parts : List (List α)} {calls : Nat → Calls}
    (h : Silent parts calls) : sendParts parts calls = [] := by
  induction parts generalizing calls with
  | nil => rfl
  | cons p rest ih =>
    obtain ⟨hnone,hrest⟩ := h
    rw [sendParts,hnone,List.take_zero,List.nil_append,ih hrest]

/-- The induction is on the parts: a whole one leaves the question to the rest. -/
theorem Stops.sendParts_flatten {parts : List (List α)} {calls : Nat → Calls}
    (h : Stops parts calls) : sendParts parts calls <+: parts.flatten := by
  induction parts generalizing calls with
  | nil => exact List.nil_prefix
  | cons p rest ih =>
    rw [Stops] at h
    rw [sendParts,List.flatten_cons]
    split at h
    · next hwhole =>
      rw [hwhole,List.take_length,List.prefix_append_right_inj]
      exact ih h
    · rw [h.sendParts_eq,List.append_nil]
      exact (List.take_prefix _ _).trans (List.prefix_append _ _)

end LapCom.Stream
