import LapCom.Stream.Reader

set_option autoImplicit false

namespace LapCom.Stream

variable {α : Type*}

/-- Why a read got nothing: the call failed, or the other end has closed. -/
inductive Lost where
  | failed
  | closed
  deriving DecidableEq

/-- Units on their way to one reader, with what its calls do. After the last of them the other
end closes. -/
structure Incoming (α : Type*) where
  input : List α
  calls : Calls

def Incoming.skip (r : Incoming α) (n : Nat) : Incoming α := ⟨r.input.drop n,r.calls.skip n⟩

def Incoming.receive (r : Incoming α) (n : Nat) : Except Lost (List α × Incoming α) :=
  if r.calls.fail 0 then .error .failed
  else
    let data := r.input.take (stop r.calls.cut n)
    match data with
    | [] => .error .closed
    | _ :: _ => .ok (data,r.skip data.length)

/-- The loop that goes on until it has `n` more units. -/
def receiveAll : Nat → Incoming α → Nat → List α → Except Lost (List α × Incoming α)
  | _,r,0,got => .ok (got,r)
  | 0,_,_+1,_ => .error .failed
  | fuel+1,r,n+1,got =>
    match r.receive (n+1) with
    | .error e => .error e
    | .ok (data,r) => receiveAll fuel r (n+1-data.length) (got++data)

/-- How much the receiving loop has at each of its calls, if it starts with `off`. -/
def receiveStarts : Nat → Incoming α → Nat → Nat → List Nat
  | _,_,0,_ => []
  | 0,_,_+1,_ => []
  | fuel+1,r,n+1,off =>
    off :: match r.receive (n+1) with
      | .error _ => []
      | .ok (data,r) => receiveStarts fuel r (n+1-data.length) (off+data.length)

/-- How much the sending loop has sent at each of its calls, if it starts with `off` and `n`
are left. -/
def sendStarts : Nat → Calls → Nat → Nat → List Nat
  | _,_,0,_ => []
  | 0,_,_+1,_ => []
  | fuel+1,c,n+1,off =>
    off :: if c.fail 0 then []
      else
        let k := stop c.cut (n+1)
        sendStarts fuel (c.skip k) (n+1-k) (off+k)

theorem Calls.skip_skip (c : Calls) (m n : Nat) : (c.skip m).skip n = c.skip (m+n) := by
  simp [Calls.skip,Nat.add_assoc,Nat.add_comm n m]

theorem Incoming.skip_skip (r : Incoming α) (m n : Nat) :
    (r.skip m).skip n = r.skip (m+n) := by
  simp [Incoming.skip,Calls.skip_skip,List.drop_drop]

theorem Incoming.skip_zero (r : Incoming α) : r.skip 0 = r := rfl

theorem Incoming.receive_ok {r r' : Incoming α} {n : Nat} {data : List α}
    (h : r.receive n = .ok (data,r')) :
    0 < data.length ∧ data.length ≤ n ∧ data.length ≤ r.input.length ∧
      data = r.input.take data.length ∧ r' = r.skip data.length := by
  simp only [receive] at h
  split at h
  · cases h
  · generalize hd : r.input.take (stop r.calls.cut n) = d at h
    cases d with
    | nil => cases h
    | cons x xs =>
      cases h
      have hstop := stop_le r.calls.cut n
      have hlen : (x :: xs).length = min (stop r.calls.cut n) r.input.length := by
        rw [← hd,List.length_take]
      refine ⟨Nat.succ_pos _,by omega,by omega,?_,rfl⟩
      rw [hlen,← List.take_eq_take_min,hd]

/-- A call that does not fail gets something of what is there. -/
theorem Incoming.receive_of_ne_nil {r : Incoming α} {n : Nat} (hn : 0 < n)
    (hfail : r.calls.fail 0 = false) (hne : r.input ≠ []) :
    ∃ data, r.receive n = .ok (data,r.skip data.length) := by
  have hpos : 0 < stop r.calls.cut n := stop_pos r.calls.cut hn
  have hlen : 0 < r.input.length := List.length_pos_iff.mpr hne
  simp only [receive,hfail]
  cases hd : r.input.take (stop r.calls.cut n) with
  | nil =>
    have hzero := congrArg List.length hd
    rw [List.length_take,List.length_nil] at hzero
    omega
  | cons x xs => exact ⟨x :: xs,rfl⟩

/-- A read that ends well has the beginning of the input, however the calls divide it. -/
theorem receiveAll_ok {fuel n : Nat} {r r' : Incoming α} {got data : List α}
    (h : receiveAll fuel r n got = .ok (data,r')) :
    n ≤ r.input.length ∧ data = got++r.input.take n ∧ r' = r.skip n := by
  induction fuel generalizing r n got with
  | zero =>
    cases n with
    | zero =>
      cases h
      simp [Incoming.skip_zero]
    | succ n => cases h
  | succ fuel ih =>
    cases n with
    | zero =>
      cases h
      simp [Incoming.skip_zero]
    | succ n =>
      rw [receiveAll] at h
      cases hr : r.receive (n+1) with
      | error e =>
        rw [hr] at h
        cases h
      | ok result =>
        obtain ⟨part,r₁⟩ := result
        rw [hr] at h
        obtain ⟨hpos,hle,hin,hpart,rfl⟩ := Incoming.receive_ok hr
        obtain ⟨hlen,rfl,rfl⟩ := ih h
        rw [Incoming.skip,List.length_drop] at hlen
        refine ⟨by omega,?_,?_⟩
        · have htake : r.input.take (n+1) =
              r.input.take part.length++(r.input.drop part.length).take (n+1-part.length) := by
            rw [← List.take_add,Nat.add_sub_cancel' hle]
          rw [htake,← hpart,List.append_assoc]
          rfl
        · rw [Incoming.skip_skip,Nat.add_sub_cancel' hle]

theorem receiveAll_of_not_fail {fuel n : Nat} {r : Incoming α}
    (hfail : ∀ k, r.calls.fail k = false) (hn : n ≤ r.input.length) (hfuel : n ≤ fuel)
    (got : List α) : receiveAll fuel r n got = .ok (got++r.input.take n,r.skip n) := by
  have hok : ∃ result, receiveAll fuel r n got = .ok result := by
    induction fuel generalizing r n got with
    | zero =>
      obtain rfl : n = 0 := by omega
      exact ⟨_,rfl⟩
    | succ fuel ih =>
      cases n with
      | zero => exact ⟨_,rfl⟩
      | succ n =>
        have hne : r.input ≠ [] := List.length_pos_iff.mp (by omega)
        obtain ⟨part,hr⟩ := Incoming.receive_of_ne_nil (Nat.succ_pos n) (hfail 0) hne
        obtain ⟨hpos,hle,hin,_,_⟩ := Incoming.receive_ok hr
        have hrest : n+1-part.length ≤ (r.skip part.length).input.length := by
          rw [Incoming.skip,List.length_drop]
          omega
        have hfuel' : n+1-part.length ≤ fuel := by omega
        rw [receiveAll,hr]
        exact ih (r := r.skip part.length) (fun k => hfail _) hrest hfuel' _
  obtain ⟨⟨data,r'⟩,h⟩ := hok
  obtain ⟨_,rfl,rfl⟩ := receiveAll_ok h
  exact h

theorem mem_receiveStarts {fuel n off o : Nat} {r : Incoming α}
    (h : o ∈ receiveStarts fuel r n off) : off ≤ o ∧ o ≤ off+n := by
  induction fuel generalizing r n off with
  | zero => cases n <;> simp [receiveStarts] at h
  | succ fuel ih =>
    cases n with
    | zero => simp [receiveStarts] at h
    | succ n =>
      rw [receiveStarts] at h
      rcases List.mem_cons.mp h with rfl | h
      · omega
      · cases hr : r.receive (n+1) with
        | error e => simp [hr] at h
        | ok result =>
          obtain ⟨part,r₁⟩ := result
          obtain ⟨hpos,hle,_,_,_⟩ := Incoming.receive_ok hr
          rw [hr] at h
          have hbounds := ih h
          omega

theorem mem_sendStarts {fuel n off o : Nat} {c : Calls} (h : o ∈ sendStarts fuel c n off) :
    off ≤ o ∧ o ≤ off+n := by
  induction fuel generalizing c n off with
  | zero => cases n <;> simp [sendStarts] at h
  | succ fuel ih =>
    cases n with
    | zero => simp [sendStarts] at h
    | succ n =>
      have hle := stop_le c.cut (n+1)
      rw [sendStarts] at h
      rcases List.mem_cons.mp h with rfl | h
      · omega
      · split at h
        · simp at h
        · have hbounds := ih h
          omega

end LapCom.Stream
