import LapCom.Machine.Run
import Mathlib.Data.List.Perm.Basic
import Mathlib.Logic.Function.Basic

set_option autoImplicit false

namespace LapCom.SomeIp
open LapCom.Machine

inductive Errc where
  | notInitialized
  | alreadyExists
  | notFound
  | internalError
  deriving DecidableEq

/-- A call of the unsubscribe function of a subscription; one that does not succeed throws. -/
structure Attempt where
  id : Nat
  succeeded : Bool
  deriving DecidableEq

/-- The subscriber ends in its destructor, or the program in `std::terminate`. -/
inductive Phase where
  | alive
  | destroyed
  | terminated
  deriving DecidableEq

/-- Subscriptions are numbered as they are made. `subscriptions` is the table with the tokens, and
`unsubscribed` their flags; `log` holds the calls so far. -/
structure State (Name : Type) where
  proxy : Bool
  subscriptions : List (Name × Nat)
  unsubscribed : Nat → Bool
  next : Nat
  log : List Attempt
  phase : Phase

structure Iteration where
  order : List Nat → List Nat
  perm : ∀ l, (order l).Perm l

/-- The calls; `subscribed` says that CommonAPI accepts the subscription. -/
inductive Call (Name : Type) where
  | subscribe (eventName : Name) (subscribed : Bool)
  | unsubscribe (eventName : Name)
  | unsubscribeAll (loop clear : Iteration)
  | destroy (loop clear : Iteration)

section Model
variable {Name : Type} (throws : Nat → Nat → Bool)

namespace State

def initial (proxy : Bool) : State Name := ⟨proxy,[],fun _ => false,0,[],.alive⟩

def attempts (s : State Name) (id : Nat) : Nat := s.log.countP fun a => a.id == id

/-- `SubscriptionToken::Unsubscribe`, which may throw. -/
def tokenUnsubscribe (s : State Name) (id : Nat) : State Name :=
  if s.unsubscribed id then s
  else if throws id (s.attempts id) then { s with log := s.log ++ [⟨id,false⟩] }
  else
    { s with
      log := s.log ++ [⟨id,true⟩]
      unsubscribed := Function.update s.unsubscribed id true }

/-- The destructor of a token does not catch what `Unsubscribe` throws, and may not throw. -/
def destroyToken (s : State Name) (id : Nat) : State Name :=
  if s.unsubscribed id then s
  else if throws id (s.attempts id) then { s.tokenUnsubscribe throws id with phase := .terminated }
  else s.tokenUnsubscribe throws id

def destroyTokens (s : State Name) : List Nat → State Name
  | [] => s
  | id :: ids =>
    let s := s.destroyToken throws id
    if s.phase = .terminated then s else s.destroyTokens ids

def subscribe [DecidableEq Name] (s : State Name) (eventName : Name) (subscribed : Bool) :
    Except Errc Unit × State Name :=
  if !s.proxy then (.error .notInitialized,s)
  else if (s.subscriptions.lookup eventName).isSome then (.error .alreadyExists,s)
  else if subscribed then
    (.ok (),{ s with
      subscriptions := s.subscriptions ++ [(eventName,s.next)], next := s.next+1 })
  else (.error .internalError,s)

def unsubscribe [DecidableEq Name] (s : State Name) (eventName : Name) :
    Except Errc Unit × State Name :=
  match s.subscriptions.lookup eventName with
  | none => (.error .notFound,s)
  | some id =>
    let called := s.tokenUnsubscribe throws id
    if called.unsubscribed id then
      (.ok (),{ called.destroyToken throws id with
        subscriptions := s.subscriptions.filter fun e => e.1 ≠ eventName })
    else (.error .internalError,called)

/-- What the loop catches, the tokens meet again when the table is cleared. -/
def unsubscribeAll (s : State Name) (loop clear : Iteration) : State Name :=
  let ids := s.subscriptions.map Prod.snd
  let s := (loop.order ids).foldl (tokenUnsubscribe throws) s
  { s.destroyTokens throws (clear.order ids) with subscriptions := [] }

def destroy (s : State Name) (loop clear : Iteration) : State Name :=
  let s := s.unsubscribeAll throws loop clear
  if s.phase = .terminated then s else { s with phase := .destroyed }

end State

def step [DecidableEq Name] (s : State Name) (call : Call Name) : State Name :=
  match s.phase with
  | .alive =>
    match call with
    | .subscribe eventName subscribed => (s.subscribe eventName subscribed).2
    | .unsubscribe eventName => (s.unsubscribe throws eventName).2
    | .unsubscribeAll loop clear => s.unsubscribeAll throws loop clear
    | .destroy loop clear => s.destroy throws loop clear
  | _ => s

def Call.clears : Call Name → Bool
  | .unsubscribeAll _ _ => true
  | .destroy _ _ => true
  | _ => false

def OnceAtMost (log : List Attempt) : Prop :=
  log.Pairwise fun a b => a.succeeded = true → b.id ≠ a.id

/-- What a call does that keeps the promise: nothing escapes from a destructor, and where all
subscriptions are ended, each is tried. -/
structure Sound (s : State Name) (call : Call Name) (s' : State Name) : Prop where
  running : s'.phase ≠ .terminated
  once : OnceAtMost s'.log
  tried : s.phase = .alive → call.clears = true → ∀ e ∈ s.subscriptions,
    ∃ a ∈ s'.log.drop s.log.length, a.id = e.2

/-- The table is cleared, and the function of one of its subscriptions throws twice. -/
def ThrowsTwice (s : State Name) (call : Call Name) : Prop :=
  s.phase = .alive ∧ call.clears = true ∧ ∃ e ∈ s.subscriptions,
    throws e.2 (s.attempts e.2) = true ∧ throws e.2 (s.attempts e.2+1) = true

structure Logged (s : State Name) : Prop where
  once : OnceAtMost s.log
  flagged : ∀ a ∈ s.log, a.succeeded = true → s.unsubscribed a.id = true

structure Valid (s : State Name) : Prop where
  running : s.phase ≠ .terminated
  nodup : (s.subscriptions.map Prod.snd).Nodup
  pending : ∀ e ∈ s.subscriptions, s.unsubscribed e.2 = false
  known : ∀ e ∈ s.subscriptions, e.2 < s.next
  fresh : ∀ id, s.next ≤ id → s.unsubscribed id = false
  logged : Logged s

section Tokens
variable {throws} {s : State Name}

variable (throws) in
theorem tokenUnsubscribe_of_pending {id : Nat} (h : s.unsubscribed id = false) :
    s.tokenUnsubscribe throws id =
      { s with
        log := s.log ++ [⟨id,!throws id (s.attempts id)⟩]
        unsubscribed := Function.update s.unsubscribed id (!throws id (s.attempts id)) } := by
  rw [State.tokenUnsubscribe,if_neg (by simp [h])]
  cases hthrows : throws id (s.attempts id) with
  | true =>
    have hself : Function.update s.unsubscribed id false = s.unsubscribed := by
      rw [← h,Function.update_eq_self]
    simp [hself]
  | false => rfl

variable (throws) in
theorem Logged.tokenUnsubscribe (h : Logged s) (id : Nat) :
    Logged (s.tokenUnsubscribe throws id) := by
  by_cases hdone : s.unsubscribed id = true
  · rwa [State.tokenUnsubscribe,if_pos hdone]
  · rw [tokenUnsubscribe_of_pending throws (Bool.not_eq_true _ ▸ hdone)]
    constructor
    · refine List.pairwise_append.mpr ⟨h.once,List.pairwise_singleton _ _,?_⟩
      intro a ha b hb hsucceeded heq
      obtain rfl := List.mem_singleton.mp hb
      have hflag := h.flagged a ha hsucceeded
      rw [← heq] at hflag
      exact hdone hflag
    · intro a ha hsucceeded
      by_cases hid : a.id = id
      · rcases List.mem_append.mp ha with hold | hnew
        · have hflag := h.flagged a hold hsucceeded
          rw [hid] at hflag
          exact absurd hflag hdone
        · obtain rfl := List.mem_singleton.mp hnew
          simpa using hsucceeded
      · rcases List.mem_append.mp ha with hold | hnew
        · simpa [hid] using h.flagged a hold hsucceeded
        · obtain rfl := List.mem_singleton.mp hnew
          exact absurd rfl hid

theorem attempts_tokenUnsubscribe_self {id : Nat} (h : s.unsubscribed id = false) :
    (s.tokenUnsubscribe throws id).attempts id = s.attempts id+1 := by
  rw [tokenUnsubscribe_of_pending throws h]
  simp [State.attempts]

variable (throws) in
theorem flag_tokenUnsubscribe_of_ne {id j : Nat} (h : s.unsubscribed id = false) (hne : j ≠ id) :
    (s.tokenUnsubscribe throws id).unsubscribed j = s.unsubscribed j := by
  rw [tokenUnsubscribe_of_pending throws h]
  exact Function.update_of_ne hne _ _

variable (throws) in
theorem attempts_tokenUnsubscribe_of_ne {id j : Nat} (h : s.unsubscribed id = false)
    (hne : j ≠ id) : (s.tokenUnsubscribe throws id).attempts j = s.attempts j := by
  rw [tokenUnsubscribe_of_pending throws h]
  simp [State.attempts,Ne.symm hne]

structure Tried (throws : Nat → Nat → Bool) (s : State Name) (l : List Nat) (s' : State Name) :
    Prop where
  subscriptions : s'.subscriptions = s.subscriptions
  next : s'.next = s.next
  phase : s'.phase = s.phase
  flags : ∀ id ∈ l, s'.unsubscribed id = !throws id (s.attempts id)
  attempts : ∀ id ∈ l, s'.attempts id = s.attempts id+1
  others : ∀ id, id ∉ l → s'.unsubscribed id = s.unsubscribed id ∧ s'.attempts id = s.attempts id
  log : ∃ tail, s'.log = s.log ++ tail ∧ tail.map Attempt.id = l

variable (throws) in
theorem foldl_tried {l : List Nat} (hnodup : l.Nodup)
    (hpending : ∀ id ∈ l, s.unsubscribed id = false) :
    Tried throws s l (l.foldl (State.tokenUnsubscribe throws) s) := by
  induction l generalizing s with
  | nil => exact ⟨rfl,rfl,rfl,by simp,by simp,fun _ _ => ⟨rfl,rfl⟩,[],by simp,rfl⟩
  | cons id l ih =>
    obtain ⟨hnot,hnodup⟩ := List.nodup_cons.mp hnodup
    have hid := hpending id List.mem_cons_self
    have hne : ∀ j, j ∈ l → j ≠ id := by
      rintro j hj rfl
      exact hnot hj
    have heq := tokenUnsubscribe_of_pending throws hid
    have hflag := fun j (hj : j ≠ id) => flag_tokenUnsubscribe_of_ne throws hid hj
    have hattempts := fun j (hj : j ≠ id) => attempts_tokenUnsubscribe_of_ne throws hid hj
    have hrest := ih (s := s.tokenUnsubscribe throws id) hnodup fun j hj =>
      (hflag j (hne j hj)).trans (hpending j (List.mem_cons_of_mem id hj))
    obtain ⟨hself,hselfAttempts⟩ := hrest.others id hnot
    rw [List.foldl_cons]
    constructor
    · rw [hrest.subscriptions,heq]
    · rw [hrest.next,heq]
    · rw [hrest.phase,heq]
    · intro j hj
      rcases List.mem_cons.mp hj with rfl | hj
      · rw [hself,heq]
        exact Function.update_self _ _ _
      · rw [hrest.flags j hj,hattempts j (hne j hj)]
    · intro j hj
      rcases List.mem_cons.mp hj with rfl | hj
      · rw [hselfAttempts,attempts_tokenUnsubscribe_self hid]
      · rw [hrest.attempts j hj,hattempts j (hne j hj)]
    · intro j hj
      have hjid : j ≠ id := fun hjid => hj (hjid ▸ List.mem_cons_self)
      have hjl : j ∉ l := fun hjl => hj (List.mem_cons_of_mem id hjl)
      obtain ⟨hjself,hjattempts⟩ := hrest.others j hjl
      exact ⟨hjself.trans (hflag j hjid),hjattempts.trans (hattempts j hjid)⟩
    · obtain ⟨tail,htail,hids⟩ := hrest.log
      refine ⟨⟨id,!throws id (s.attempts id)⟩ :: tail,?_,by rw [List.map_cons,hids]⟩
      rw [htail,heq]
      simp

variable (throws) in
theorem Logged.foldl (h : Logged s) (l : List Nat) :
    Logged (l.foldl (State.tokenUnsubscribe throws) s) := by
  induction l generalizing s with
  | nil => exact h
  | cons id l ih => exact ih (h.tokenUnsubscribe throws id)

theorem Logged.destroyToken (h : Logged s) (id : Nat) : Logged (s.destroyToken throws id) := by
  unfold State.destroyToken
  have hcalled := h.tokenUnsubscribe throws id
  split_ifs
  · exact h
  · exact ⟨hcalled.once,hcalled.flagged⟩
  · exact hcalled

theorem destroyToken_of_ended {id : Nat} (h : s.unsubscribed id = true) :
    s.destroyToken throws id = s := if_pos h

theorem destroyToken_of_pending {id : Nat} (h : s.unsubscribed id = false) :
    s.destroyToken throws id =
      if throws id (s.attempts id) then
        { s.tokenUnsubscribe throws id with phase := .terminated }
      else s.tokenUnsubscribe throws id := if_neg (by simp [h])

structure Cleared (throws : Nat → Nat → Bool) (s : State Name) (l : List Nat) (s' : State Name) :
    Prop where
  logged : Logged s → Logged s'
  log : s.log <+: s'.log
  next : s'.next = s.next
  others : ∀ id, id ∉ l → s'.unsubscribed id = s.unsubscribed id
  phase : s'.phase = s.phase ∨ s'.phase = .terminated
  terminated : s'.phase = .terminated ↔
    ∃ id ∈ l, s.unsubscribed id = false ∧ throws id (s.attempts id) = true

theorem destroyTokens_cleared {l : List Nat} (hnodup : l.Nodup) (hrunning : s.phase ≠ .terminated) :
    Cleared throws s l (s.destroyTokens throws l) := by
  induction l generalizing s with
  | nil =>
    rw [State.destroyTokens]
    exact ⟨id,List.prefix_rfl,rfl,fun _ _ => rfl,.inl rfl,by simpa using hrunning⟩
  | cons id l ih =>
    obtain ⟨hnot,hnodup⟩ := List.nodup_cons.mp hnodup
    rw [State.destroyTokens]
    cases hended : s.unsubscribed id with
    | true =>
      rw [destroyToken_of_ended hended,if_neg hrunning]
      have hrest := ih hnodup hrunning
      refine ⟨hrest.logged,hrest.log,hrest.next,fun j hj => ?_,hrest.phase,?_⟩
      · exact hrest.others j fun hjl => hj (List.mem_cons_of_mem id hjl)
      · rw [hrest.terminated]
        simp [hended]
    | false =>
      have heq := tokenUnsubscribe_of_pending throws hended
      have hlog : s.log <+: (s.tokenUnsubscribe throws id).log := by
        rw [heq]
        exact List.prefix_append _ _
      have hflag : ∀ j, j ∉ id :: l →
          (s.tokenUnsubscribe throws id).unsubscribed j = s.unsubscribed j := fun j hj =>
        flag_tokenUnsubscribe_of_ne throws hended fun hjid => hj (hjid ▸ List.mem_cons_self)
      rw [destroyToken_of_pending hended]
      cases hthrows : throws id (s.attempts id) with
      | true =>
        rw [if_pos rfl,if_pos rfl]
        refine ⟨fun hlogged => ?_,hlog,?_,hflag,.inr rfl,?_⟩
        · have hcalled := hlogged.tokenUnsubscribe throws id
          exact ⟨hcalled.once,hcalled.flagged⟩
        · show (s.tokenUnsubscribe throws id).next = s.next
          rw [heq]
        · simp [hended,hthrows]
      | false =>
        have hphase : (s.tokenUnsubscribe throws id).phase = s.phase := by rw [heq]
        have hrest := ih (s := s.tokenUnsubscribe throws id) hnodup (hphase ▸ hrunning)
        rw [if_neg Bool.false_ne_true,if_neg (hphase ▸ hrunning)]
        refine ⟨fun hlogged => hrest.logged (hlogged.tokenUnsubscribe throws id),
          hlog.trans hrest.log,?_,fun j hj => ?_,hphase ▸ hrest.phase,?_⟩
        · rw [hrest.next,heq]
        · have hjl : j ∉ l := fun hjl => hj (List.mem_cons_of_mem id hjl)
          exact (hrest.others j hjl).trans (hflag j hj)
        · rw [hrest.terminated,List.exists_mem_cons_iff,hthrows]
          simp only [Bool.false_eq_true,and_false,false_or]
          refine exists_congr fun j => and_congr_right fun hj => ?_
          have hjid : j ≠ id := by
            rintro rfl
            exact hnot hj
          rw [flag_tokenUnsubscribe_of_ne throws hended hjid,
            attempts_tokenUnsubscribe_of_ne throws hended hjid]

end Tokens

section Steps
variable {throws} {s : State Name} [DecidableEq Name]

theorem subscribe_valid (h : Valid s) (eventName : Name) (subscribed : Bool) :
    Valid (s.subscribe eventName subscribed).2 := by
  unfold State.subscribe
  split_ifs
  · exact h
  · exact h
  · refine ⟨h.running,?_,?_,?_,fun id hid => h.fresh id (Nat.le_of_succ_le hid),
      ⟨h.logged.once,h.logged.flagged⟩⟩
    · rw [List.map_append,List.nodup_append]
      refine ⟨h.nodup,by simp,?_⟩
      intro a ha b hb
      obtain ⟨e,he,rfl⟩ := List.mem_map.mp ha
      obtain rfl : b = s.next := by simpa using hb
      exact Nat.ne_of_lt (h.known e he)
    · intro e he
      rcases List.mem_append.mp he with hold | hnew
      · exact h.pending e hold
      · obtain rfl := List.mem_singleton.mp hnew
        exact h.fresh _ (Nat.le_refl _)
    · intro e he
      rcases List.mem_append.mp he with hold | hnew
      · exact Nat.lt_succ_of_lt (h.known e hold)
      · obtain rfl := List.mem_singleton.mp hnew
        exact Nat.lt_succ_self _
  · exact h

theorem unsubscribe_valid (h : Valid s) (eventName : Name) :
    Valid (s.unsubscribe throws eventName).2 := by
  unfold State.unsubscribe
  cases hlookup : s.subscriptions.lookup eventName with
  | none => exact h
  | some id =>
    obtain ⟨before,after,hsplit,_⟩ := List.lookup_eq_some_iff.mp hlookup
    have hmem : (eventName,id) ∈ s.subscriptions := by simp [hsplit]
    have hpending := h.pending _ hmem
    have hknown := h.known _ hmem
    have hcalled := h.logged.tokenUnsubscribe throws id
    have heq := tokenUnsubscribe_of_pending throws hpending
    have hflag := fun j (hj : j ≠ id) => flag_tokenUnsubscribe_of_ne throws hpending hj
    have hself : (s.tokenUnsubscribe throws id).unsubscribed id = !throws id (s.attempts id) := by
      rw [heq]
      exact Function.update_self _ _ _
    have hfresh : ∀ j, s.next ≤ j → (s.tokenUnsubscribe throws id).unsubscribed j = false :=
      fun j hj => (hflag j (by omega)).trans (h.fresh j hj)
    dsimp only
    cases hthrows : throws id (s.attempts id) with
    | true =>
      rw [hthrows] at hself
      rw [if_neg (by simp [hself])]
      have hall : ∀ e ∈ s.subscriptions,
          (s.tokenUnsubscribe throws id).unsubscribed e.2 = false := by
        intro e he
        by_cases hid : e.2 = id
        · rw [hid,hself]
          rfl
        · rw [hflag _ hid,h.pending e he]
      rw [heq] at hcalled hall hfresh ⊢
      exact ⟨h.running,h.nodup,hall,h.known,hfresh,hcalled⟩
    | false =>
      rw [hthrows] at hself
      rw [if_pos (by simp [hself]),destroyToken_of_ended (by simp [hself])]
      have hrest : ∀ e ∈ s.subscriptions.filter fun e => e.1 ≠ eventName,
          e ∈ s.subscriptions ∧ e.2 ≠ id := by
        intro e he
        obtain ⟨he,hname⟩ := List.mem_filter.mp he
        refine ⟨he,fun hid => ?_⟩
        have hsame := List.inj_on_of_nodup_map h.nodup he hmem hid
        simp [hsame] at hname
      have hall : ∀ e ∈ s.subscriptions.filter fun e => e.1 ≠ eventName,
          (s.tokenUnsubscribe throws id).unsubscribed e.2 = false := fun e he =>
        (hflag _ (hrest e he).2).trans (h.pending e (hrest e he).1)
      rw [heq] at hcalled hall hfresh ⊢
      exact ⟨h.running,h.nodup.sublist (List.filter_sublist.map _),hall,
        fun e he => h.known e (hrest e he).1,hfresh,⟨hcalled.once,hcalled.flagged⟩⟩

end Steps

section Ending
variable {throws} {s : State Name}

structure Ended (throws : Nat → Nat → Bool) (s s' : State Name) : Prop where
  subscriptions : s'.subscriptions = []
  next : s'.next = s.next
  fresh : ∀ id, s.next ≤ id → s'.unsubscribed id = false
  logged : Logged s'
  terminated : s'.phase = .terminated ↔ ∃ e ∈ s.subscriptions,
    throws e.2 (s.attempts e.2) = true ∧ throws e.2 (s.attempts e.2+1) = true
  tried : ∀ e ∈ s.subscriptions, ∃ a ∈ s'.log.drop s.log.length, a.id = e.2

/-- In the loop every token is tried once; the destructors try again what has thrown. -/
theorem unsubscribeAll_ended (h : Valid s) (loop clear : Iteration) :
    Ended throws s (s.unsubscribeAll throws loop clear) := by
  have hperm := loop.perm (s.subscriptions.map Prod.snd)
  have hperm' := clear.perm (s.subscriptions.map Prod.snd)
  have hknown : ∀ id, s.next ≤ id → id ∉ s.subscriptions.map Prod.snd := by
    intro id hid hmem
    obtain ⟨e,he,rfl⟩ := List.mem_map.mp hmem
    exact absurd (h.known e he) (Nat.not_lt.mpr hid)
  have hpending : ∀ id ∈ loop.order (s.subscriptions.map Prod.snd), s.unsubscribed id = false := by
    intro id hid
    obtain ⟨e,he,rfl⟩ := List.mem_map.mp (hperm.mem_iff.mp hid)
    exact h.pending e he
  have htried := foldl_tried throws (hperm.nodup_iff.mpr h.nodup) hpending
  have hlogged := h.logged.foldl throws (loop.order (s.subscriptions.map Prod.snd))
  unfold State.unsubscribeAll
  dsimp only
  generalize (loop.order (s.subscriptions.map Prod.snd)).foldl (State.tokenUnsubscribe throws) s =
    called at htried hlogged
  have hcleared : Cleared throws called (clear.order (s.subscriptions.map Prod.snd))
      (called.destroyTokens throws (clear.order (s.subscriptions.map Prod.snd))) :=
    destroyTokens_cleared (hperm'.nodup_iff.mpr h.nodup) (htried.phase ▸ h.running)
  constructor
  · rfl
  · exact hcleared.next.trans htried.next
  · intro id hid
    have hnot := hknown id hid
    have hflag := hcleared.others id fun hmem => hnot (hperm'.mem_iff.mp hmem)
    exact hflag.trans ((htried.others id fun hmem => hnot (hperm.mem_iff.mp hmem)).1.trans
      (h.fresh id hid))
  · have hall := hcleared.logged hlogged
    exact ⟨hall.once,hall.flagged⟩
  · refine hcleared.terminated.trans ⟨?_,?_⟩
    · rintro ⟨id,hid,hflag,hthrows⟩
      obtain ⟨e,he,rfl⟩ := List.mem_map.mp (hperm'.mem_iff.mp hid)
      have hloop := hperm.mem_iff.mpr (List.mem_map_of_mem (f := Prod.snd) he)
      rw [htried.flags _ hloop,Bool.not_eq_false'] at hflag
      rw [htried.attempts _ hloop] at hthrows
      exact ⟨e,he,hflag,hthrows⟩
    · rintro ⟨e,he,hfirst,hsecond⟩
      have hmem := List.mem_map_of_mem (f := Prod.snd) he
      have hloop := hperm.mem_iff.mpr hmem
      refine ⟨e.2,hperm'.mem_iff.mpr hmem,?_,?_⟩
      · rw [htried.flags _ hloop,hfirst]
        rfl
      · rwa [htried.attempts _ hloop]
  · intro e he
    obtain ⟨tail,htail,hids⟩ := htried.log
    obtain ⟨more,hmore⟩ := hcleared.log
    have hloop := hperm.mem_iff.mpr (List.mem_map_of_mem (f := Prod.snd) he)
    rw [← hids] at hloop
    obtain ⟨a,ha,hid⟩ := List.mem_map.mp hloop
    refine ⟨a,?_,hid⟩
    show a ∈ (called.destroyTokens throws (clear.order (s.subscriptions.map Prod.snd))).log.drop
      s.log.length
    rw [← hmore,htail,List.append_assoc,List.drop_left]
    exact List.mem_append_left more ha

theorem destroy_ended (h : Valid s) (loop clear : Iteration) :
    Ended throws s (s.destroy throws loop clear) := by
  have hended : Ended throws s (s.unsubscribeAll throws loop clear) :=
    unsubscribeAll_ended h loop clear
  unfold State.destroy
  by_cases hphase : (s.unsubscribeAll throws loop clear).phase = .terminated
  · rwa [if_pos hphase]
  · rw [if_neg hphase]
    refine ⟨hended.subscriptions,hended.next,hended.fresh,
      ⟨hended.logged.once,hended.logged.flagged⟩,?_,hended.tried⟩
    exact iff_of_false (by simp) fun hthrows => hphase (hended.terminated.mpr hthrows)

theorem Ended.valid {s' : State Name} (h : Ended throws s s') (hrunning : s'.phase ≠ .terminated) :
    Valid s' := by
  refine ⟨hrunning,by simp [h.subscriptions],by simp [h.subscriptions],by simp [h.subscriptions],
    fun id hid => h.fresh id ?_,h.logged⟩
  rwa [h.next] at hid

theorem initial_valid (proxy : Bool) : Valid (State.initial proxy : State Name) :=
  ⟨by simp [State.initial],by simp [State.initial],by simp [State.initial],by simp [State.initial],
    fun _ _ => rfl,⟨List.Pairwise.nil,by simp [State.initial]⟩⟩

end Ending

section Runs
variable [DecidableEq Name] {s : State Name}

theorem step_ended (h : Valid s) (halive : s.phase = .alive) {call : Call Name}
    (hclears : call.clears = true) : Ended throws s (step throws s call) := by
  unfold step
  rw [halive]
  cases call with
  | subscribe eventName subscribed => cases hclears
  | unsubscribe eventName => cases hclears
  | unsubscribeAll loop clear => exact unsubscribeAll_ended h loop clear
  | destroy loop clear => exact destroy_ended h loop clear

theorem step_valid (h : Valid s) {call : Call Name} (hno : ¬ ThrowsTwice throws s call) :
    Valid (step throws s call) := by
  by_cases hends : s.phase = .alive ∧ call.clears = true
  · obtain ⟨halive,hclears⟩ := hends
    have hended : Ended throws s (step throws s call) := step_ended throws h halive hclears
    exact hended.valid fun hterminated =>
      hno ⟨halive,hclears,hended.terminated.mp hterminated⟩
  · unfold step
    cases hphase : s.phase with
    | destroyed => exact h
    | terminated => exact h
    | alive =>
      cases call with
      | subscribe eventName subscribed => exact subscribe_valid h eventName subscribed
      | unsubscribe eventName => exact unsubscribe_valid h eventName
      | unsubscribeAll loop clear => exact absurd ⟨hphase,rfl⟩ hends
      | destroy loop clear => exact absurd ⟨hphase,rfl⟩ hends

theorem step_sound_iff (h : Valid s) (call : Call Name) :
    Sound s call (step throws s call) ↔ ¬ ThrowsTwice throws s call := by
  constructor
  · rintro hsound ⟨halive,hclears,hthrows⟩
    have hended : Ended throws s (step throws s call) := step_ended throws h halive hclears
    exact hsound.running (hended.terminated.mpr hthrows)
  · intro hno
    have hvalid := step_valid throws h hno
    exact ⟨hvalid.running,hvalid.logged.once,fun halive hclears =>
      (step_ended throws h halive hclears).tried⟩

/-- In every run of calls, each is sound just where no table is cleared that holds a subscription
whose function throws twice. -/
theorem unsubscription_sound_iff (proxy : Bool) (calls : Nat → Call Name) (n : Nat) :
    (∀ k, k < n → Sound (stateAt (step throws) (.initial proxy) calls k) (calls k)
        (stateAt (step throws) (.initial proxy) calls (k+1))) ↔
      ∀ k, k < n →
        ¬ ThrowsTwice throws (stateAt (step throws) (.initial proxy) calls k) (calls k) := by
  have hinit : Valid (State.initial proxy : State Name) := initial_valid proxy
  exact forall_iff_of_invariant
    (I := fun k => Valid (stateAt (step throws) (.initial proxy) calls k)) hinit
    (fun _ hvalid hno => step_valid throws hvalid hno)
    fun _ hvalid => step_sound_iff throws hvalid _

end Runs

end Model

section Outage

def inOrder : Iteration := ⟨id,List.Perm.refl⟩

def outage : Nat → Call Unit := schedule [.subscribe () true] (.unsubscribeAll inOrder inOrder)

/-- The loop catches the first exception; the second one leaves the destructor of the token. -/
theorem outage_terminates :
    (stateAt (step fun _ _ => true) (.initial true) outage 2).phase = .terminated ∧
      (stateAt (step fun _ _ => true) (.initial true) outage 2).log = [⟨0,false⟩,⟨0,false⟩] ∧
      ¬ Sound (stateAt (step fun _ _ => true) (.initial true) outage 1) (outage 1)
        (stateAt (step fun _ _ => true) (.initial true) outage 2) :=
  ⟨rfl,rfl,fun h => h.running rfl⟩

end Outage

end LapCom.SomeIp
