import Mathlib.Algebra.Order.BigOperators.Group.Finset
import LapCom.ComTypes
import LapCom.Machine.Waiting

set_option autoImplicit false

/-! The fields and methods of a skeleton, whose handlers run under a mutex and call one another. -/

namespace LapCom.SkeletonLocks
open LapCom.Machine Relation

inductive Part where
  | field (hasGetter hasSetter hasNotifier : Bool)
  | method
  | fireAndForget
  deriving DecidableEq

inductive Handler where
  | get
  | set
  | call
  deriving DecidableEq

def Part.serves : Part → Handler → Bool
  | .field _ _ _, .get => true
  | .field _ _ _, .set => true
  | .method, .call => true
  | .fireAndForget, .call => true
  | _, _ => false

def Part.takes : Part → Handler → Bool
  | .field hasGetter _ _, .get => hasGetter
  | .field _ hasSetter _, .set => hasSetter
  | .method, .call => true
  | .fireAndForget, .call => true
  | _, _ => false

inductive Method where
  | registerGetHandler (given : Bool)
  | registerSetHandler (given : Bool)
  | update
  | getSubscriberCount
  | registerMethodHandler (given : Bool)
  | unregisterMethodHandler
  | hasHandler
  deriving DecidableEq

structure Call where
  object : Nat
  method : Method
  deriving DecidableEq

/-- The `m_mutex` of a part and the one of the `SkeletonEvent` in a field. -/
inductive Mutex where
  | object (o : Nat)
  | event (o : Nat)
  deriving DecidableEq

inductive Reply where
  | result (r : Result Unit)
  | has (b : Bool)
  | count (n : BitVec 32)
  | future

/-- What a thread does between its locks. -/
inductive Act where
  | setHandler (o : Nat) (h : Handler) (given : Bool)
  | registerMethodHandler (o : Nat) (given : Bool)
  | hasHandler (o : Nat)
  | send (o : Nat)
  | getSubscriberCount (o : Nat)
  | reply (r : Reply)

inductive Instr where
  | lock (m : Mutex)
  | unlock (m : Mutex)
  | act (a : Act)
  | run (o : Nat) (h : Handler) (calls : List Call)

def locked (o : Nat) (a : Act) : List Instr :=
  [.lock (.object o),.act a,.unlock (.object o)]

def refused : List Instr := [.act (.reply (.result (fail .kInvalidArgument 0)))]

def Call.code (parts : Nat → Part) (c : Call) : List Instr :=
  match parts c.object, c.method with
  | .field hasGetter _ _, .registerGetHandler given =>
    if hasGetter then locked c.object (.setHandler c.object .get given) else refused
  | .field _ hasSetter _, .registerSetHandler given =>
    if hasSetter then locked c.object (.setHandler c.object .set given) else refused
  | .field _ _ hasNotifier, .update =>
    if hasNotifier then
      [.lock (.object c.object),.lock (.event c.object),.act (.send c.object),
        .unlock (.event c.object),.unlock (.object c.object)]
    else refused
  | .field _ _ _, .getSubscriberCount =>
    [.lock (.event c.object),.act (.getSubscriberCount c.object),.unlock (.event c.object)]
  | .method, .registerMethodHandler given =>
    locked c.object (.registerMethodHandler c.object given)
  | .method, .unregisterMethodHandler => locked c.object (.setHandler c.object .call false)
  | .method, .hasHandler => locked c.object (.hasHandler c.object)
  | .fireAndForget, .registerMethodHandler given =>
    locked c.object (.registerMethodHandler c.object given)
  | .fireAndForget, .unregisterMethodHandler => locked c.object (.setHandler c.object .call false)
  | _, _ => []

def processCode (parts : Nat → Part) (o : Nat) (h : Handler) (calls : List Call) : List Instr :=
  if (parts o).serves h then [.lock (.object o),.run o h calls,.unlock (.object o)] else []

structure Thread where
  code : List Instr
  reply : Option Reply

/-- `isOffered` is the flag of the event in a field; no code sets it. -/
structure System where
  owner : Mutex → Option Nat
  threads : Nat → Thread
  handlers : Nat → Handler → Bool
  isOffered : Nat → Bool

def System.initial : System :=
  ⟨fun _ => none,fun _ => ⟨[],none⟩,fun _ _ => false,fun _ => false⟩

/-- A thread of the application calls a public method; a request comes to a part, and its handler,
if there is one, makes the calls; a thread goes on. -/
inductive Event where
  | call (t : Nat) (c : Call)
  | process (t o : Nat) (h : Handler) (calls : List Call)
  | step (t : Nat)

def Event.thread : Event → Nat
  | .call t _ => t
  | .process t _ _ _ => t
  | .step t => t

namespace System

def goto (s : System) (t : Nat) (code : List Instr) : System :=
  { s with threads := Function.update s.threads t { s.threads t with code := code } }

def give (s : System) (t : Nat) (r : Reply) : System :=
  { s with threads := Function.update s.threads t { s.threads t with reply := some r } }

def setHandler (s : System) (o : Nat) (h : Handler) (given : Bool) : System :=
  { s with handlers := Function.update s.handlers o (Function.update (s.handlers o) h given) }

/-- A second handler is refused. -/
def registerMethodHandler (s : System) (t o : Nat) (given : Bool) : System :=
  if s.handlers o .call then s.give t (.result (fail .kSetHandlerNotSet 0))
  else (s.setHandler o .call given).give t (.result (.ok ()))

def perform (s : System) (t : Nat) : Act → System
  | .setHandler o h given => (s.setHandler o h given).give t (.result (.ok ()))
  | .registerMethodHandler o given => s.registerMethodHandler t o given
  | .hasHandler o => s.give t (.has (s.handlers o .call))
  | .send o =>
    s.give t (.result (if s.isOffered o then .ok () else fail .kServiceNotOffered 0))
  | .getSubscriberCount _ => s.give t (.count 0)
  | .reply r => s.give t r

def unhandled (parts : Nat → Part) (o : Nat) : List Instr :=
  match parts o with
  | .fireAndForget => []
  | _ => [.act (.reply (.result (fail .kSetHandlerNotSet 0)))]

def handled (parts : Nat → Part) (o : Nat) : List Instr :=
  match parts o with
  | .fireAndForget => []
  | _ => [.act (.reply .future)]

/-- A thread that finds the mutex taken stays where it is. -/
def advance (parts : Nat → Part) (s : System) (t : Nat) : System :=
  match (s.threads t).code with
  | [] => s
  | .lock m :: code =>
    match s.owner m with
    | none => { s.goto t code with owner := Function.update s.owner m (some t) }
    | some _ => s
  | .unlock m :: code => { s.goto t code with owner := Function.update s.owner m none }
  | .act a :: code => (s.goto t code).perform t a
  | .run o h calls :: code =>
    if s.handlers o h then s.goto t (calls.flatMap (Call.code parts)++handled parts o++code)
    else s.goto t (unhandled parts o++code)

end System

def begin (s : System) (t : Nat) (code : List Instr) : System :=
  match (s.threads t).code with
  | [] => s.goto t code
  | _ :: _ => s

def step (parts : Nat → Part) (s : System) : Event → System
  | .call t c => begin s t (c.code parts)
  | .process t o h calls => begin s t (processCode parts o h calls)
  | .step t => s.advance parts t

def run (parts : Nat → Part) (s : System) (es : List Event) : System := es.foldl (step parts) s

@[simp] theorem run_nil (parts : Nat → Part) (s : System) : run parts s [] = s := rfl

@[simp] theorem run_cons (parts : Nat → Part) (s : System) (e : Event) (es : List Event) :
    run parts s (e :: es) = run parts (step parts s e) es := rfl

@[simp] theorem run_append (parts : Nat → Part) (s : System) (es es' : List Event) :
    run parts s (es++es') = run parts (run parts s es) es' := List.foldl_append

def Call.Locks (parts : Nat → Part) (c : Call) : Prop :=
  Instr.lock (.object c.object) ∈ c.code parts

/-- The handlers of `o` lock no part but those that `R` allows. -/
def Keeps (parts : Nat → Part) (R : Nat → Nat → Prop) : Event → Prop
  | .process _ o _ calls => ∀ c, c ∈ calls → c.Locks parts → R o c.object
  | _ => True

/-- A handler of `o`, where `o` takes one, may lock `o'`, where a method locks it. -/
def Edge (parts : Nat → Part) (R : Nat → Nat → Prop) (o o' : Nat) : Prop :=
  R o o' ∧ (∃ h, (parts o).takes h = true) ∧ ∃ c : Call, c.object = o' ∧ c.Locks parts

section Order
variable {parts : Nat → Part} {R : Nat → Nat → Prop}

/-- The order in which a thread takes its locks. -/
def Below (parts : Nat → Part) (R : Nat → Nat → Prop) : Mutex → Mutex → Prop
  | .object o, .object o' => Edge parts R o o'
  | .object _, .event _ => True
  | .event _, _ => False

theorem below_object {m : Mutex} {o : Nat} (h : TransGen (Below parts R) m (.object o)) :
    ∃ o', m = .object o' ∧ TransGen (Edge parts R) o' o := by
  induction h using TransGen.head_induction_on with
  | @single m h =>
    cases m with
    | object o' => exact ⟨o',rfl,.single h⟩
    | event o' => cases h
  | @head m n h _ ih =>
    obtain ⟨o',rfl,hpath⟩ := ih
    cases m with
    | object o₀ => exact ⟨o₀,rfl,.head h hpath⟩
    | event o₀ => cases h

theorem below_acyclic (h : ∀ o, ¬ TransGen (Edge parts R) o o) (m : Mutex) :
    ¬ TransGen (Below parts R) m m := by
  intro hm
  cases m with
  | object o =>
    obtain ⟨o',heq,hpath⟩ := below_object hm
    cases heq
    exact h o hpath
  | event o =>
    obtain ⟨m,hm,_⟩ := TransGen.head'_iff.mp hm
    exact hm

def Act.Fits (parts : Nat → Part) : Act → Prop
  | .setHandler o h given => given = true → (parts o).takes h = true
  | .registerMethodHandler o _ => (parts o).takes .call = true
  | _ => True

/-- A thread with these locks runs the code in the order of the locks, and gives them all back. -/
def Fits (parts : Nat → Part) (R : Nat → Nat → Prop) : List Mutex → List Instr → Prop
  | held, [] => held = []
  | held, .lock m :: code =>
    (∀ l, l ∈ held → Below parts R l m) ∧ Fits parts R (m :: held) code
  | held, .unlock m :: code => ∃ rest, held = m :: rest ∧ Fits parts R rest code
  | held, .act a :: code => a.Fits parts ∧ Fits parts R held code
  | held, .run o _ calls :: code =>
    held = [.object o] ∧ (∀ c, c ∈ calls → c.Locks parts → R o c.object) ∧ Fits parts R held code

theorem fits_locked {held : List Mutex} {o : Nat} {a : Act} {code : List Instr}
    (hbelow : ∀ l, l ∈ held → Below parts R l (.object o)) (ha : a.Fits parts)
    (hcode : Fits parts R held code) : Fits parts R held (locked o a++code) :=
  ⟨hbelow,ha,held,rfl,hcode⟩

/-- Every public method fits where the locks that its thread has come before the one of its part. -/
theorem call_fits {held : List Mutex} {c : Call} {code : List Instr}
    (hbelow : ∀ l, l ∈ held → (c.Locks parts → Below parts R l (.object c.object)) ∧
      Below parts R l (.event c.object))
    (hcode : Fits parts R held code) : Fits parts R held (c.code parts++code) := by
  obtain ⟨o,method⟩ := c
  have hown : .lock (.object o) ∈ Call.code parts ⟨o,method⟩ →
      ∀ l, l ∈ held → Below parts R l (.object o) := fun hlocks l hl => (hbelow l hl).1 hlocks
  have hevent : ∀ l, l ∈ held → Below parts R l (.event o) := fun l hl => (hbelow l hl).2
  simp only [Call.code] at hown ⊢
  cases hpart : parts o with
  | field hasGetter hasSetter hasNotifier =>
    cases method with
    | registerGetHandler given =>
      cases hasGetter with
      | false => exact ⟨trivial,hcode⟩
      | true =>
        exact fits_locked (hown (by simp [hpart,locked])) (by simp [Act.Fits,hpart,Part.takes])
          hcode
    | registerSetHandler given =>
      cases hasSetter with
      | false => exact ⟨trivial,hcode⟩
      | true =>
        exact fits_locked (hown (by simp [hpart,locked])) (by simp [Act.Fits,hpart,Part.takes])
          hcode
    | update =>
      cases hasNotifier with
      | false => exact ⟨trivial,hcode⟩
      | true =>
        refine ⟨hown (by simp [hpart]),fun l hl => ?_,trivial,_,rfl,_,rfl,hcode⟩
        rcases List.mem_cons.mp hl with rfl | hl
        · trivial
        · exact hevent l hl
    | getSubscriberCount => exact ⟨hevent,trivial,_,rfl,hcode⟩
    | registerMethodHandler given => exact hcode
    | unregisterMethodHandler => exact hcode
    | hasHandler => exact hcode
  | method =>
    cases method with
    | registerMethodHandler given =>
      exact fits_locked (hown (by simp [hpart,locked])) (by simp [Act.Fits,hpart,Part.takes]) hcode
    | unregisterMethodHandler =>
      exact fits_locked (hown (by simp [hpart,locked])) (by simp [Act.Fits]) hcode
    | hasHandler => exact fits_locked (hown (by simp [hpart,locked])) trivial hcode
    | registerGetHandler given => exact hcode
    | registerSetHandler given => exact hcode
    | update => exact hcode
    | getSubscriberCount => exact hcode
  | fireAndForget =>
    cases method with
    | registerMethodHandler given =>
      exact fits_locked (hown (by simp [hpart,locked])) (by simp [Act.Fits,hpart,Part.takes]) hcode
    | unregisterMethodHandler =>
      exact fits_locked (hown (by simp [hpart,locked])) (by simp [Act.Fits]) hcode
    | registerGetHandler given => exact hcode
    | registerSetHandler given => exact hcode
    | update => exact hcode
    | getSubscriberCount => exact hcode
    | hasHandler => exact hcode

theorem calls_fit {o : Nat} (ho : ∃ h, (parts o).takes h = true) {calls : List Call}
    (hcalls : ∀ c, c ∈ calls → c.Locks parts → R o c.object) {code : List Instr}
    (hcode : Fits parts R [.object o] code) :
    Fits parts R [.object o] (calls.flatMap (Call.code parts)++code) := by
  induction calls with
  | nil => exact hcode
  | cons c calls ih =>
    rw [List.flatMap_cons,List.append_assoc]
    refine call_fits (fun l hl => ?_) (ih fun c hc => hcalls c (List.mem_cons_of_mem _ hc))
    rw [List.mem_singleton.mp hl]
    exact ⟨fun hlocks => ⟨hcalls c List.mem_cons_self hlocks,ho,c,rfl,hlocks⟩,trivial⟩

theorem process_fits (o : Nat) (h : Handler) {calls : List Call}
    (hcalls : ∀ c, c ∈ calls → c.Locks parts → R o c.object) :
    Fits parts R [] (processCode parts o h calls) := by
  unfold processCode
  split_ifs
  · exact ⟨by simp,rfl,hcalls,_,rfl,rfl⟩
  · rfl

end Order

section Frame
variable (s : System) (t : Nat) (code : List Instr)

@[simp] theorem goto_owner : (s.goto t code).owner = s.owner := rfl

@[simp] theorem goto_handlers : (s.goto t code).handlers = s.handlers := rfl

@[simp] theorem goto_code : ((s.goto t code).threads t).code = code := by
  simp [System.goto]

theorem goto_code_of_ne {u : Nat} (hu : u ≠ t) :
    ((s.goto t code).threads u).code = (s.threads u).code := by
  simp [System.goto,hu]

theorem give_code (r : Reply) (u : Nat) : ((s.give t r).threads u).code = (s.threads u).code := by
  by_cases hu : u = t
  · subst hu
    simp [System.give]
  · simp [System.give,hu]

theorem perform_code (a : Act) (u : Nat) :
    ((s.perform t a).threads u).code = (s.threads u).code := by
  cases a with
  | setHandler o h given => exact give_code (s.setHandler o h given) t _ u
  | registerMethodHandler o given =>
    simp only [System.perform,System.registerMethodHandler]
    split_ifs
    · exact give_code s t _ u
    · exact give_code (s.setHandler o .call given) t _ u
  | hasHandler o => exact give_code s t _ u
  | send o => exact give_code s t _ u
  | getSubscriberCount o => exact give_code s t _ u
  | reply r => exact give_code s t _ u

theorem perform_owner (a : Act) : (s.perform t a).owner = s.owner := by
  cases a with
  | registerMethodHandler o given =>
    simp only [System.perform,System.registerMethodHandler]
    split_ifs <;> rfl
  | _ => rfl

theorem setHandler_handlers {o : Nat} {h : Handler} {given : Bool} {o' : Nat} {h' : Handler}
    (hset : (s.setHandler o h given).handlers o' h' = true) :
    s.handlers o' h' = true ∨ (o' = o ∧ h' = h ∧ given = true) := by
  by_cases ho : o' = o
  · subst ho
    by_cases hh : h' = h
    · subst hh
      exact .inr ⟨rfl,rfl,by simpa [System.setHandler] using hset⟩
    · exact .inl (by simpa [System.setHandler,hh] using hset)
  · exact .inl (by simpa [System.setHandler,ho] using hset)

end Frame

section Advance
variable {parts : Nat → Part} {s : System} {t : Nat} {code : List Instr}

theorem advance_idle (h : (s.threads t).code = []) : s.advance parts t = s := by
  simp [System.advance,h]

theorem advance_lock {m : Mutex} (h : (s.threads t).code = .lock m :: code)
    (hfree : s.owner m = none) : s.advance parts t =
      { s.goto t code with owner := Function.update s.owner m (some t) } := by
  simp [System.advance,h,hfree]

theorem advance_taken {m : Mutex} {u : Nat} (h : (s.threads t).code = .lock m :: code)
    (htaken : s.owner m = some u) : s.advance parts t = s := by
  simp [System.advance,h,htaken]

theorem advance_unlock {m : Mutex} (h : (s.threads t).code = .unlock m :: code) :
    s.advance parts t = { s.goto t code with owner := Function.update s.owner m none } := by
  simp [System.advance,h]

theorem advance_act {a : Act} (h : (s.threads t).code = .act a :: code) :
    s.advance parts t = (s.goto t code).perform t a := by
  simp [System.advance,h]

theorem advance_handled {o : Nat} {k : Handler} {calls : List Call}
    (h : (s.threads t).code = .run o k calls :: code) (hset : s.handlers o k = true) :
    s.advance parts t =
      s.goto t (calls.flatMap (Call.code parts)++(System.handled parts o++code)) := by
  simp [System.advance,h,hset]

theorem advance_unhandled {o : Nat} {k : Handler} {calls : List Call}
    (h : (s.threads t).code = .run o k calls :: code) (hset : s.handlers o k = false) :
    s.advance parts t = s.goto t (System.unhandled parts o++code) := by
  simp [System.advance,h,hset]

end Advance

/-- Handlers are set only where they may be, and each thread has the locks that the rest of its code
gives back. -/
structure Sound (parts : Nat → Part) (R : Nat → Nat → Prop) (s : System) : Prop where
  handlers : ∀ o h, s.handlers o h = true → (parts o).takes h = true
  threads : ∀ t, ∃ held : List Mutex, held.Nodup ∧ (∀ m, s.owner m = some t ↔ m ∈ held) ∧
    Fits parts R held (s.threads t).code

section Steps
variable {parts : Nat → Part} {R : Nat → Nat → Prop} {s : System}

theorem Sound.goto (h : Sound parts R s) {t : Nat} {code : List Instr}
    (hcode : ∀ held, Fits parts R held (s.threads t).code → Fits parts R held code) :
    Sound parts R (s.goto t code) := by
  refine ⟨h.handlers,fun u => ?_⟩
  obtain ⟨held,hnodup,howner,hfits⟩ := h.threads u
  refine ⟨held,hnodup,howner,?_⟩
  by_cases hu : u = t
  · subst hu
    rw [goto_code]
    exact hcode held hfits
  · rw [goto_code_of_ne s t code hu]
    exact hfits

theorem Sound.begin (h : Sound parts R s) {t : Nat} {code : List Instr}
    (hcode : Fits parts R [] code) : Sound parts R (begin s t code) := by
  unfold SkeletonLocks.begin
  cases hidle : (s.threads t).code with
  | nil =>
    refine h.goto fun held hfits => ?_
    rw [hidle] at hfits
    rw [show held = [] from hfits]
    exact hcode
  | cons i rest => exact h

theorem Sound.perform (h : Sound parts R s) (t : Nat) {a : Act} (ha : a.Fits parts) :
    Sound parts R (s.perform t a) := by
  refine ⟨fun o k hk => ?_,fun u => ?_⟩
  · cases a with
    | setHandler o' h' given =>
      rcases setHandler_handlers s hk with hk | ⟨rfl,rfl,hgiven⟩
      · exact h.handlers o k hk
      · exact ha hgiven
    | registerMethodHandler o' given =>
      simp only [System.perform,System.registerMethodHandler] at hk
      split_ifs at hk
      · exact h.handlers o k hk
      · rcases setHandler_handlers s hk with hk | ⟨rfl,rfl,_⟩
        · exact h.handlers o k hk
        · exact ha
    | hasHandler o' => exact h.handlers o k hk
    | send o' => exact h.handlers o k hk
    | getSubscriberCount o' => exact h.handlers o k hk
    | reply r => exact h.handlers o k hk
  · rw [perform_owner,perform_code]
    exact h.threads u

theorem Sound.lock (h : Sound parts R s) {t : Nat} {m : Mutex} {code : List Instr}
    (hcode : (s.threads t).code = .lock m :: code) (hfree : s.owner m = none) :
    Sound parts R { s.goto t code with owner := Function.update s.owner m (some t) } := by
  refine ⟨h.handlers,fun u => ?_⟩
  obtain ⟨held,hnodup,howner,hfits⟩ := h.threads u
  have hm : m ∉ held := by
    intro hm
    rw [(howner m).mpr hm] at hfree
    cases hfree
  by_cases hu : u = t
  · subst hu
    rw [hcode] at hfits
    refine ⟨m :: held,List.nodup_cons.mpr ⟨hm,hnodup⟩,fun l => ?_,?_⟩
    · by_cases hl : l = m
      · simp [hl]
      · simp [hl,howner]
    · show Fits parts R _ ((s.goto u code).threads u).code
      rw [goto_code]
      exact hfits.2
  · refine ⟨held,hnodup,fun l => ?_,?_⟩
    · by_cases hl : l = m
      · subst hl
        simp [hm,Ne.symm hu]
      · simp [hl,howner]
    · show Fits parts R _ ((s.goto t code).threads u).code
      rw [goto_code_of_ne s t code hu]
      exact hfits

theorem Sound.unlock (h : Sound parts R s) {t : Nat} {m : Mutex} {code : List Instr}
    (hcode : (s.threads t).code = .unlock m :: code) :
    Sound parts R { s.goto t code with owner := Function.update s.owner m none } := by
  have hmine : s.owner m = some t := by
    obtain ⟨held,_,howner,hfits⟩ := h.threads t
    rw [hcode] at hfits
    obtain ⟨rest,rfl,_⟩ := hfits
    exact (howner m).mpr List.mem_cons_self
  refine ⟨h.handlers,fun u => ?_⟩
  obtain ⟨held,hnodup,howner,hfits⟩ := h.threads u
  by_cases hu : u = t
  · subst hu
    rw [hcode] at hfits
    obtain ⟨rest,rfl,hfits⟩ := hfits
    obtain ⟨hm,hnodup⟩ := List.nodup_cons.mp hnodup
    refine ⟨rest,hnodup,fun l => ?_,?_⟩
    · by_cases hl : l = m
      · subst hl
        simp [hm]
      · simp [hl,howner]
    · show Fits parts R _ ((s.goto u code).threads u).code
      rw [goto_code]
      exact hfits
  · have hm : m ∉ held := by
      intro hm
      have hother := (howner m).mpr hm
      rw [hmine] at hother
      exact hu (Option.some.inj hother).symm
    refine ⟨held,hnodup,fun l => ?_,?_⟩
    · by_cases hl : l = m
      · subst hl
        simp [hm]
      · simp [hl,howner]
    · show Fits parts R _ ((s.goto t code).threads u).code
      rw [goto_code_of_ne s t code hu]
      exact hfits

theorem unhandled_fits (o : Nat) {held : List Mutex} {code : List Instr}
    (hcode : Fits parts R held code) : Fits parts R held (System.unhandled parts o++code) := by
  unfold System.unhandled
  cases parts o with
  | fireAndForget => exact hcode
  | method => exact ⟨trivial,hcode⟩
  | field _ _ _ => exact ⟨trivial,hcode⟩

theorem handled_fits (o : Nat) {held : List Mutex} {code : List Instr}
    (hcode : Fits parts R held code) : Fits parts R held (System.handled parts o++code) := by
  unfold System.handled
  cases parts o with
  | fireAndForget => exact hcode
  | method => exact ⟨trivial,hcode⟩
  | field _ _ _ => exact ⟨trivial,hcode⟩

theorem Sound.advance (h : Sound parts R s) (t : Nat) : Sound parts R (s.advance parts t) := by
  cases hcode : (s.threads t).code with
  | nil =>
    rw [advance_idle hcode]
    exact h
  | cons i code =>
    cases i with
    | lock m =>
      cases hfree : s.owner m with
      | none =>
        rw [advance_lock hcode hfree]
        exact h.lock hcode hfree
      | some u =>
        rw [advance_taken hcode hfree]
        exact h
    | unlock m =>
      rw [advance_unlock hcode]
      exact h.unlock hcode
    | act a =>
      obtain ⟨held,_,_,hfits⟩ := h.threads t
      rw [hcode] at hfits
      rw [advance_act hcode]
      refine (h.goto fun held hfits => ?_).perform t hfits.1
      rw [hcode] at hfits
      exact hfits.2
    | run o k calls =>
      cases hset : s.handlers o k with
      | true =>
        rw [advance_handled hcode hset]
        refine h.goto fun held hfits => ?_
        rw [hcode] at hfits
        obtain ⟨rfl,hcalls,hfits⟩ := hfits
        exact calls_fit ⟨k,h.handlers o k hset⟩ hcalls (handled_fits o hfits)
      | false =>
        rw [advance_unhandled hcode hset]
        refine h.goto fun held hfits => ?_
        rw [hcode] at hfits
        exact unhandled_fits o hfits.2.2

theorem Sound.step (h : Sound parts R s) {e : Event} (he : Keeps parts R e) :
    Sound parts R (step parts s e) := by
  cases e with
  | call t c =>
    have hfits : Fits parts R [] (c.code parts++[]) := call_fits (by simp) rfl
    rw [List.append_nil] at hfits
    exact h.begin hfits
  | process t o k calls => exact h.begin (process_fits o k he)
  | step t => exact h.advance t

theorem Sound.run (h : Sound parts R s) {es : List Event} (hes : ∀ e, e ∈ es → Keeps parts R e) :
    Sound parts R (run parts s es) := by
  induction es generalizing s with
  | nil => exact h
  | cons e es ih =>
    exact ih (h.step (hes e List.mem_cons_self)) fun e he => hes e (List.mem_cons_of_mem _ he)

theorem sound_initial : Sound parts R .initial :=
  ⟨by simp [System.initial],fun _ => ⟨[],List.nodup_nil,by simp [System.initial],rfl⟩⟩

end Steps

section Return
variable {parts : Nat → Part} {R : Nat → Nat → Prop} {s : System}

def System.wants (s : System) (t : Nat) : Option Mutex :=
  match (s.threads t).code with
  | .lock m :: _ => some m
  | _ => none

theorem wants_of_code {t : Nat} {m : Mutex} {code : List Instr}
    (h : (s.threads t).code = .lock m :: code) : s.wants t = some m := by
  simp [System.wants,h]

theorem code_of_wants {t : Nat} {m : Mutex} (h : s.wants t = some m) :
    ∃ code, (s.threads t).code = .lock m :: code := by
  unfold System.wants at h
  split at h
  · rename_i m' code hcode
    obtain rfl := Option.some.inj h
    exact ⟨code,hcode⟩
  · cases h

theorem Sound.in_order (h : Sound parts R s) {t : Nat} {l m : Mutex} (hl : s.owner l = some t)
    (hm : s.wants t = some m) : Below parts R l m := by
  obtain ⟨held,_,howner,hfits⟩ := h.threads t
  obtain ⟨code,hcode⟩ := code_of_wants hm
  rw [hcode] at hfits
  exact hfits.1 l ((howner l).mp hl)

theorem Sound.busy_of_owner (h : Sound parts R s) {t : Nat} {l : Mutex} (hl : s.owner l = some t) :
    (s.threads t).code ≠ [] := by
  intro hidle
  obtain ⟨held,_,howner,hfits⟩ := h.threads t
  rw [hidle] at hfits
  rw [show held = [] from hfits] at howner
  exact List.not_mem_nil ((howner l).mp hl)

def Instr.weight (parts : Nat → Part) : Instr → Nat
  | .run _ _ calls => (calls.flatMap (Call.code parts)).length+3
  | _ => 1

def weight (parts : Nat → Part) : List Instr → Nat
  | [] => 0
  | i :: code => i.weight parts+weight parts code

@[simp] theorem weight_cons (i : Instr) (code : List Instr) :
    weight parts (i :: code) = i.weight parts+weight parts code := rfl

@[simp] theorem weight_append (code code' : List Instr) :
    weight parts (code++code') = weight parts code+weight parts code' := by
  induction code with
  | nil => simp [weight]
  | cons i code ih => rw [List.cons_append,weight_cons,weight_cons,ih,Nat.add_assoc]

theorem weight_call (c : Call) : weight parts (c.code parts) = (c.code parts).length := by
  obtain ⟨o,method⟩ := c
  unfold Call.code
  cases parts o with
  | field hasGetter hasSetter hasNotifier =>
    cases method with
    | registerGetHandler given => cases hasGetter <;> rfl
    | registerSetHandler given => cases hasSetter <;> rfl
    | update => cases hasNotifier <;> rfl
    | _ => rfl
  | method => cases method <;> rfl
  | fireAndForget => cases method <;> rfl

theorem weight_calls (calls : List Call) :
    weight parts (calls.flatMap (Call.code parts)) =
      (calls.flatMap (Call.code parts)).length := by
  induction calls with
  | nil => rfl
  | cons c calls ih => simp [weight_call,ih]

theorem weight_unhandled (o : Nat) : weight parts (System.unhandled parts o) ≤ 1 := by
  unfold System.unhandled
  cases parts o <;> simp [weight,Instr.weight]

theorem weight_handled (o : Nat) : weight parts (System.handled parts o) ≤ 1 := by
  unfold System.handled
  cases parts o <;> simp [weight,Instr.weight]

theorem advance_lighter {t : Nat} (hbusy : (s.threads t).code ≠ [])
    (hfree : ∀ m, s.wants t = some m → s.owner m = none) :
    weight parts ((s.advance parts t).threads t).code < weight parts (s.threads t).code := by
  cases hcode : (s.threads t).code with
  | nil => exact absurd hcode hbusy
  | cons i code =>
    cases i with
    | lock m =>
      rw [advance_lock hcode (hfree m (wants_of_code hcode))]
      show weight parts ((s.goto t code).threads t).code < _
      simp [Instr.weight]
    | unlock m =>
      rw [advance_unlock hcode]
      show weight parts ((s.goto t code).threads t).code < _
      simp [Instr.weight]
    | act a =>
      rw [advance_act hcode,perform_code]
      simp [Instr.weight]
    | run o k calls =>
      cases hset : s.handlers o k with
      | true =>
        have hhandled : weight parts (System.handled parts o) ≤ 1 := weight_handled o
        rw [advance_handled hcode hset,goto_code]
        simp only [weight_append,weight_cons,weight_calls,Instr.weight]
        omega
      | false =>
        have hunhandled : weight parts (System.unhandled parts o) ≤ 1 := weight_unhandled o
        rw [advance_unhandled hcode hset,goto_code]
        simp only [weight_append,weight_cons,Instr.weight]
        omega

theorem advance_code_of_ne {t u : Nat} (hu : u ≠ t) :
    ((s.advance parts t).threads u).code = (s.threads u).code := by
  cases hcode : (s.threads t).code with
  | nil => rw [advance_idle hcode]
  | cons i code =>
    cases i with
    | lock m =>
      cases hfree : s.owner m with
      | none =>
        rw [advance_lock hcode hfree]
        exact goto_code_of_ne s t code hu
      | some v => rw [advance_taken hcode hfree]
    | unlock m =>
      rw [advance_unlock hcode]
      exact goto_code_of_ne s t code hu
    | act a =>
      rw [advance_act hcode,perform_code]
      exact goto_code_of_ne s t code hu
    | run o k calls =>
      cases hset : s.handlers o k with
      | true =>
        rw [advance_handled hcode hset]
        exact goto_code_of_ne s t _ hu
      | false =>
        rw [advance_unhandled hcode hset]
        exact goto_code_of_ne s t _ hu

theorem begin_code_of_ne {t u : Nat} {code : List Instr} (hu : u ≠ t) :
    ((begin s t code).threads u).code = (s.threads u).code := by
  unfold SkeletonLocks.begin
  cases (s.threads t).code with
  | nil => exact goto_code_of_ne s t code hu
  | cons i rest => rfl

theorem step_code_of_ne {e : Event} {u : Nat} (hu : u ≠ e.thread) :
    ((step parts s e).threads u).code = (s.threads u).code := by
  cases e with
  | call t c => exact begin_code_of_ne hu
  | process t o k calls => exact begin_code_of_ne hu
  | step t => exact advance_code_of_ne hu

theorem exists_idle_outside {F : Finset Nat} (hF : ∀ t, t ∉ F → (s.threads t).code = [])
    (es : List Event) : ∃ F : Finset Nat, ∀ t, t ∉ F → ((run parts s es).threads t).code = [] := by
  induction es generalizing s F with
  | nil => exact ⟨F,hF⟩
  | cons e es ih =>
    refine ih (s := step parts s e) (F := insert e.thread F) fun t ht => ?_
    rw [Finset.mem_insert,not_or] at ht
    rw [step_code_of_ne ht.1]
    exact hF t ht.2

theorem Sound.returns (hacyclic : ∀ o, ¬ TransGen (Edge parts R) o o) {F : Finset Nat} {n : Nat}
    (h : Sound parts R s) (hF : ∀ t, t ∉ F → (s.threads t).code = [])
    (hn : ∑ t ∈ F, weight parts (s.threads t).code ≤ n) :
    ∃ ts : List Nat, ∀ t, ((SkeletonLocks.run parts s (ts.map .step)).threads t).code = [] := by
  induction n using Nat.strongRecOn generalizing s with
  | _ n ih =>
    by_cases hidle : ∀ t, (s.threads t).code = []
    · exact ⟨[],hidle⟩
    · obtain ⟨u,hu⟩ := not_forall.mp hidle
      have hfinite : {t | (s.threads t).code ≠ []}.Finite :=
        F.finite_toSet.subset fun t ht => by_contra fun hout => ht (hF t hout)
      obtain ⟨t,hbusy,hfree⟩ := exists_free (below_acyclic hacyclic)
        (fun t l m hl hm => h.in_order (t := t) hl hm) hfinite (fun l t hl => h.busy_of_owner hl)
        ⟨u,hu⟩
      have ht : t ∈ F := by_contra fun hout => hbusy (hF t hout)
      have hlighter : ∑ u ∈ F, weight parts ((s.advance parts t).threads u).code <
          ∑ u ∈ F, weight parts (s.threads u).code := by
        refine Finset.sum_lt_sum (fun u _ => ?_) ⟨t,ht,advance_lighter hbusy hfree⟩
        by_cases hu : u = t
        · rw [hu]
          exact Nat.le_of_lt (advance_lighter hbusy hfree)
        · rw [advance_code_of_ne hu]
      obtain ⟨ts,hts⟩ := ih _ (Nat.lt_of_lt_of_le hlighter hn) (h.advance t)
        (fun u hu => (advance_code_of_ne (by rintro rfl; exact hu ht)).trans (hF u hu))
        (Nat.le_refl _)
      exact ⟨t :: ts,hts⟩

end Return

section Knots
variable {parts : Nat → Part} {R : Nat → Nat → Prop} {s : System} {K : Set Nat}

theorem knot_advance (h : Sound parts R s) (hK : Knot s.owner s.wants K) (t : Nat) :
    Knot (s.advance parts t).owner (s.advance parts t).wants K := by
  by_cases ht : t ∈ K
  · obtain ⟨u,_,m,hm,howner⟩ := hK t ht
    obtain ⟨code,hcode⟩ := code_of_wants hm
    rw [advance_taken hcode howner]
    exact hK
  · intro v hv
    obtain ⟨u,hu,m,hm,howner⟩ := hK v hv
    have hvt : v ≠ t := by
      rintro rfl
      exact ht hv
    have hut : u ≠ t := by
      rintro rfl
      exact ht hu
    refine ⟨u,hu,m,?_,?_⟩
    · rw [System.wants,advance_code_of_ne hvt]
      exact hm
    · cases hcode : (s.threads t).code with
      | nil =>
        rw [advance_idle hcode]
        exact howner
      | cons i code =>
        cases i with
        | lock l =>
          cases hl : s.owner l with
          | none =>
            have hml : m ≠ l := by
              rintro rfl
              rw [hl] at howner
              cases howner
            rw [advance_lock hcode hl]
            exact (Function.update_of_ne hml _ _).trans howner
          | some w =>
            rw [advance_taken hcode hl]
            exact howner
        | unlock l =>
          have hml : m ≠ l := by
            rintro rfl
            obtain ⟨held,_,hheld,hfits⟩ := h.threads t
            rw [hcode] at hfits
            obtain ⟨rest,rfl,_⟩ := hfits
            have hmine := (hheld m).mpr List.mem_cons_self
            rw [howner] at hmine
            exact hut (Option.some.inj hmine)
          rw [advance_unlock hcode]
          exact (Function.update_of_ne hml _ _).trans howner
        | act a =>
          rw [advance_act hcode,perform_owner]
          exact howner
        | run o k calls =>
          cases hset : s.handlers o k with
          | true =>
            rw [advance_handled hcode hset]
            exact howner
          | false =>
            rw [advance_unhandled hcode hset]
            exact howner

theorem knot_run (h : Sound parts R s) (hK : Knot s.owner s.wants K) (ts : List Nat) :
    Knot (run parts s (ts.map .step)).owner (run parts s (ts.map .step)).wants K := by
  induction ts generalizing s with
  | nil => exact hK
  | cons t ts ih => exact ih (h.advance t) (knot_advance h hK t)

theorem busy_of_knot (hK : Knot s.owner s.wants K) {t : Nat} (ht : t ∈ K) :
    (s.threads t).code ≠ [] := by
  intro hidle
  obtain ⟨u,_,m,hm,_⟩ := hK t ht
  obtain ⟨code,hcode⟩ := code_of_wants hm
  rw [hidle] at hcode
  cases hcode

end Knots

section Cycle
variable {parts : Nat → Part} {R : Nat → Nat → Prop} {s : System}

theorem lock_first {c : Call} (h : c.Locks parts) :
    ∃ code, c.code parts = .lock (.object c.object) :: code := by
  obtain ⟨o,method⟩ := c
  unfold Call.Locks at h
  unfold Call.code at h ⊢
  cases hpart : parts o with
  | field hasGetter hasSetter hasNotifier =>
    cases method with
    | registerGetHandler given => cases hasGetter <;> simp_all [locked,refused]
    | registerSetHandler given => cases hasSetter <;> simp_all [locked,refused]
    | update => cases hasNotifier <;> simp_all [refused]
    | _ => simp_all
  | method => cases method <;> simp_all [locked]
  | fireAndForget => cases method <;> simp_all [locked]

theorem serves_of_takes {p : Part} {h : Handler} (htakes : p.takes h = true) :
    p.serves h = true := by
  cases p <;> cases h <;> simp_all [Part.takes,Part.serves]

def registration (x : Nat) : Handler → Act
  | .get => .setHandler x .get true
  | .set => .setHandler x .set true
  | .call => .registerMethodHandler x true

def registering (x : Nat) : Handler → Call
  | .get => ⟨x,.registerGetHandler true⟩
  | .set => ⟨x,.registerSetHandler true⟩
  | .call => ⟨x,.registerMethodHandler true⟩

theorem registering_code {x : Nat} {h : Handler} (htakes : (parts x).takes h = true) :
    (registering x h).code parts = locked x (registration x h) := by
  cases hpart : parts x <;> cases h <;>
    simp_all [Part.takes,registering,registration,Call.code]

theorem setHandler_true (s : System) (x : Nat) (h : Handler) :
    (s.setHandler x h true).handlers x h = true ∧ ∀ o k, s.handlers o k = true →
      (s.setHandler x h true).handlers o k = true := by
  refine ⟨by simp [System.setHandler],fun o k hk => ?_⟩
  by_cases ho : o = x
  · subst ho
    by_cases hh : k = h
    · simp [System.setHandler,hh]
    · simp [System.setHandler,hh,hk]
  · simp [System.setHandler,ho,hk]

theorem registration_sets (s : System) (t x : Nat) (h : Handler) :
    (s.perform t (registration x h)).handlers x h = true ∧ ∀ o k, s.handlers o k = true →
      (s.perform t (registration x h)).handlers o k = true := by
  cases h with
  | get => exact setHandler_true s x .get
  | set => exact setHandler_true s x .set
  | call =>
    simp only [registration,System.perform,System.registerMethodHandler]
    split_ifs with hset
    · exact ⟨hset,fun _ _ hk => hk⟩
    · exact setHandler_true s x .call

def Quiet (s : System) : Prop := (∀ t, (s.threads t).code = []) ∧ ∀ m, s.owner m = none

theorem exists_registered (hquiet : Quiet s) {x : Nat} {h : Handler}
    (htakes : (parts x).takes h = true) :
    ∃ es : List Event, (∀ e, e ∈ es → Keeps parts R e) ∧ Quiet (run parts s es) ∧
      (run parts s es).handlers x h = true ∧
      ∀ o k, s.handlers o k = true → (run parts s es).handlers o k = true := by
  obtain ⟨hidle,hfree⟩ := hquiet
  let a := registration x h
  let s₁ := s.goto x (locked x a)
  let s₂ : System := { s₁.goto x [.act a,.unlock (.object x)] with
    owner := Function.update s.owner (.object x) (some x) }
  let s₃ := (s₂.goto x [.unlock (.object x)]).perform x a
  let s₄ : System := { s₃.goto x [] with owner := Function.update s₃.owner (.object x) none }
  have h₁ : step parts s (.call x (registering x h)) = s₁ := by
    simp [step,begin,hidle,registering_code htakes,s₁,a]
  have h₂ : step parts s₁ (.step x) = s₂ := advance_lock (goto_code s x _) (hfree _)
  have h₃ : step parts s₂ (.step x) = s₃ := advance_act (goto_code s₁ x _)
  have h₄ : step parts s₃ (.step x) = s₄ := by
    refine advance_unlock ?_
    rw [perform_code,goto_code]
  have hrun : run parts s [.call x (registering x h),.step x,.step x,.step x] = s₄ := by
    simp only [run_cons,run_nil,h₁,h₂,h₃,h₄]
  have hset := registration_sets (s₂.goto x [.unlock (.object x)]) x x h
  refine ⟨[.call x (registering x h),.step x,.step x,.step x],?_,?_⟩
  · intro e he
    simp only [List.mem_cons,List.not_mem_nil,or_false] at he
    rcases he with rfl | rfl | rfl | rfl <;> trivial
  · rw [hrun]
    refine ⟨⟨fun t => ?_,fun m => ?_⟩,hset⟩
    · by_cases ht : t = x
      · subst ht
        exact goto_code s₃ t []
      · show ((s₃.goto x []).threads t).code = []
        rw [goto_code_of_ne s₃ x [] ht,perform_code,goto_code_of_ne s₂ x _ ht]
        exact (goto_code_of_ne s₁ x _ ht).trans ((goto_code_of_ne s x _ ht).trans (hidle t))
    · show Function.update s₃.owner (.object x) none m = none
      by_cases hm : m = .object x
      · simp [hm]
      · rw [Function.update_of_ne hm,show s₃.owner = s₂.owner from perform_owner _ x a]
        exact (Function.update_of_ne hm _ _).trans (hfree m)

theorem exists_all_registered (hquiet : Quiet s) {xs : List Nat}
    (hxs : ∀ x, x ∈ xs → ∃ h, (parts x).takes h = true) :
    ∃ es : List Event, (∀ e, e ∈ es → Keeps parts R e) ∧ Quiet (run parts s es) ∧
      (∀ x, x ∈ xs → ∃ h, (run parts s es).handlers x h = true) ∧
      ∀ o k, s.handlers o k = true → (run parts s es).handlers o k = true := by
  induction xs generalizing s with
  | nil => exact ⟨[],by simp,hquiet,by simp,fun _ _ h => h⟩
  | cons x xs ih =>
    obtain ⟨h,htakes⟩ := hxs x List.mem_cons_self
    obtain ⟨es₁,hkeeps₁,hquiet₁,hx,hold₁⟩ := exists_registered (R := R) hquiet htakes
    obtain ⟨es₂,hkeeps₂,hquiet₂,hrest,hold₂⟩ := ih hquiet₁
      fun x hx => hxs x (List.mem_cons_of_mem _ hx)
    refine ⟨es₁++es₂,fun e he => ?_,?_⟩
    · exact (List.mem_append.mp he).elim (hkeeps₁ e) (hkeeps₂ e)
    · rw [run_append]
      refine ⟨hquiet₂,fun y hy => ?_,fun o k hk => hold₂ o k (hold₁ o k hk)⟩
      rcases List.mem_cons.mp hy with rfl | hy
      · exact ⟨h,hold₂ y h hx⟩
      · exact hrest y hy

structure Entered (s s' : System) (xs : List Nat) (next : Nat → Nat → Prop) : Prop where
  handlers : s'.handlers = s.handlers
  entered : ∀ x, x ∈ xs → s'.owner (.object x) = some x ∧
    ∃ y, next x y ∧ s'.wants x = some (.object y)
  idle : ∀ x, x ∉ xs → (s'.threads x).code = [] ∧ s'.owner (.object x) = none

theorem enter_part {x : Nat} {h : Handler} {c : Call} (hidle : (s.threads x).code = [])
    (hfree : s.owner (.object x) = none) (hset : s.handlers x h = true)
    (hserves : (parts x).serves h = true) (hlocks : c.Locks parts) :
    ∃ s', run parts s [.process x x h [c],.step x,.step x] = s' ∧ s'.handlers = s.handlers ∧
      s'.owner (.object x) = some x ∧ s'.wants x = some (.object c.object) ∧
      ∀ y, y ≠ x → (s'.threads y).code = (s.threads y).code ∧
        s'.owner (.object y) = s.owner (.object y) := by
  obtain ⟨code,hcode⟩ := lock_first hlocks
  let s₁ := s.goto x [.lock (.object x),.run x h [c],.unlock (.object x)]
  let s₂ : System := { s₁.goto x [.run x h [c],.unlock (.object x)] with
    owner := Function.update s.owner (.object x) (some x) }
  let s₃ := s₂.goto x ([c].flatMap (Call.code parts)++
    (System.handled parts x++[.unlock (.object x)]))
  have h₁ : step parts s (.process x x h [c]) = s₁ := by
    simp only [step,begin,processCode,if_pos hserves,hidle]
    rfl
  have h₂ : step parts s₁ (.step x) = s₂ := advance_lock (goto_code s x _) hfree
  have h₃ : step parts s₂ (.step x) = s₃ := advance_handled (goto_code s₁ x _) hset
  have hwaits : (s₃.threads x).code = .lock (.object c.object) ::
      (code++(System.handled parts x++[.unlock (.object x)])) := by
    rw [goto_code,List.flatMap_singleton,hcode]
    rfl
  refine ⟨s₃,by rw [run_cons,run_cons,run_cons,run_nil,h₁,h₂,h₃],rfl,Function.update_self _ _ _,
    wants_of_code hwaits,fun y hy => ⟨?_,Function.update_of_ne (by simpa using hy) _ _⟩⟩
  refine (goto_code_of_ne s₂ x _ hy).trans ?_
  exact (goto_code_of_ne s₁ x _ hy).trans (goto_code_of_ne s x _ hy)

theorem exists_entered (hquiet : Quiet s) {next : Nat → Nat → Prop} {xs : List Nat}
    (hnodup : xs.Nodup)
    (hset : ∀ x, x ∈ xs → ∃ h, s.handlers x h = true ∧ (parts x).serves h = true)
    (hnext : ∀ x, x ∈ xs → ∃ c : Call, next x c.object ∧ R x c.object ∧ c.Locks parts) :
    ∃ es : List Event, (∀ e, e ∈ es → Keeps parts R e) ∧ Entered s (run parts s es) xs next := by
  induction xs with
  | nil => exact ⟨[],by simp,rfl,by simp,fun x _ => ⟨hquiet.1 x,hquiet.2 _⟩⟩
  | cons x xs ih =>
    obtain ⟨hx,hnodup⟩ := List.nodup_cons.mp hnodup
    obtain ⟨es,hkeeps,hentered⟩ := ih hnodup (fun y hy => hset y (List.mem_cons_of_mem _ hy))
      fun y hy => hnext y (List.mem_cons_of_mem _ hy)
    obtain ⟨h,hhandler,hserves⟩ := hset x List.mem_cons_self
    obtain ⟨c,hc,hR,hlocks⟩ := hnext x List.mem_cons_self
    obtain ⟨hidle,hfree⟩ := hentered.idle x hx
    rw [← hentered.handlers] at hhandler
    obtain ⟨s',hrun,hhandlers,howner,hwants,hother⟩ :=
      enter_part hidle hfree hhandler hserves hlocks
    refine ⟨es++[.process x x h [c],.step x,.step x],fun e he => ?_,?_⟩
    · rcases List.mem_append.mp he with he | he
      · exact hkeeps e he
      · simp only [List.mem_cons,List.not_mem_nil,or_false] at he
        rcases he with rfl | rfl | rfl
        · intro c' hc' _
          rw [List.mem_singleton.mp hc']
          exact hR
        · trivial
        · trivial
    · rw [run_append,hrun]
      refine ⟨hhandlers.trans hentered.handlers,fun y hy => ?_,fun y hy => ?_⟩
      · by_cases hyx : y = x
        · subst hyx
          exact ⟨howner,c.object,hc,hwants⟩
        · have hy := (List.mem_cons.mp hy).resolve_left hyx
          obtain ⟨hmine,z,hz,hwaits⟩ := hentered.entered y hy
          refine ⟨(hother y hyx).2.trans hmine,z,hz,?_⟩
          rw [System.wants,(hother y hyx).1]
          exact hwaits
      · rw [List.mem_cons,not_or] at hy
        rw [(hother y hy.1).1,(hother y hy.1).2]
        exact hentered.idle y hy.2

theorem exists_knot {o : Nat} (h : TransGen (Edge parts R) o o) :
    ∃ es : List Event, (∀ e, e ∈ es → Keeps parts R e) ∧ ∃ K : Set Nat, o ∈ K ∧
      Knot (run parts .initial es).owner (run parts .initial es).wants K := by
  obtain ⟨xs,ho,hnext⟩ := exists_closed_of_cycle h
  have hquiet : Quiet .initial := ⟨fun _ => rfl,fun _ => rfl⟩
  have htakes : ∀ x, x ∈ xs → ∃ h, (parts x).takes h = true := by
    intro x hx
    obtain ⟨y,_,hedge⟩ := hnext x hx
    exact hedge.2.1
  obtain ⟨es₁,hkeeps₁,hquiet,hset,_⟩ := exists_all_registered (R := R) hquiet htakes
  have hsound : Sound parts R (run parts .initial es₁) := sound_initial.run hkeeps₁
  have hserves : ∀ x, x ∈ xs.dedup →
      ∃ h, (run parts .initial es₁).handlers x h = true ∧ (parts x).serves h = true := by
    intro x hx
    obtain ⟨k,hk⟩ := hset x (List.mem_dedup.mp hx)
    exact ⟨k,hk,serves_of_takes (hsound.handlers x k hk)⟩
  have hcalls : ∀ x, x ∈ xs.dedup →
      ∃ c : Call, c.object ∈ xs ∧ R x c.object ∧ c.Locks parts := by
    intro x hx
    obtain ⟨y,hy,hR,_,c,rfl,hlocks⟩ := hnext x (List.mem_dedup.mp hx)
    exact ⟨c,hy,hR,hlocks⟩
  obtain ⟨es₂,hkeeps₂,hentered⟩ := exists_entered hquiet xs.nodup_dedup hserves hcalls
  refine ⟨es₁++es₂,fun e he => ?_,{x | x ∈ xs},ho,fun x hx => ?_⟩
  · exact (List.mem_append.mp he).elim (hkeeps₁ e) (hkeeps₂ e)
  · rw [run_append]
    obtain ⟨_,y,hy,hwants⟩ := hentered.entered x (List.mem_dedup.mpr hx)
    exact ⟨y,hy,.object y,hwants,(hentered.entered y (List.mem_dedup.mpr hy)).1⟩

end Cycle

/-- Whatever the parts of a skeleton are: where each handler locks only parts that `R` allows, all
calls can return from every state of every run, if and only if `R` has no cycle of parts that take a
handler and that a method locks. -/
theorem calls_return_iff (parts : Nat → Part) (R : Nat → Nat → Prop) :
    (∀ es : List Event, (∀ e, e ∈ es → Keeps parts R e) →
      ∃ ts : List Nat, ∀ t,
        ((run parts (run parts .initial es) (ts.map .step)).threads t).code = []) ↔
      ∀ o, ¬ TransGen (Edge parts R) o o := by
  constructor
  · intro h o hcycle
    obtain ⟨es,hkeeps,K,ho,hK⟩ := exists_knot hcycle
    obtain ⟨ts,hidle⟩ := h es hkeeps
    exact busy_of_knot (knot_run (sound_initial.run hkeeps) hK ts) ho (hidle o)
  · intro hacyclic es hkeeps
    have hidle : ∀ t, t ∉ (∅ : Finset Nat) → (System.initial.threads t).code = [] :=
      fun _ _ => rfl
    obtain ⟨F,hF⟩ : ∃ F : Finset Nat, ∀ t, t ∉ F → ((run parts .initial es).threads t).code = [] :=
      exists_idle_outside hidle es
    exact (sound_initial.run hkeeps).returns hacyclic hF (Nat.le_refl _)

end LapCom.SkeletonLocks
