import LapCom.Machine.Run
import Mathlib.Logic.Function.Basic

set_option autoImplicit false

/-! `SomeIpConnectionManager`, whose every method holds `m_mutex`. `Start` holds it while the event
loop of vsomeip runs in `m_app->start()`. -/

namespace LapCom.SomeIp.ConnectionManager
open LapCom.Machine

inductive Errc where
  | InitializationFailed
  | NotInitialized
  | ConnectionFailed
  | Disconnected
  deriving DecidableEq

inductive Outcome where
  | ok
  | failed
  | thrown
  deriving DecidableEq

structure InitCalls where
  runtime : Outcome
  created : Outcome
  initialized : Outcome
  deriving DecidableEq

section Model
variable {Name : Type}

/-- The calls, with what `m_app->stop()` does in them. -/
inductive Call (Name : Type) where
  | initializeApp (appName : Name) (calls : InitCalls)
  | start
  | stop (stopped : Outcome)
  | getApplication
  | isInitialized
  | isRunning
  | getApplicationName
  | deinitializeApp (stopped : Outcome)

inductive Reply (Name : Type) where
  | status (r : Except Errc Unit)
  | application (app : Option Nat)
  | flag (b : Bool)
  | name (appName : Name)

/-- Applications are numbered as they are made; `stops` counts the calls of `m_app->stop()`. -/
structure Manager (Name : Type) where
  app : Option Nat
  appName : Name
  isInitialized : Bool
  isRunning : Bool
  created : Nat
  stops : Nat

namespace Manager

def new (noName : Name) : Manager Name := ⟨none,noName,false,false,0,0⟩

def initializeApp (m : Manager Name) (appName : Name) (calls : InitCalls) :
    Except Errc Unit × Manager Name :=
  let failed : Except Errc Unit := .error .InitializationFailed
  if m.isInitialized then (.ok (),m)
  else if calls.runtime ≠ .ok then (failed,m)
  else match calls.created with
    | .thrown => (failed,m)
    | .failed => (failed,{ m with app := none })
    | .ok =>
      let m := { m with app := some m.created, created := m.created+1 }
      match calls.initialized with
      | .thrown => (failed,m)
      | .failed => (failed,{ m with app := none })
      | .ok => (.ok (),{ m with appName := appName, isInitialized := true })

def stop (m : Manager Name) (stopped : Outcome) : Except Errc Unit × Manager Name :=
  if m.isRunning = false then (.ok (),m)
  else if m.app.isSome then
    let m := { m with stops := m.stops+1 }
    if stopped = .thrown then (.error .Disconnected,m) else (.ok (),{ m with isRunning := false })
  else (.ok (),{ m with isRunning := false })

def deinitializeApp (m : Manager Name) (stopped : Outcome) : Manager Name :=
  if m.isInitialized = false then m
  else if m.isRunning && m.app.isSome then
    let m := { m with stops := m.stops+1 }
    if stopped = .thrown then m
    else { m with isRunning := false, app := none, isInitialized := false }
  else { m with app := none, isInitialized := false }

/-- What `Start` answers without the event loop; `none` where it enters it. -/
def refusal (m : Manager Name) : Option (Except Errc Unit) :=
  if m.isInitialized = false then some (.error .NotInitialized)
  else if m.isRunning then some (.ok ())
  else none

end Manager

inductive Phase (Name : Type) where
  | idle
  | waiting (call : Call Name)
  | inLoop

/-- `log` holds the answers, the last one first. -/
structure System (Name : Type) where
  manager : Manager Name
  mutex : Option Nat
  phase : Nat → Phase Name
  log : List (Nat × Reply Name)

/-- A thread makes a call; it takes its next step. For one in the event loop that is the end of
`m_app->start()`. -/
inductive Event (Name : Type) where
  | call (t : Nat) (c : Call Name)
  | run (t : Nat) (outcome : Outcome)

namespace System

def initial (noName : Name) : System Name := ⟨.new noName,none,fun _ => .idle,[]⟩

def answer (s : System Name) (t : Nat) (r : Reply Name) : System Name :=
  { s with phase := Function.update s.phase t .idle, log := (t,r) :: s.log }

def exec (s : System Name) (t : Nat) : Call Name → System Name
  | .initializeApp appName calls =>
    { s with manager := (s.manager.initializeApp appName calls).2 }.answer t
      (.status (s.manager.initializeApp appName calls).1)
  | .start =>
    match s.manager.refusal with
    | some r => s.answer t (.status r)
    | none =>
      { s with
        manager := { s.manager with isRunning := true }
        mutex := some t, phase := Function.update s.phase t .inLoop }
  | .stop stopped =>
    { s with manager := (s.manager.stop stopped).2 }.answer t
      (.status (s.manager.stop stopped).1)
  | .getApplication => s.answer t (.application s.manager.app)
  | .isInitialized => s.answer t (.flag s.manager.isInitialized)
  | .isRunning => s.answer t (.flag s.manager.isRunning)
  | .getApplicationName => s.answer t (.name s.manager.appName)
  | .deinitializeApp stopped =>
    { s with manager := s.manager.deinitializeApp stopped }.answer t (.status (.ok ()))

def leaveLoop (s : System Name) (t : Nat) (outcome : Outcome) : System Name :=
  if outcome = .thrown then
    { s with manager := { s.manager with isRunning := false }, mutex := none }.answer t
      (.status (.error .ConnectionFailed))
  else { s with mutex := none }.answer t (.status (.ok ()))

end System

def step (s : System Name) : Event Name → System Name
  | .call t c =>
    match s.phase t with
    | .idle => { s with phase := Function.update s.phase t (.waiting c) }
    | _ => s
  | .run t outcome =>
    match s.phase t with
    | .idle => s
    | .waiting c => if s.mutex.isSome then s else s.exec t c
    | .inLoop => s.leaveLoop t outcome

abbrev systemAt (noName : Name) (σ : Nat → Event Name) (k : Nat) : System Name :=
  stateAt step (.initial noName) σ k

/-- A thread in the event loop holds the mutex; the application that runs is initialised. -/
structure Sound (s : System Name) : Prop where
  mutex : ∀ t, s.phase t = .inLoop ↔ s.mutex = some t
  looping : ∀ t, s.phase t = .inLoop → s.manager.isRunning = true
  app : s.manager.isInitialized = true → s.manager.app.isSome = true
  running : s.manager.isRunning = true → s.manager.isInitialized = true

theorem initializeApp_facts (m : Manager Name) (appName : Name) (calls : InitCalls)
    (happ : m.isInitialized = true → m.app.isSome = true) :
    (m.initializeApp appName calls).2.isRunning = m.isRunning ∧
      (m.isInitialized = true → (m.initializeApp appName calls).2.isInitialized = true) ∧
      ((m.initializeApp appName calls).2.isInitialized = true →
        (m.initializeApp appName calls).2.app.isSome = true) := by
  unfold Manager.initializeApp
  cases hinit : m.isInitialized with
  | true =>
    rw [if_pos rfl]
    exact ⟨rfl,fun _ => hinit,fun _ => happ hinit⟩
  | false =>
    rw [if_neg nofun]
    by_cases hruntime : calls.runtime ≠ .ok
    · rw [if_pos hruntime]
      exact ⟨rfl,nofun,fun h => happ h⟩
    · rw [if_neg hruntime]
      cases calls.created with
      | thrown => exact ⟨rfl,nofun,fun h => happ h⟩
      | failed => exact ⟨rfl,nofun,nofun⟩
      | ok =>
        cases calls.initialized with
        | thrown => exact ⟨rfl,nofun,fun _ => rfl⟩
        | failed => exact ⟨rfl,nofun,nofun⟩
        | ok => exact ⟨rfl,nofun,fun _ => rfl⟩

theorem stop_facts (m : Manager Name) (stopped : Outcome)
    (hrunning : m.isRunning = true → m.app.isSome = true) :
    (m.stop stopped).2.isInitialized = m.isInitialized ∧ (m.stop stopped).2.app = m.app ∧
      ((m.stop stopped).2.isRunning = true ↔ m.isRunning = true ∧ stopped = .thrown) := by
  unfold Manager.stop
  cases hrun : m.isRunning with
  | false => simp [hrun]
  | true =>
    rw [if_neg nofun,if_pos (hrunning hrun)]
    by_cases hthrown : stopped = .thrown
    · simp [hthrown]
    · simp [hthrown]

theorem deinitializeApp_facts (m : Manager Name) (stopped : Outcome)
    (happ : m.isInitialized = true → m.app.isSome = true)
    (hrunning : m.isRunning = true → m.isInitialized = true) :
    ((m.deinitializeApp stopped).isRunning = true ↔ m.isRunning = true ∧ stopped = .thrown) ∧
      ((m.deinitializeApp stopped).isInitialized = true →
        (m.deinitializeApp stopped).app.isSome = true) ∧
      ((m.deinitializeApp stopped).isRunning = true →
        (m.deinitializeApp stopped).isInitialized = true) := by
  unfold Manager.deinitializeApp
  cases hinit : m.isInitialized with
  | false =>
    have hrun : m.isRunning = false := by
      by_contra hrun
      rw [hrunning (by simpa using hrun)] at hinit
      cases hinit
    simp [hrun,hinit]
  | true =>
    cases hrun : m.isRunning with
    | false => simp
    | true =>
      by_cases hthrown : stopped = .thrown
      · simp [happ hinit,hthrown]
      · simp [happ hinit,hthrown]

section Answers
variable {s : System Name}

theorem answer_sound (hs : Sound s) {t : Nat} {m : Manager Name} {r : Reply Name}
    (ht : ¬ s.phase t = .inLoop) (hmutex : s.mutex = none)
    (happ : m.isInitialized = true → m.app.isSome = true)
    (hrunning : m.isRunning = true → m.isInitialized = true) :
    Sound ({ s with manager := m }.answer t r) := by
  have hnone : ∀ u, ¬ s.phase u = .inLoop := by
    intro u hu
    rw [(hs.mutex u).mp hu] at hmutex
    cases hmutex
  have hphase : ∀ u, ¬ Function.update s.phase t .idle u = .inLoop := by
    intro u hu
    by_cases hut : u = t
    · subst hut
      rw [Function.update_self] at hu
      cases hu
    · rw [Function.update_of_ne hut] at hu
      exact hnone u hu
  refine ⟨fun u => iff_of_false (hphase u) ?_,fun u hu => absurd hu (hphase u),happ,hrunning⟩
  show ¬ s.mutex = some u
  rw [hmutex]
  exact nofun

theorem exec_sound (hs : Sound s) {t : Nat} (ht : ¬ s.phase t = .inLoop) (hmutex : s.mutex = none)
    (c : Call Name) : Sound (s.exec t c) := by
  cases c with
  | initializeApp appName calls =>
    obtain ⟨hrun,hinit,happ⟩ := initializeApp_facts s.manager appName calls hs.app
    exact answer_sound hs ht hmutex happ fun h => hinit (hs.running (hrun.symm.trans h))
  | start =>
    rw [System.exec]
    cases hrefusal : s.manager.refusal with
    | some r => exact answer_sound hs ht hmutex hs.app hs.running
    | none =>
      have hinit : s.manager.isInitialized = true := by
        unfold Manager.refusal at hrefusal
        cases hinit : s.manager.isInitialized with
        | true => rfl
        | false => simp [hinit] at hrefusal
      refine ⟨fun u => ?_,fun _ _ => rfl,hs.app,fun _ => hinit⟩
      show Function.update s.phase t .inLoop u = .inLoop ↔ some t = some u
      by_cases hut : u = t
      · subst hut
        exact iff_of_true (Function.update_self _ _ _) rfl
      · rw [Function.update_of_ne hut,hs.mutex u,hmutex]
        exact iff_of_false nofun fun h => hut (Option.some.inj h).symm
  | stop stopped =>
    obtain ⟨hinit,happ,hrun⟩ := stop_facts s.manager stopped fun h => hs.app (hs.running h)
    refine answer_sound (m := (s.manager.stop stopped).2) hs ht hmutex (fun h => ?_) fun h => ?_
    · rw [happ]
      exact hs.app (hinit.symm.trans h)
    · exact hinit.trans (hs.running (hrun.mp h).1)
  | getApplication => exact answer_sound hs ht hmutex hs.app hs.running
  | isInitialized => exact answer_sound hs ht hmutex hs.app hs.running
  | isRunning => exact answer_sound hs ht hmutex hs.app hs.running
  | getApplicationName => exact answer_sound hs ht hmutex hs.app hs.running
  | deinitializeApp stopped =>
    obtain ⟨_,happ,hrunning⟩ := deinitializeApp_facts s.manager stopped hs.app hs.running
    exact answer_sound hs ht hmutex happ hrunning

theorem leaveLoop_sound (hs : Sound s) {t : Nat} (ht : s.phase t = .inLoop) (outcome : Outcome) :
    Sound (s.leaveLoop t outcome) := by
  have hphase : ∀ u, ¬ Function.update s.phase t .idle u = .inLoop := by
    intro u hu
    by_cases hut : u = t
    · subst hut
      rw [Function.update_self] at hu
      cases hu
    · rw [Function.update_of_ne hut] at hu
      have hheld := (hs.mutex u).mp hu
      rw [(hs.mutex t).mp ht] at hheld
      exact hut (Option.some.inj hheld).symm
  unfold System.leaveLoop
  split_ifs
  · exact ⟨fun u => iff_of_false (hphase u) nofun,fun u hu => absurd hu (hphase u),hs.app,nofun⟩
  · exact ⟨fun u => iff_of_false (hphase u) nofun,fun u hu => absurd hu (hphase u),hs.app,
      hs.running⟩

theorem step_sound (hs : Sound s) (e : Event Name) : Sound (step s e) := by
  cases e with
  | call t c =>
    rw [step]
    cases ht : s.phase t with
    | idle =>
      refine ⟨fun u => ?_,fun u hu => ?_,hs.app,hs.running⟩
      all_goals
        by_cases hut : u = t
      · subst hut
        show Function.update s.phase u (.waiting c) u = .inLoop ↔ _
        rw [Function.update_self]
        refine iff_of_false nofun fun hheld => ?_
        rw [(hs.mutex u).mpr hheld] at ht
        cases ht
      · show Function.update s.phase t (.waiting c) u = .inLoop ↔ _
        rw [Function.update_of_ne hut]
        exact hs.mutex u
      · subst hut
        simp at hu
      · exact hs.looping u ((Function.update_of_ne hut _ _).symm.trans hu)
    | waiting c' => exact hs
    | inLoop => exact hs
  | run t outcome =>
    rw [step]
    cases ht : s.phase t with
    | idle => exact hs
    | waiting c =>
      cases hmutex : s.mutex with
      | some u => exact hs
      | none => exact exec_sound hs (by rw [ht]; exact nofun) hmutex c
    | inLoop => exact leaveLoop_sound hs ht outcome

theorem initial_sound (noName : Name) : Sound (.initial noName) := by
  constructor <;> simp [System.initial,Manager.new]

theorem systemAt_sound (noName : Name) (σ : Nat → Event Name) (k : Nat) :
    Sound (systemAt noName σ k) :=
  stateAt_invariant (I := Sound) (C := fun _ _ => True) (n := k)
    (initial_sound noName) (fun _ _ => trivial)
    (fun _ e h _ => step_sound h e) k (Nat.le_refl k)

/-- A step of another thread while one is in the event loop. -/
theorem step_beside (hs : Sound s) {t : Nat} (ht : s.phase t = .inLoop) {e : Event Name}
    (hstay : (step s e).phase t = .inLoop) :
    (step s e).manager = s.manager ∧ (step s e).log = s.log ∧
      ∀ u c, s.phase u = .waiting c → (step s e).phase u = .waiting c := by
  have hheld := (hs.mutex t).mp ht
  cases e with
  | call u c =>
    rw [step]
    cases hu : s.phase u with
    | idle =>
      refine ⟨rfl,rfl,fun v c' hv => (Function.update_of_ne ?_ _ _).trans hv⟩
      rintro rfl
      rw [hu] at hv
      cases hv
    | waiting c' => exact ⟨rfl,rfl,fun _ _ h => h⟩
    | inLoop => exact ⟨rfl,rfl,fun _ _ h => h⟩
  | run u outcome =>
    rw [step] at hstay ⊢
    cases hu : s.phase u with
    | idle => exact ⟨rfl,rfl,fun _ _ h => h⟩
    | waiting c =>
      simp only [hheld,Option.isSome_some,if_true]
      exact ⟨trivial,trivial,fun _ _ h => h⟩
    | inLoop =>
      obtain rfl : t = u := by
        rw [(hs.mutex u).mp hu] at hheld
        exact (Option.some.inj hheld).symm
      rw [hu] at hstay
      have hidle : (s.leaveLoop t outcome).phase t = .idle := by
        unfold System.leaveLoop System.answer
        split_ifs <;> exact Function.update_self _ _ _
      rw [show (s.leaveLoop t outcome).phase t = .inLoop from hstay] at hidle
      cases hidle

end Answers

section Lapsed
variable (noName : Name) (σ : Nat → Event Name)

/-- `m_app->start()` has come back at the step `j`, and the flag that it leaves set has not been
cleared by a `Stop` or `Deinitialize` before the step `k`. -/
def Lapsed (k : Nat) : Prop :=
  ∃ j t outcome, j < k ∧ σ j = .run t outcome ∧ outcome ≠ .thrown ∧
    (systemAt noName σ j).phase t = .inLoop ∧
    ∀ i, j < i → i < k → ∀ u o stopped, σ i = .run u o → stopped ≠ .thrown →
      (systemAt noName σ i).phase u ≠ .waiting (.stop stopped) ∧
        (systemAt noName σ i).phase u ≠ .waiting (.deinitializeApp stopped)

def ComesBack (s : System Name) (e : Event Name) : Prop :=
  ∃ t outcome, e = .run t outcome ∧ outcome ≠ .thrown ∧ s.phase t = .inLoop

/-- A `Stop` or `Deinitialize` that is not interrupted by an exception has its turn. -/
def Clears (s : System Name) (e : Event Name) : Prop :=
  ∃ t outcome stopped, e = .run t outcome ∧ stopped ≠ .thrown ∧
    (s.phase t = .waiting (.stop stopped) ∨ s.phase t = .waiting (.deinitializeApp stopped))

theorem lapsed_succ (k : Nat) : Lapsed noName σ (k+1) ↔
    ComesBack (systemAt noName σ k) (σ k) ∨
      (Lapsed noName σ k ∧ ¬ Clears (systemAt noName σ k) (σ k)) := by
  have hclears : ¬ Clears (systemAt noName σ k) (σ k) ↔
      ∀ u o stopped, σ k = .run u o → stopped ≠ .thrown →
        (systemAt noName σ k).phase u ≠ .waiting (.stop stopped) ∧
          (systemAt noName σ k).phase u ≠ .waiting (.deinitializeApp stopped) := by
    simp only [Clears,not_exists,not_and,not_or]
  rw [hclears]
  constructor
  · rintro ⟨j,t,outcome,hjk,he,hout,hloop,hkept⟩
    rcases Nat.lt_or_eq_of_le (Nat.lt_succ_iff.mp hjk) with hjk | rfl
    · exact .inr ⟨⟨j,t,outcome,hjk,he,hout,hloop,fun i hji hik => hkept i hji (by omega)⟩,
        hkept k hjk (Nat.lt_succ_self k)⟩
    · exact .inl ⟨t,outcome,he,hout,hloop⟩
  · rintro (⟨t,outcome,he,hout,hloop⟩ | ⟨⟨j,t,outcome,hjk,he,hout,hloop,hkept⟩,hlast⟩)
    · exact ⟨k,t,outcome,Nat.lt_succ_self k,he,hout,hloop,fun i hki hik => absurd hki (by omega)⟩
    · refine ⟨j,t,outcome,by omega,he,hout,hloop,fun i hji hik => ?_⟩
      rcases Nat.lt_or_eq_of_le (Nat.lt_succ_iff.mp hik) with hik | rfl
      · exact hkept i hji hik
      · exact hlast

end Lapsed

section Running
variable {s : System Name}

def InLoop (s : System Name) : Prop := ∃ t, s.phase t = .inLoop

theorem answer_inLoop {t : Nat} {m : Manager Name} {r : Reply Name} (hno : ¬ InLoop s) :
    ¬ InLoop ({ s with manager := m }.answer t r) := by
  rintro ⟨u,hu⟩
  by_cases hut : u = t
  · subst hut
    simp [System.answer] at hu
  · exact hno ⟨u,(Function.update_of_ne hut _ _).symm.trans hu⟩

theorem Sound.inLoop_iff (hs : Sound s) : InLoop s ↔ s.mutex.isSome = true := by
  constructor
  · rintro ⟨t,ht⟩
    rw [(hs.mutex t).mp ht]
    rfl
  · intro hheld
    obtain ⟨t,ht⟩ := Option.isSome_iff_exists.mp hheld
    exact ⟨t,(hs.mutex t).mpr ht⟩

theorem step_running (hs : Sound s) (hno : ¬ InLoop s) (e : Event Name) :
    ¬ ComesBack s e ∧
      ((InLoop (step s e) ∧ s.manager.isRunning = false) ∨
        (¬ InLoop (step s e) ∧
          ((step s e).manager.isRunning = true ↔ s.manager.isRunning = true ∧ ¬ Clears s e))) := by
  have hback : ¬ ComesBack s e := fun ⟨t,_,_,_,ht⟩ => hno ⟨t,ht⟩
  refine ⟨hback,?_⟩
  cases e with
  | call t c =>
    have hclears : ¬ Clears s (.call t c) := by
      rintro ⟨_,_,_,heq,_⟩
      cases heq
    refine .inr ⟨?_,?_⟩
    · rintro ⟨u,hu⟩
      rw [step] at hu
      cases ht : s.phase t with
      | idle =>
        rw [ht] at hu
        by_cases hut : u = t
        · subst hut
          simp at hu
        · exact hno ⟨u,(Function.update_of_ne hut _ _).symm.trans hu⟩
      | waiting c' =>
        rw [ht] at hu
        exact hno ⟨u,hu⟩
      | inLoop => exact hno ⟨t,ht⟩
    · rw [step]
      cases s.phase t <;> simp [hclears]
  | run t outcome =>
    have hfree : s.mutex = none := by
      rw [hs.inLoop_iff] at hno
      simpa using hno
    rw [step]
    cases ht : s.phase t with
    | inLoop => exact absurd ⟨t,ht⟩ hno
    | idle =>
      have hclears : ¬ Clears s (.run t outcome) := by
        rintro ⟨u,_,_,heq,_,hu⟩
        cases heq
        simp [ht] at hu
      exact .inr ⟨hno,by simp [hclears]⟩
    | waiting c =>
      have hclears : Clears s (.run t outcome) ↔
          ∃ stopped, stopped ≠ .thrown ∧ (c = .stop stopped ∨ c = .deinitializeApp stopped) := by
        constructor
        · rintro ⟨u,_,stopped,heq,hstopped,hu⟩
          cases heq
          exact ⟨stopped,hstopped,by simpa [ht] using hu⟩
        · rintro ⟨stopped,hstopped,hc⟩
          exact ⟨t,outcome,stopped,rfl,hstopped,by simpa [ht] using hc⟩
      simp only [hfree,Option.isSome_none]
      rw [if_neg nofun,hclears]
      cases c with
      | initializeApp appName calls =>
        obtain ⟨hrun,_⟩ := initializeApp_facts s.manager appName calls hs.app
        exact .inr ⟨answer_inLoop hno,by simp [System.exec,System.answer,hrun]⟩
      | start =>
        rw [System.exec]
        cases hrefusal : s.manager.refusal with
        | some r => exact .inr ⟨answer_inLoop hno,by simp [System.answer]⟩
        | none =>
          refine .inl ⟨⟨t,Function.update_self _ _ _⟩,?_⟩
          by_contra hrun
          simp [Manager.refusal,hs.running (by simpa using hrun),hrun] at hrefusal
      | stop stopped =>
        obtain ⟨_,_,hrun⟩ := stop_facts s.manager stopped fun h => hs.app (hs.running h)
        refine .inr ⟨answer_inLoop hno,hrun.trans (and_congr_right fun _ => ?_)⟩
        simp
      | getApplication => exact .inr ⟨answer_inLoop hno,by simp [System.exec,System.answer]⟩
      | isInitialized => exact .inr ⟨answer_inLoop hno,by simp [System.exec,System.answer]⟩
      | isRunning => exact .inr ⟨answer_inLoop hno,by simp [System.exec,System.answer]⟩
      | getApplicationName => exact .inr ⟨answer_inLoop hno,by simp [System.exec,System.answer]⟩
      | deinitializeApp stopped =>
        obtain ⟨hrun,_⟩ := deinitializeApp_facts s.manager stopped hs.app hs.running
        refine .inr ⟨answer_inLoop hno,hrun.trans (and_congr_right fun _ => ?_)⟩
        simp

theorem step_inLoop (hs : Sound s) (hin : InLoop s) (e : Event Name) :
    (InLoop (step s e) ∧ ¬ ComesBack s e) ∨
      (¬ InLoop (step s e) ∧ ((step s e).manager.isRunning = true ↔ ComesBack s e)) := by
  obtain ⟨t,ht⟩ := hin
  have hheld := (hs.mutex t).mp ht
  have hown : ∀ u, s.phase u = .inLoop → u = t := by
    intro u hu
    rw [(hs.mutex u).mp hu] at hheld
    exact Option.some.inj hheld
  cases e with
  | call u c =>
    refine .inl ⟨⟨t,?_⟩,?_⟩
    · rw [step]
      cases hu : s.phase u with
      | idle =>
        refine (Function.update_of_ne ?_ _ _).trans ht
        rintro rfl
        rw [ht] at hu
        cases hu
      | waiting c' => exact ht
      | inLoop => exact ht
    · rintro ⟨_,_,heq,_⟩
      cases heq
  | run u outcome =>
    have hback : ComesBack s (.run u outcome) ↔ outcome ≠ .thrown ∧ s.phase u = .inLoop := by
      constructor
      · rintro ⟨v,o,heq,ho,hv⟩
        cases heq
        exact ⟨ho,hv⟩
      · rintro ⟨ho,hu⟩
        exact ⟨u,outcome,rfl,ho,hu⟩
    rw [hback,step]
    cases hu : s.phase u with
    | idle => exact .inl ⟨⟨t,ht⟩,by simp⟩
    | waiting c =>
      simp only [hheld,Option.isSome_some,if_true]
      exact .inl ⟨⟨t,ht⟩,by simp⟩
    | inLoop =>
      obtain rfl := hown u hu
      have hleft : ∀ v, ¬ Function.update s.phase u .idle v = .inLoop := by
        intro v hv
        by_cases hvu : v = u
        · subst hvu
          simp at hv
        · exact hvu (hown v ((Function.update_of_ne hvu _ _).symm.trans hv))
      have hrun := hs.looping u hu
      refine .inr ⟨?_,?_⟩
      · rintro ⟨v,hv⟩
        refine hleft v ?_
        unfold System.leaveLoop System.answer at hv
        split_ifs at hv <;> exact hv
      · unfold System.leaveLoop System.answer
        by_cases hthrown : outcome = .thrown
        · simp [hthrown]
        · simp [hthrown,hrun]

end Running

theorem running_iff (noName : Name) (σ : Nat → Event Name) (k : Nat) :
    ((systemAt noName σ k).manager.isRunning = true ↔
        InLoop (systemAt noName σ k) ∨ Lapsed noName σ k) ∧
      ¬ (InLoop (systemAt noName σ k) ∧ Lapsed noName σ k) := by
  induction k with
  | zero =>
    have hlapsed : ¬ Lapsed noName σ 0 := fun ⟨j,_,_,hj,_⟩ => absurd hj (by omega)
    have hno : ¬ InLoop (systemAt noName σ 0) := fun ⟨_,ht⟩ => by cases ht
    exact ⟨iff_of_false nofun fun h => h.elim hno hlapsed,fun h => hno h.1⟩
  | succ k ih =>
    have hs := systemAt_sound noName σ k
    rw [lapsed_succ]
    by_cases hin : InLoop (systemAt noName σ k)
    · have hnot : ¬ Lapsed noName σ k := fun hlapsed => ih.2 ⟨hin,hlapsed⟩
      rcases step_inLoop hs hin (σ k) with ⟨hin',hback⟩ | ⟨hout,hrun⟩
      · obtain ⟨t,ht⟩ := id hin'
        have hrun := (systemAt_sound noName σ (k+1)).looping t ht
        exact ⟨iff_of_true hrun (.inl hin'),by simp [hnot,hback]⟩
      · refine ⟨hrun.trans ?_,fun h => hout h.1⟩
        simp only [hnot,false_and,or_false]
        exact ⟨.inr,fun h => h.resolve_left hout⟩
    · have hrunning : (systemAt noName σ k).manager.isRunning = true ↔ Lapsed noName σ k := by
        rw [ih.1]
        exact ⟨fun h => h.resolve_left hin,.inr⟩
      obtain ⟨hback,⟨hin',hfalse⟩ | ⟨hout,hrun⟩⟩ := step_running hs hin (σ k)
      · have hnot : ¬ Lapsed noName σ k := by
          rw [← hrunning,hfalse]
          exact nofun
        obtain ⟨t,ht⟩ := id hin'
        have hrun := (systemAt_sound noName σ (k+1)).looping t ht
        exact ⟨iff_of_true hrun (.inl hin'),by simp [hnot,hback]⟩
      · refine ⟨hrun.trans ?_,fun h => hout h.1⟩
        rw [hrunning]
        exact ⟨fun h => .inr (.inr h),fun h => (h.resolve_left hout).resolve_left hback⟩

/-- In every run, while a thread is in the event loop no call of the manager is answered and none
changes it, so that no `Stop` and no `Deinitialize` ever stops the loop; and `IsRunning` answers
`true` just where the loop has come back and nothing has cleared its flag since. -/
theorem event_loop_alone (noName : Name) (σ : Nat → Event Name) (k : Nat) :
    (∀ t n, k ≤ n → (∀ j, k ≤ j → j ≤ n → (systemAt noName σ j).phase t = .inLoop) →
      (systemAt noName σ n).manager = (systemAt noName σ k).manager ∧
        (systemAt noName σ n).log = (systemAt noName σ k).log ∧
        ∀ u c, (systemAt noName σ k).phase u = .waiting c →
          (systemAt noName σ n).phase u = .waiting c) ∧
    ∀ t outcome, σ k = .run t outcome → (systemAt noName σ k).phase t = .waiting .isRunning →
      (systemAt noName σ k).mutex = none →
      ∃ b, (systemAt noName σ (k+1)).log = (t,.flag b) :: (systemAt noName σ k).log ∧
        (b = true ↔ Lapsed noName σ k) ∧ ¬ InLoop (systemAt noName σ k) := by
  refine ⟨fun t n hkn hstay => ?_,fun t outcome he ht hfree => ?_⟩
  · induction n, hkn using Nat.le_induction with
    | base => exact ⟨rfl,rfl,fun _ _ h => h⟩
    | succ n hkn ih =>
      obtain ⟨hmanager,hlog,hwaiting⟩ := ih fun j hkj hjn => hstay j hkj (by omega)
      obtain ⟨hmanager',hlog',hwaiting'⟩ := step_beside (systemAt_sound noName σ n)
        (hstay n hkn (by omega)) (hstay (n+1) (by omega) (Nat.le_refl _))
      exact ⟨hmanager'.trans hmanager,hlog'.trans hlog,
        fun u c hu => hwaiting' u c (hwaiting u c hu)⟩
  · have hno : ¬ InLoop (systemAt noName σ k) := by
      rw [(systemAt_sound noName σ k).inLoop_iff,hfree]
      exact nofun
    refine ⟨(systemAt noName σ k).manager.isRunning,?_,?_,hno⟩
    · rw [systemAt,stateAt_succ,he,step,ht]
      simp only [hfree]
      rfl
    · rw [(running_iff noName σ k).1]
      exact ⟨fun h => h.resolve_left hno,.inr⟩

end Model

end LapCom.SomeIp.ConnectionManager
