import LapCom.Machine.Run
import Mathlib.Logic.Function.Basic

set_option autoImplicit false

/-! `DBusConnectionManager`, the bindings that keep the connections it hands out, and the names that
the connections own on their buses. -/

namespace LapCom.DBus.Connections
open LapCom.Machine

inductive BusType where
  | System
  | Session
  deriving DecidableEq

/-- What comes of a new connection: none, one whose event loop does not start, or one that runs.
What is thrown is `caught` where it is a `sdbus::Error`. -/
inductive Connect where
  | failed (caught : Bool)
  | silent (caught : Bool)
  | running
  deriving DecidableEq

def Connect.escapes : Connect → Bool
  | .failed caught => !caught
  | .silent caught => !caught
  | .running => false

inductive Request where
  | requestName
  | releaseName
  deriving DecidableEq

/-- A call for a name, with its copy of the pointer that the manager had for the bus. -/
structure Call (Name : Type) where
  request : Request
  bus : BusType
  name : Name
  connection : Nat
  deriving DecidableEq

structure DBusConnectionManager where
  initialized : Bool
  connection : BusType → Option Nat

/-- Connections are numbered; `users` counts the pointers to one that bindings have, and those of
calls that are through with the connection. -/
structure State (Name : Type) where
  manager : DBusConnectionManager
  created : Nat
  looping : Nat → Bool
  users : Nat → Nat
  calls : List (Call Name)
  owner : BusType → Name → Option Nat

inductive Event (Name : Type) where
  | initializeManager (session system : Connect)
  | deinitializeManager
  | getConnection (b : BusType)
  | drop (x : Nat)
  | requestServiceName (b : BusType) (name : Name)
  | releaseServiceName (b : BusType) (name : Name)
  | perform (a : Call Name) (granted : Bool)

section Model
variable {Name : Type}

namespace State

def initial : State Name :=
  ⟨⟨false,fun _ => none⟩,0,fun _ => false,fun _ => 0,[],fun _ _ => none⟩

def Used (s : State Name) (x : Nat) : Prop := 0 < s.users x ∨ ∃ a ∈ s.calls, a.connection = x

instance (s : State Name) (x : Nat) : Decidable (s.Used x) :=
  inferInstanceAs (Decidable (_ ∨ _))

def Alive (s : State Name) (x : Nat) : Prop :=
  s.manager.connection .System = some x ∨ s.manager.connection .Session = some x ∨ s.Used x

instance (s : State Name) (x : Nat) : Decidable (s.Alive x) :=
  inferInstanceAs (Decidable (_ ∨ _ ∨ _))

/-- A connection that is closed gives its names back. -/
def collect (s : State Name) : State Name :=
  { s with owner := fun b name => (s.owner b name).filter fun x => decide (s.Alive x) }

def setConnection (s : State Name) (b : BusType) (x : Option Nat) : State Name :=
  { s with manager := { s.manager with connection := Function.update s.manager.connection b x } }

def connect (s : State Name) (b : BusType) (loops : Bool) : State Name :=
  let s' := { s with
    created := s.created+1
    looping := Function.update s.looping s.created loops }
  (s'.setConnection b (some s.created)).collect

def connectSystem (s : State Name) : Connect → State Name
  | .failed _ => s
  | .silent _ => s.connect .System false
  | .running => s.connect .System true

/-- `false` is an error, and `none` an exception that gets out of the call. -/
def initializeManager (s : State Name) (session system : Connect) : Option Bool × State Name :=
  if s.manager.initialized then (some true,s)
  else match session with
    | .failed caught => (if caught then some false else none,s)
    | .silent caught => (if caught then some false else none,s.connect .Session false)
    | .running =>
      let s := (s.connect .Session true).connectSystem system
      if system.escapes then (none,s)
      else (some true,{ s with manager := { s.manager with initialized := true } })

def deinitializeManager (s : State Name) : State Name :=
  if s.manager.initialized then
    { s with manager := ⟨false,fun _ => none⟩ }.collect
  else s

def getConnection (s : State Name) (b : BusType) : Option Nat :=
  if s.manager.initialized then s.manager.connection b else none

/-- The mutex is held no longer than for the copy of the pointer. -/
def enter (s : State Name) (request : Request) (b : BusType) (name : Name) : Bool × State Name :=
  match s.getConnection b with
  | none => (false,s)
  | some x => (true,{ s with calls := ⟨request,b,name,x⟩ :: s.calls })

def requestServiceName (s : State Name) (b : BusType) (name : Name) : Bool × State Name :=
  s.enter .requestName b name

def releaseServiceName (s : State Name) (b : BusType) (name : Name) : Bool × State Name :=
  s.enter .releaseName b name

section Calls
variable [DecidableEq Name]

def leave (s : State Name) (a : Call Name) : State Name :=
  { s with
    calls := s.calls.erase a
    users := Function.update s.users a.connection (s.users a.connection+1) }

def setOwner (s : State Name) (b : BusType) (name : Name) (x : Option Nat) : State Name :=
  { s with owner := Function.update s.owner b (Function.update (s.owner b) name x) }

def requestName (s : State Name) (a : Call Name) (granted : Bool) : Bool × State Name :=
  if granted = true ∧ s.owner a.bus a.name = none then
    (true,(s.leave a).setOwner a.bus a.name (some a.connection))
  else (false,s.leave a)

/-- The release of a name that the connection does not own fails, which is logged. -/
def releaseName (s : State Name) (a : Call Name) : State Name :=
  if s.owner a.bus a.name = some a.connection then (s.leave a).setOwner a.bus a.name none
  else s.leave a

def perform (s : State Name) (a : Call Name) (granted : Bool) : State Name :=
  match a.request with
  | .requestName => (s.requestName a granted).2
  | .releaseName => s.releaseName a

def step (s : State Name) : Event Name → State Name
  | .initializeManager session system => (s.initializeManager session system).2
  | .deinitializeManager => s.deinitializeManager
  | .getConnection b =>
    match s.getConnection b with
    | none => s
    | some x => { s with users := Function.update s.users x (s.users x+1) }
  | .drop x =>
    if 0 < s.users x then { s with users := Function.update s.users x (s.users x-1) }.collect else s
  | .requestServiceName b name => (s.requestServiceName b name).2
  | .releaseServiceName b name => (s.releaseServiceName b name).2
  | .perform a granted => if a ∈ s.calls then s.perform a granted else s

end Calls

end State

/-- Each name belongs to the connection that the manager hands out for its bus, and what it hands
out runs. -/
structure Sound (s : State Name) : Prop where
  names : ∀ b name x, s.owner b name = some x → s.getConnection b = some x
  loops : ∀ b x, s.getConnection b = some x → s.looping x = true

/-- A connection with a name is still used when the manager lets it go; or `Initialize` goes on
with a system bus whose event loop did not start, in this call or in one that threw; or a name is
requested through a connection that the manager has let go. -/
def Spoils (s : State Name) : Event Name → Prop
  | .deinitializeManager => ∃ b name x, s.owner b name = some x ∧ s.Used x
  | .initializeManager session system =>
    s.manager.initialized = false ∧ session = .running ∧ (system = .silent true ∨
      system = .failed true ∧ ∃ x, s.manager.connection .System = some x ∧ s.looping x = false)
  | .perform a granted =>
    a ∈ s.calls ∧ a.request = .requestName ∧ granted = true ∧ s.owner a.bus a.name = none ∧
      s.getConnection a.bus ≠ some a.connection
  | _ => False

section Steps
variable {s s' : State Name}

theorem collect_owner {b : BusType} {name : Name} {x : Nat} :
    s.collect.owner b name = some x ↔ s.owner b name = some x ∧ s.Alive x := by
  simp [State.collect,Option.filter_eq_some_iff]

theorem getConnection_idle (h : s.manager.initialized = false) (b : BusType) :
    s.getConnection b = none := by
  rw [State.getConnection,h]
  rfl

theorem Sound.nameless (h : Sound s) (hidle : s.manager.initialized = false) (b : BusType)
    (name : Name) : s.owner b name = none := by
  cases ho : s.owner b name with
  | none => rfl
  | some x =>
    have hx := h.names b name x ho
    rw [getConnection_idle hidle] at hx
    cases hx

theorem sound_of_idle (hidle : s.manager.initialized = false)
    (hnames : ∀ b name, s.owner b name = none) : Sound s := by
  refine ⟨fun b name x ho => ?_,fun b x hx => ?_⟩
  · rw [hnames] at ho
    cases ho
  · rw [getConnection_idle hidle] at hx
    cases hx

theorem connect_nameless (h : ∀ b name, s.owner b name = none) (b : BusType) (loops : Bool) :
    ∀ b' name, (s.connect b loops).owner b' name = none := by
  intro b' name
  show Option.filter _ (s.owner b' name) = none
  rw [h]
  rfl

theorem connectSystem_nameless (h : ∀ b name, s.owner b name = none) (system : Connect) :
    ∀ b' name, (s.connectSystem system).owner b' name = none := by
  cases system with
  | failed caught => exact h
  | silent caught => exact connect_nameless h .System false
  | running => exact connect_nameless h .System true

@[simp] theorem connect_self (s : State Name) (b : BusType) (loops : Bool) :
    (s.connect b loops).manager.connection b = some s.created := by
  simp [State.connect,State.collect,State.setConnection]

theorem connect_of_ne (s : State Name) {b b' : BusType} (h : b' ≠ b) (loops : Bool) :
    (s.connect b loops).manager.connection b' = s.manager.connection b' := by
  simp [State.connect,State.collect,State.setConnection,h]

@[simp] theorem connect_looping (s : State Name) (b : BusType) (loops : Bool) :
    (s.connect b loops).looping s.created = loops := by
  simp [State.connect,State.collect,State.setConnection]

theorem connect_looping_of_lt (s : State Name) (b : BusType) (loops : Bool) {x : Nat}
    (hx : x < s.created) : (s.connect b loops).looping x = s.looping x := by
  simp [State.connect,State.collect,State.setConnection,Nat.ne_of_lt hx]

def Numbered (s : State Name) : Prop := ∀ b x, s.manager.connection b = some x → x < s.created

theorem Numbered.connect (h : Numbered s) (b : BusType) (loops : Bool) :
    Numbered (s.connect b loops) := by
  intro b' x hx
  show x < s.created+1
  by_cases hb : b' = b
  · subst hb
    cases (connect_self s b' loops).symm.trans hx
    exact Nat.lt_succ_self _
  · rw [connect_of_ne s hb] at hx
    exact Nat.lt_succ_of_lt (h b' x hx)

theorem Numbered.connectSystem (h : Numbered s) (system : Connect) :
    Numbered (s.connectSystem system) := by
  cases system with
  | failed caught => exact h
  | silent caught => exact h.connect _ _
  | running => exact h.connect _ _

/-- What the manager hands out for the two buses where no exception gets out of `Initialize`. -/
theorem connectSystem_loops_iff (hnumbered : Numbered s) {system : Connect}
    (hcaught : system.escapes = false) :
    (∀ b x, ((s.connect .Session true).connectSystem system).manager.connection b = some x →
        ((s.connect .Session true).connectSystem system).looping x = true) ↔
      ¬ (system = .silent true ∨ system = .failed true ∧
        ∃ x, s.manager.connection .System = some x ∧ s.looping x = false) := by
  have hkept : (s.connect .Session true).manager.connection .System =
      s.manager.connection .System := connect_of_ne s (by decide) true
  have hsession : ∀ loops,
      ((s.connect .Session true).connect .System loops).manager.connection .Session =
        some s.created :=
    fun loops => (connect_of_ne _ (by decide) loops).trans (connect_self s _ _)
  cases system with
  | failed caught =>
    have hlooping : ∀ x, s.manager.connection .System = some x →
        (s.connect .Session true).looping x = s.looping x :=
      fun x hx => connect_looping_of_lt s _ _ (hnumbered .System x hx)
    have hcaught : caught = true := by simpa [Connect.escapes] using hcaught
    subst hcaught
    simp only [State.connectSystem,reduceCtorEq,false_or,true_and]
    constructor
    · rintro h ⟨x,hx,hsilent⟩
      have hloops := h .System x (hkept.trans hx)
      rw [hlooping x hx,hsilent] at hloops
      cases hloops
    · intro h b x hx
      cases b with
      | System =>
        have hx := hkept.symm.trans hx
        rw [hlooping x hx,← Bool.not_eq_false]
        exact fun hsilent => h ⟨x,hx,hsilent⟩
      | Session =>
        cases (connect_self s .Session true).symm.trans hx
        exact connect_looping s _ _
  | running =>
    refine iff_of_true (fun b x hx => ?_) (by simp)
    cases b with
    | System =>
      cases (connect_self (s.connect .Session true) .System true).symm.trans hx
      exact connect_looping _ _ _
    | Session =>
      cases (hsession true).symm.trans hx
      exact (connect_looping_of_lt _ _ _ (Nat.lt_succ_self _)).trans (connect_looping s _ _)
  | silent caught =>
    have hcaught : caught = true := by simpa [Connect.escapes] using hcaught
    refine iff_of_false (fun h => ?_) (fun hne => hne (.inl (by rw [hcaught])))
    have hx := h .System _ (connect_self _ _ _)
    rw [State.connectSystem,connect_looping] at hx
    cases hx

theorem initializeManager_sound_iff (h : Sound s) (hnumbered : Numbered s)
    (session system : Connect) :
    Sound (s.initializeManager session system).2 ↔
      ¬ Spoils s (.initializeManager session system) := by
  unfold State.initializeManager
  cases hidle : s.manager.initialized with
  | true => exact iff_of_true h fun hspoils => absurd (hidle.symm.trans hspoils.1) nofun
  | false =>
    have hnone := h.nameless hidle
    simp only [Bool.false_eq_true,if_false,Spoils,hidle,true_and]
    cases session with
    | failed caught => exact iff_of_true h (by simp)
    | silent caught =>
      exact iff_of_true (sound_of_idle hidle (connect_nameless hnone .Session false)) (by simp)
    | running =>
      have hnames := connectSystem_nameless (connect_nameless hnone .Session true) system
      have hidle' : ((s.connect .Session true).connectSystem system).manager.initialized =
          false := by
        cases system <;> exact hidle
      simp only [true_and]
      cases hescapes : system.escapes with
      | true =>
        refine iff_of_true (sound_of_idle hidle' hnames) ?_
        rintro (rfl | ⟨rfl,-⟩) <;> cases hescapes
      | false =>
        refine Iff.trans ?_ (connectSystem_loops_iff hnumbered hescapes)
        constructor
        · exact fun h' => h'.loops
        · exact fun hloops =>
            ⟨fun b name x ho => absurd ((hnames b name).symm.trans ho) nofun,hloops⟩

theorem deinitializeManager_sound_iff (h : Sound s) :
    Sound s.deinitializeManager ↔ ¬ Spoils s (.deinitializeManager : Event Name) := by
  unfold State.deinitializeManager
  cases hinit : s.manager.initialized with
  | false =>
    refine iff_of_true h ?_
    rintro ⟨b,name,x,ho,_⟩
    rw [h.nameless hinit] at ho
    cases ho
  | true =>
    rw [if_pos rfl]
    have hclosed : ∀ b,
        ({ s with manager := ⟨false,fun _ => none⟩ } : State Name).collect.getConnection b = none :=
      fun _ => rfl
    have hused : ∀ x, ({ s with manager := ⟨false,fun _ => none⟩ } : State Name).Alive x ↔
        s.Used x := by
      intro x
      simp [State.Alive,State.Used]
    constructor
    · rintro h' ⟨b,name,x,ho,hx⟩
      have hx' := h'.names b name x (collect_owner.mpr ⟨ho,(hused x).mpr hx⟩)
      cases (hclosed b).symm.trans hx'
    · intro hno
      refine ⟨fun b name x ho => ?_,fun b x hx => absurd ((hclosed b).symm.trans hx) nofun⟩
      obtain ⟨ho,halive⟩ := collect_owner.mp ho
      exact absurd ⟨b,name,x,ho,(hused x).mp halive⟩ hno

theorem Sound.of_manager (h : Sound s) (hmanager : s'.manager = s.manager)
    (hlooping : s'.looping = s.looping)
    (hnames : ∀ b name x, s'.owner b name = some x → s.getConnection b = some x) : Sound s' := by
  have hconnection : ∀ b, s'.getConnection b = s.getConnection b := by
    intro b
    rw [State.getConnection,hmanager]
    rfl
  refine ⟨fun b name x ho => ?_,fun b x hx => ?_⟩
  · rw [hconnection]
    exact hnames b name x ho
  · rw [hconnection] at hx
    rw [hlooping]
    exact h.loops b x hx

theorem Numbered.of_manager (h : Numbered s) (hmanager : s'.manager = s.manager)
    (hcreated : s'.created = s.created) : Numbered s' := by
  intro b x hx
  rw [hcreated]
  exact h b x (hmanager ▸ hx)

theorem enter_frame (s : State Name) (request : Request) (b : BusType) (name : Name) :
    (s.enter request b name).2.manager = s.manager ∧
      (s.enter request b name).2.looping = s.looping ∧
      (s.enter request b name).2.created = s.created ∧
      (s.enter request b name).2.owner = s.owner := by
  unfold State.enter
  split <;> exact ⟨rfl,rfl,rfl,rfl⟩

theorem Sound.enter (h : Sound s) (request : Request) (b : BusType) (name : Name) :
    Sound (s.enter request b name).2 := by
  obtain ⟨hmanager,hlooping,-,howner⟩ := enter_frame s request b name
  exact h.of_manager hmanager hlooping (howner ▸ h.names)

theorem Numbered.enter (h : Numbered s) (request : Request) (b : BusType) (name : Name) :
    Numbered (s.enter request b name).2 := by
  obtain ⟨hmanager,-,hcreated,-⟩ := enter_frame s request b name
  exact h.of_manager hmanager hcreated

variable [DecidableEq Name]

theorem setOwner_owner (s : State Name) (b b' : BusType) (name name' : Name) (x : Option Nat) :
    (s.setOwner b name x).owner b' name' =
      if b' = b ∧ name' = name then x else s.owner b' name' := by
  by_cases hb : b' = b
  · subst hb
    by_cases hname : name' = name
    · subst hname
      simp [State.setOwner]
    · simp [State.setOwner,hname]
  · simp [State.setOwner,hb]

theorem perform_frame (s : State Name) (a : Call Name) (granted : Bool) :
    (s.perform a granted).manager = s.manager ∧ (s.perform a granted).looping = s.looping ∧
      (s.perform a granted).created = s.created := by
  unfold State.perform
  split
  · unfold State.requestName
    split <;> exact ⟨rfl,rfl,rfl⟩
  · unfold State.releaseName
    split <;> exact ⟨rfl,rfl,rfl⟩

theorem requestName_sound_iff (h : Sound s) (a : Call Name) (granted : Bool) :
    Sound (s.requestName a granted).2 ↔ ¬ (granted = true ∧ s.owner a.bus a.name = none ∧
      s.getConnection a.bus ≠ some a.connection) := by
  unfold State.requestName
  by_cases hgets : granted = true ∧ s.owner a.bus a.name = none
  · rw [if_pos hgets]
    have howner := fun b name =>
      setOwner_owner (s.leave a) a.bus b a.name name (some a.connection)
    constructor
    · intro h' ⟨_,_,hgone⟩
      refine hgone (h'.names a.bus a.name a.connection ?_)
      rw [howner,if_pos ⟨rfl,rfl⟩]
    · intro hno
      have hconnection : s.getConnection a.bus = some a.connection := by
        by_contra hgone
        exact hno ⟨hgets.1,hgets.2,hgone⟩
      refine h.of_manager rfl rfl fun b name x ho => ?_
      rw [howner] at ho
      split at ho
      · next hsame =>
        cases ho
        rw [hsame.1,hconnection]
      · exact h.names b name x ho
  · rw [if_neg hgets]
    refine iff_of_true (h.of_manager rfl rfl h.names) fun hspoils => hgets ⟨hspoils.1,hspoils.2.1⟩

theorem releaseName_sound (h : Sound s) (a : Call Name) : Sound (s.releaseName a) := by
  unfold State.releaseName
  split
  · refine h.of_manager rfl rfl fun b name x ho => ?_
    rw [setOwner_owner] at ho
    split at ho
    · cases ho
    · exact h.names b name x ho
  · exact h.of_manager rfl rfl h.names

theorem step_sound_iff (h : Sound s) (hnumbered : Numbered s) (e : Event Name) :
    Sound (s.step e) ↔ ¬ Spoils s e := by
  cases e with
  | initializeManager session system =>
    exact initializeManager_sound_iff h hnumbered session system
  | deinitializeManager => exact deinitializeManager_sound_iff h
  | getConnection b =>
    refine iff_of_true ?_ id
    simp only [State.step]
    split
    · exact h
    · exact h.of_manager rfl rfl h.names
  | drop x =>
    refine iff_of_true ?_ id
    simp only [State.step]
    split
    · exact h.of_manager rfl rfl fun b name y ho => h.names b name y (collect_owner.mp ho).1
    · exact h
  | requestServiceName b name => exact iff_of_true (h.enter .requestName b name) id
  | releaseServiceName b name => exact iff_of_true (h.enter .releaseName b name) id
  | perform a granted =>
    simp only [State.step,State.perform,Spoils]
    by_cases ha : a ∈ s.calls
    · rw [if_pos ha]
      cases hrequest : a.request with
      | requestName => simpa [ha] using requestName_sound_iff h a granted
      | releaseName => exact iff_of_true (releaseName_sound h a) (by simp)
    · rw [if_neg ha]
      exact iff_of_true h fun hspoils => ha hspoils.1

theorem step_numbered (h : Numbered s) (e : Event Name) : Numbered (s.step e) := by
  cases e with
  | initializeManager session system =>
    simp only [State.step,State.initializeManager]
    split
    · exact h
    · cases session with
      | failed caught => exact h
      | silent caught => exact h.connect _ _
      | running =>
        dsimp only
        split
        · exact (h.connect _ _).connectSystem system
        · exact (h.connect _ _).connectSystem system
  | deinitializeManager =>
    simp only [State.step,State.deinitializeManager]
    split
    · exact fun _ _ => nofun
    · exact h
  | getConnection b =>
    simp only [State.step]
    split
    · exact h
    · exact h.of_manager rfl rfl
  | drop x =>
    simp only [State.step]
    split
    · exact h.of_manager rfl rfl
    · exact h
  | requestServiceName b name => exact h.enter .requestName b name
  | releaseServiceName b name => exact h.enter .releaseName b name
  | perform a granted =>
    simp only [State.step]
    split
    · obtain ⟨hmanager,-,hcreated⟩ := perform_frame s a granted
      exact h.of_manager hmanager hcreated
    · exact h

/-- In every run each service name belongs to the connection through which the manager would
release it, and each connection that it hands out runs its event loop, so long as no step spoils
it. -/
theorem connections_sound_iff (σ : Nat → Event Name) (n : Nat) :
    (∀ k, k < n → Sound (stateAt State.step .initial σ (k+1))) ↔
      ∀ k, k < n → ¬ Spoils (stateAt State.step .initial σ k) (σ k) :=
  forall_iff_of_invariant
    (I := fun k => Sound (stateAt State.step .initial σ k) ∧
      Numbered (stateAt State.step .initial σ k))
    ⟨⟨nofun,nofun⟩,fun _ _ => nofun⟩
    (fun _ ⟨h,hnumbered⟩ hkeeps =>
      ⟨(step_sound_iff h hnumbered _).mpr hkeeps,step_numbered hnumbered _⟩)
    fun _ ⟨h,hnumbered⟩ => step_sound_iff h hnumbered _

end Steps

end Model

end LapCom.DBus.Connections
