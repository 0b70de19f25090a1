import LapCom.Runtime.Accounting
import LapCom.Runtime.Isolation

set_option autoImplicit false

/-! The calls of `Runtime.cpp` that use the registry without `g_init_mutex`, by atomic steps beside
the threads of `Initialize` and `Deinitialize`. -/

namespace LapCom.Lifecycle

def creates (s : System) : Event → Bool
  | .run t _ => match s.phase t with
    | .create => true
    | _ => false
  | .call _ _ => false
  | .worker _ => false

def resets (s : System) : Event → Bool
  | .run t _ => match s.phase t with
    | .resetRegistry => true
    | _ => false
  | .call _ _ => false
  | .worker _ => false

def Builds : Phase → Prop
  | .socket _ => True
  | .connect _ _ => True
  | .receive _ _ => True
  | .closeSocket _ _ _ => True
  | .map _ => True
  | .abandon => True
  | .setRunning => True
  | .startThread => True
  | .publish => True
  | _ => False

def Steady (s : System) : Prop := ∀ t, ¬ Builds (s.phase t)

section Steps
variable {s : System} {e : Event} {g g' : Globals} {p p' : Phase}
  {reg : SharedMemoryRegistry}

theorem creates_run (t : Nat) (ok : Bool) :
    creates s (.run t ok) = true ↔ s.phase t = .create := by
  rw [creates]
  cases s.phase t with
  | _ => simp

theorem resets_run (t : Nat) (ok : Bool) :
    resets s (.run t ok) = true ↔ s.phase t = .resetRegistry := by
  rw [resets]
  cases s.phase t with
  | _ => simp

theorem Settled.full (h : Settled g) (hreg : g.dualRegistry = some reg) : reg.Full := by
  rcases h with hup | hdown
  · obtain ⟨reg',hfull,hkeeps⟩ := hup.registry
    rw [hkeeps.dualRegistry] at hreg
    cases hreg
    exact hfull
  · rw [hdown.released.dualRegistry] at hreg
    cases hreg

theorem At.full (h : At g p) (hp : ¬ Builds p) (hreg : g.dualRegistry = some reg) : reg.Full := by
  cases p with
  | idle | entered op => cases h
  | check op => exact Settled.full h hreg
  | create => exact Settled.full (.inr h) hreg
  | stop => exact Settled.full (.inl h) hreg
  | join | resetRegistry =>
    obtain ⟨-,⟨reg',hfull,hkeeps⟩,-⟩ := h
    rw [hkeeps.dualRegistry] at hreg
    cases hreg
    exact hfull
  | unpublish =>
    rw [h.2.1.dualRegistry] at hreg
    cases hreg
  | returning op r => exact Settled.full (Leaves.settled h) hreg
  | _ => exact absurd trivial hp

/-- Outside of `Initialize`, a registry that is there is initialised. -/
theorem Locked.full (h : Locked s) (hsteady : Steady s)
    (hreg : s.globals.dualRegistry = some reg) : reg.Full := by
  cases hmutex : s.mutex with
  | none => exact Settled.full (h.free hmutex) hreg
  | some t => exact At.full (h.held t hmutex) (hsteady t) hreg

theorem At.uninitialized (h : At g p) (hp : Builds p) : g.initialized = false := by
  cases p with
  | socket r | connect r sock | receive r sock | closeSocket r sock memfd | setRunning =>
    obtain ⟨reg,-,hbuilding⟩ := h
    exact hbuilding.initialized
  | map r =>
    obtain ⟨reg,fd,-,hbuilding⟩ := h
    exact hbuilding.initialized
  | abandon =>
    obtain ⟨reg,hbuilding⟩ := h
    exact hbuilding.initialized
  | startThread | publish => exact h.1
  | _ => cases hp

theorem Locked.steady (h : Locked s) (hinitialized : s.globals.initialized = true) : Steady s := by
  intro t hbuilds
  have hinside : (s.phase t).Inside := by
    cases hp : s.phase t with
    | idle | entered op =>
      rw [hp] at hbuilds
      cases hbuilds
    | _ => trivial
  have hfalse := At.uninitialized (h.held t (h.inside t hinside)) hbuilds
  rw [hinitialized] at hfalse
  cases hfalse

theorem advance_steady {ok : Bool} (hp : ¬ Builds p) (hcreate : p ≠ .create)
    (hstep : Lifecycle.advance g ok p = some (g',p')) :
    ¬ Builds p' ∧ (p ≠ .resetRegistry → g'.dualRegistry = g.dualRegistry) := by
  cases p with
  | idle | entered op | returning op r => cases hstep
  | create => exact absurd rfl hcreate
  | check op =>
    cases op with
    | initializeRuntime | deinitializeRuntime =>
      simp only [Lifecycle.advance] at hstep
      split_ifs at hstep
      all_goals
        cases hstep
        exact ⟨id,fun _ => rfl⟩
  | stop =>
    simp only [Lifecycle.advance] at hstep
    split_ifs at hstep
    all_goals
      cases hstep
      exact ⟨id,fun _ => rfl⟩
  | join =>
    simp only [Lifecycle.advance] at hstep
    split at hstep
    · cases hstep
      exact ⟨id,fun _ => rfl⟩
    · split_ifs at hstep
      cases hstep
      exact ⟨id,fun _ => rfl⟩
  | resetRegistry =>
    cases hstep
    exact ⟨id,fun h => absurd rfl h⟩
  | unpublish =>
    cases hstep
    exact ⟨id,fun _ => rfl⟩
  | _ => exact absurd trivial hp

theorem Steady.update (h : Steady s) {t : Nat} (hp : ¬ Builds p) {m : Option Nat} :
    Steady ⟨m,g,Function.update s.phase t p⟩ := by
  intro t'
  by_cases ht : t' = t
  · subst ht
    simpa using hp
  · simpa [ht] using h t'

theorem worker_dualRegistry (w : Nat) : (g.worker w).dualRegistry = g.dualRegistry := by
  rw [Globals.worker]
  split_ifs
  · rfl
  · rfl

theorem Steady.step (h : Steady s) (hcreates : creates s e = false) :
    Steady (Lifecycle.step s e) ∧ (resets s e = false →
      (Lifecycle.step s e).globals.dualRegistry = s.globals.dualRegistry) := by
  cases e with
  | call t op =>
    rw [Lifecycle.step]
    split
    · exact ⟨h.update id,fun _ => rfl⟩
    · exact ⟨h,fun _ => rfl⟩
  | worker w => exact ⟨h,fun _ => worker_dualRegistry w⟩
  | run t ok =>
    have hcreate : s.phase t ≠ .create := by
      rw [Ne,← creates_run t ok,hcreates]
      exact Bool.false_ne_true
    rw [Lifecycle.step]
    split
    · split_ifs
      · exact ⟨h,fun _ => rfl⟩
      · exact ⟨h.update id,fun _ => rfl⟩
    · exact ⟨h.update id,fun _ => rfl⟩
    · cases hadvance : Lifecycle.advance s.globals ok (s.phase t) with
      | none => exact ⟨h,fun _ => rfl⟩
      | some done =>
        obtain ⟨hbuilds,hframe⟩ := advance_steady (h t) hcreate hadvance
        refine ⟨h.update hbuilds,fun hresets => hframe ?_⟩
        rw [Ne,← resets_run t ok,hresets]
        exact Bool.false_ne_true

theorem reset_none {t : Nat} {ok : Bool} (h : s.phase t = .resetRegistry) :
    (Lifecycle.step s (.run t ok)).globals.dualRegistry = none := by
  simp only [Lifecycle.step,h,Lifecycle.advance]
  rw [Globals.resetRegistry]
  split
  · assumption
  · rfl

theorem create_new {t : Nat} {ok : Bool} (h : s.phase t = .create) :
    (Lifecycle.step s (.run t ok)).globals.dualRegistry = some .new := by
  simp only [Lifecycle.step,h,Lifecycle.advance]

end Steps

end LapCom.Lifecycle

namespace LapCom.Races
open LapCom.Machine LapCom.Lifecycle
open LapCom.Registry (Reply)

/-- Where a call stands: before the load of `g_initialized`, before the test of
`g_dual_registry`, before the call of its method, or in that method, which runs on an object. -/
inductive CallPhase where
  | idle
  | load (op : Runtime.Op)
  | test (op : Runtime.Op)
  | use (op : Runtime.Op)
  | inside (this : Option Nat)
  | returning (reply : Reply)

/-- `created` counts the registries that were made; the last one is the one that
`g_dual_registry` can hold. The callers are other threads than those of the lifecycle. -/
structure System where
  lifecycle : Lifecycle.System
  created : Nat
  call : Nat → CallPhase

/-- `run` is a step of a caller. The steps that a method takes on its registry are any number, and
with the last one it has its reply. -/
inductive Event where
  | lifecycle (e : Lifecycle.Event)
  | enter (t : Nat) (op : Runtime.Op)
  | run (t : Nat) (reply : Option Reply)

namespace System

def initial : System := ⟨.initial,0,fun _ => .idle⟩

def globals (s : System) : Lifecycle.Globals := s.lifecycle.globals

def current (s : System) : Option Nat := s.globals.dualRegistry.map fun _ => s.created

def advance (s : System) (reply : Option Reply) : CallPhase → CallPhase
  | .idle => .idle
  | .load op =>
    if s.globals.initialized then .test op else .returning (op.failed .kNotInitialized)
  | .test op =>
    if s.globals.dualRegistry.isNone then .returning (op.failed .kInternal)
    else if op.accepted then .use op else .returning op.refused
  | .use _ => .inside s.current
  | .inside this => match reply with
    | none => .inside this
    | some reply => .returning reply
  | .returning _ => .idle

def setCall (s : System) (t : Nat) (p : CallPhase) : System :=
  { s with call := Function.update s.call t p }

end System

def step (s : System) : Event → System
  | .lifecycle e =>
    { s with
      lifecycle := Lifecycle.step s.lifecycle e
      created := if creates s.lifecycle e then s.created+1 else s.created }
  | .enter t op =>
    match s.call t with
    | .idle => s.setCall t (.load op)
    | _ => s
  | .run t reply => s.setCall t (s.advance reply (s.call t))

abbrev systemAt (σ : Nat → Event) (k : Nat) : System := stateAt step .initial σ k

/-- The object that the step calls a method of, if it does; a null pointer is `some none`. -/
def System.target (s : System) : Event → Option (Option Nat)
  | .run t _ => match s.call t with
    | .use _ => some s.current
    | .inside this => some this
    | _ => none
  | .lifecycle _ => none
  | .enter _ _ => none

/-- The checks of a call that nobody comes between are those of the sequential call. -/
theorem advance_exec {s : System} {rt : Runtime.Globals}
    (hinitialized : s.globals.initialized = rt.initialized)
    (hregistry : s.globals.dualRegistry.isSome = rt.dualRegistry.isSome) (op : Runtime.Op) :
    s.advance none (.load op) = .returning (op.exec rt).1 ∨
      s.advance none (.load op) = .test op ∧
        (s.advance none (.test op) = .returning (op.exec rt).1 ∨
          s.advance none (.test op) = .use op ∧ ∃ reg, rt.dualRegistry = some reg ∧
            (op.exec rt).1 = (op.delegate.exec reg).1) := by
  rw [Runtime.exec_eq]
  simp only [System.advance,hinitialized,← Option.not_isSome,hregistry]
  cases rt.initialized with
  | false => exact .inl rfl
  | true =>
    refine .inr ⟨rfl,?_⟩
    cases rt.dualRegistry with
    | none => exact .inl rfl
    | some reg =>
      cases haccepted : op.accepted with
      | false => exact .inl rfl
      | true => exact .inr ⟨rfl,reg,rfl,rfl⟩

/-- The object has been initialised and has not been reset. -/
def System.Ready (s : System) (this : Option Nat) : Prop :=
  ∃ reg, s.globals.dualRegistry = some reg ∧ reg.Full ∧ this = some s.created

def CallsReady (s : System) (e : Event) : Prop := ∀ this, s.target e = some this → s.Ready this

def CallPhase.tests : CallPhase → Bool
  | .test op => op.accepted
  | _ => false

def CallPhase.uses : CallPhase → Bool
  | .use _ => true
  | .inside _ => true
  | _ => false

/-- `Deinitialize` resets the registry while no call uses it, and `Initialize` makes one while no
call is about to test for it. -/
def System.Undisturbed (s : System) : Event → Prop
  | .lifecycle e =>
    (resets s.lifecycle e = true → ∀ t, (s.call t).uses = false) ∧
      (creates s.lifecycle e = true → ∀ t, (s.call t).tests = false)
  | .enter _ _ => True
  | .run _ _ => True

def Event.isCall : Event → Prop
  | .lifecycle _ => False
  | .enter _ _ => True
  | .run _ _ => True

structure Inv (s : System) : Prop where
  locked : Locked s.lifecycle
  steady : ∀ t, (s.call t).tests = true ∨ (s.call t).uses = true → Steady s.lifecycle
  present : ∀ t, (s.call t).uses = true → s.globals.dualRegistry.isSome = true
  object : ∀ t this, s.call t = .inside this → this = s.current

theorem Inv.initial : Inv .initial :=
  ⟨.initial,by simp [System.initial,CallPhase.tests,CallPhase.uses],
    by simp [System.initial,CallPhase.uses],by simp [System.initial]⟩

section Steps
variable {s : System} {t : Nat} {p : CallPhase}

theorem Inv.ready (h : Inv s) (huses : (s.call t).uses = true) : s.Ready s.current := by
  obtain ⟨reg,hreg⟩ := Option.isSome_iff_exists.mp (h.present t huses)
  refine ⟨reg,hreg,h.locked.full (h.steady t (.inr huses)) hreg,?_⟩
  rw [System.current,hreg,Option.map_some]

theorem Inv.callsReady (h : Inv s) (e : Event) : CallsReady s e := by
  intro this htarget
  cases e with
  | lifecycle e => cases htarget
  | enter t op => cases htarget
  | run t reply =>
    rw [System.target] at htarget
    cases hcall : s.call t with
    | use op =>
      rw [hcall] at htarget
      cases htarget
      exact h.ready (t := t) (by rw [hcall]; rfl)
    | inside this' =>
      rw [hcall] at htarget
      cases htarget
      rw [h.object t _ hcall]
      exact h.ready (t := t) (by rw [hcall]; rfl)
    | _ =>
      rw [hcall] at htarget
      cases htarget

theorem setCall_cases (s : System) (t : Nat) (p : CallPhase) (t' : Nat) :
    (s.setCall t p).call t' = p ∨ (s.setCall t p).call t' = s.call t' := by
  by_cases ht : t' = t
  · subst ht
    exact .inl (Function.update_self ..)
  · exact .inr (Function.update_of_ne ht ..)

theorem Inv.setCall (h : Inv s) (hsteady : p.tests = true ∨ p.uses = true → Steady s.lifecycle)
    (hpresent : p.uses = true → s.globals.dualRegistry.isSome = true)
    (hthis : ∀ this, p = .inside this → this = s.current) : Inv (s.setCall t p) := by
  refine ⟨h.locked,fun t' ht' => ?_,fun t' ht' => ?_,fun t' this ht' => ?_⟩
  · rcases setCall_cases s t p t' with heq | heq
    · rw [heq] at ht'
      exact hsteady ht'
    · rw [heq] at ht'
      exact h.steady t' ht'
  · rcases setCall_cases s t p t' with heq | heq
    · rw [heq] at ht'
      exact hpresent ht'
    · rw [heq] at ht'
      exact h.present t' ht'
  · rcases setCall_cases s t p t' with heq | heq
    · exact hthis this (heq.symm.trans ht')
    · exact h.object t' this (heq.symm.trans ht')

theorem Inv.setIdle (h : Inv s) (htests : p.tests = false) (huses : p.uses = false) :
    Inv (s.setCall t p) := by
  refine h.setCall (fun hp => ?_) (fun hp => ?_) (fun this hp => ?_)
  · rw [htests,huses] at hp
    cases hp with
    | inl hp | inr hp => cases hp
  · rw [huses] at hp
    cases hp
  · rw [hp] at huses
    cases huses

theorem Inv.run (h : Inv s) (t : Nat) (reply : Option Reply) : Inv (step s (.run t reply)) := by
  rw [step]
  cases hcall : s.call t with
  | idle | returning r => exact h.setIdle rfl rfl
  | load op =>
    rw [System.advance]
    split_ifs with hinitialized
    · exact h.setCall (fun _ => h.locked.steady hinitialized) nofun nofun
    · exact h.setIdle rfl rfl
  | test op =>
    rw [System.advance]
    split_ifs with hnone haccepted
    · exact h.setIdle rfl rfl
    · have htests : (s.call t).tests = true := by
        rw [hcall]
        exact haccepted
      have hsome : s.globals.dualRegistry.isSome = true := by
        simpa [Option.isSome_iff_ne_none] using hnone
      exact h.setCall (fun _ => h.steady t (.inl htests)) (fun _ => hsome) nofun
    · exact h.setIdle rfl rfl
  | use op =>
    have huses : (s.call t).uses = true := by rw [hcall]; rfl
    refine h.setCall (fun _ => h.steady t (.inr huses)) (fun _ => h.present t huses) ?_
    rintro this ⟨⟩
    rfl
  | inside this =>
    have huses : (s.call t).uses = true := by rw [hcall]; rfl
    cases reply with
    | none =>
      refine h.setCall (fun _ => h.steady t (.inr huses)) (fun _ => h.present t huses) ?_
      rintro this' ⟨⟩
      exact h.object t this hcall
    | some r => exact h.setIdle rfl rfl

theorem Inv.enter (h : Inv s) (t : Nat) (op : Runtime.Op) : Inv (step s (.enter t op)) := by
  rw [step]
  split
  · exact h.setIdle rfl rfl
  · exact h

theorem Inv.create_unused (h : Inv s) {e : Lifecycle.Event} (he : creates s.lifecycle e = true)
    (t : Nat) : (s.call t).uses = false := by
  cases e with
  | call t' op => cases he
  | worker w => cases he
  | run t' ok =>
    have hphase := (creates_run t' ok).mp he
    have hmutex := h.locked.inside t' (by rw [hphase]; trivial)
    have hat := h.locked.held t' hmutex
    rw [hphase] at hat
    have hnone : s.globals.dualRegistry = none := hat.released.dualRegistry
    by_contra huses
    have hsome := h.present t (by simpa using huses)
    rw [hnone] at hsome
    cases hsome

theorem Inv.lifecycle (h : Inv s) {e : Lifecycle.Event} (he : s.Undisturbed (.lifecycle e)) :
    Inv (step s (.lifecycle e)) := by
  obtain ⟨hreset,hcreate⟩ := he
  cases hcreates : creates s.lifecycle e with
  | true =>
    have huses := h.create_unused hcreates
    have htests := hcreate hcreates
    refine ⟨h.locked.step e,fun t ht => ?_,fun t ht => ?_,fun t this ht => ?_⟩
    · rcases ht with ht | ht
      · exact absurd ((htests t).symm.trans ht) (by simp)
      · exact absurd ((huses t).symm.trans ht) (by simp)
    · exact absurd ((huses t).symm.trans ht) (by simp)
    · have ht' : s.call t = .inside this := ht
      have hfalse := huses t
      rw [ht'] at hfalse
      cases hfalse
  | false =>
    have hframe : ∀ t, (s.call t).uses = true →
        (Lifecycle.step s.lifecycle e).globals.dualRegistry = s.globals.dualRegistry := by
      intro t huses
      refine ((h.steady t (.inr huses)).step hcreates).2 ?_
      by_contra hresets
      have hfalse := hreset (by simpa using hresets) t
      rw [huses] at hfalse
      cases hfalse
    refine ⟨h.locked.step e,fun t ht => ((h.steady t ht).step hcreates).1,fun t ht => ?_,
      fun t this ht => ?_⟩
    · have hsame : (step s (.lifecycle e)).globals.dualRegistry = s.globals.dualRegistry :=
        hframe t ht
      rw [hsame]
      exact h.present t ht
    · have ht' : s.call t = .inside this := ht
      have hsame : (step s (.lifecycle e)).globals.dualRegistry = s.globals.dualRegistry :=
        hframe t (by rw [ht']; rfl)
      rw [h.object t this ht',System.current,System.current,hsame,step,hcreates]
      rfl

theorem Inv.step (h : Inv s) {e : Event} (he : s.Undisturbed e) : Inv (step s e) := by
  cases e with
  | lifecycle e => exact h.lifecycle he
  | enter t op => exact h.enter t op
  | run t reply => exact h.run t reply

theorem reset_misses {e : Lifecycle.Event} (he : resets s.lifecycle e = true)
    (huses : (s.call t).uses = true) :
    ¬ CallsReady (Races.step s (.lifecycle e)) (.run t none) := by
  have hnone : (Races.step s (.lifecycle e)).globals.dualRegistry = none := by
    cases e with
    | call t' op => cases he
    | worker w => cases he
    | run t' ok =>
      have hphase := (resets_run t' ok).mp he
      exact Lifecycle.reset_none hphase
  intro hready
  have hcalls : ∃ this, (Races.step s (.lifecycle e)).target (.run t none) = some this := by
    cases hcall : s.call t with
    | use op => exact ⟨_,by rw [System.target,Races.step,hcall]⟩
    | inside this => exact ⟨_,by rw [System.target,Races.step,hcall]⟩
    | _ =>
      rw [hcall] at huses
      cases huses
  obtain ⟨this,hthis⟩ := hcalls
  obtain ⟨reg,hreg,-⟩ := hready this hthis
  rw [hnone] at hreg
  cases hreg

theorem create_early {e : Lifecycle.Event} (he : creates s.lifecycle e = true)
    (htests : (s.call t).tests = true) :
    ¬ CallsReady (Races.step (Races.step s (.lifecycle e)) (.run t none)) (.run t none) := by
  have hnew : (Races.step s (.lifecycle e)).globals.dualRegistry = some .new := by
    cases e with
    | call t' op => cases he
    | worker w => cases he
    | run t' ok =>
      have hphase := (creates_run t' ok).mp he
      exact Lifecycle.create_new hphase
  cases hcall : s.call t with
  | test op =>
    have haccepted : op.accepted = true := by
      rw [hcall] at htests
      exact htests
    have hadvance : (Races.step s (.lifecycle e)).advance none (s.call t) = .use op := by
      rw [hcall,System.advance,hnew]
      simp [haccepted]
    have huse : (Races.step (Races.step s (.lifecycle e)) (.run t none)).call t = .use op :=
      (Function.update_self ..).trans hadvance
    intro hready
    obtain ⟨reg,hreg,hfull,-⟩ := hready _ (by rw [System.target,huse])
    have hreg' : (Races.step s (.lifecycle e)).globals.dualRegistry = some reg := hreg
    rw [hnew] at hreg'
    cases hreg'
    cases hfull.1.1
  | _ =>
    rw [hcall] at htests
    cases htests

/-- Whatever disturbs a call, the call's own next steps go wrong. -/
theorem disturbed_unready {e : Event} (h : ¬ s.Undisturbed e) :
    ∃ t, ∃ j, ¬ CallsReady (stateAt step (step s e) (fun _ => .run t none) j) (.run t none) := by
  cases e with
  | enter t op => exact absurd trivial h
  | run t reply => exact absurd trivial h
  | lifecycle e =>
    rcases not_and_or.mp h with hreset | hcreate
    · obtain ⟨hresets,huses⟩ := Classical.not_imp.mp hreset
      obtain ⟨t,ht⟩ := not_forall.mp huses
      exact ⟨t,0,reset_misses hresets (by simpa using ht)⟩
    · obtain ⟨hcreates,htests⟩ := Classical.not_imp.mp hcreate
      obtain ⟨t,ht⟩ := not_forall.mp htests
      exact ⟨t,1,create_early hcreates (by simpa using ht)⟩

end Steps

theorem Event.isCall.undisturbed {e : Event} (h : e.isCall) (s : System) : s.Undisturbed e := by
  cases e with
  | lifecycle e => cases h
  | enter t op => trivial
  | run t reply => trivial

/-- Over every run: nothing disturbs a call if and only if the calls, let run on from any point of
the run, only call methods of a registry that is initialised and has not been reset. -/
theorem calls_ready_iff (σ : Nat → Event) (n : Nat) :
    (∀ k, k < n → (systemAt σ k).Undisturbed (σ k)) ↔
      ∀ τ, Follows Event.isCall σ n τ → ∀ k, CallsReady (systemAt τ k) (τ k) := by
  apply forall_follows_iff Inv.initial
  · exact fun s e h he => h.step he
  · exact fun s e h => h.callsReady e
  · exact fun s e he => he.undisturbed s
  · intro s e _ he
    obtain ⟨t,j,hj⟩ := disturbed_unready he
    exact ⟨fun _ => .run t none,fun _ => trivial,j,hj⟩

/-- `Initialize`, the checks of a `FindService`, `Deinitialize` up to the reset, and then the call
of the method. -/
def lateFind : List Event :=
  .lifecycle (.call 0 .initializeRuntime) :: List.replicate 17 (.lifecycle (.run 0 true)) ++
    [.enter 1 (.findService 1),.run 1 none,.run 1 none,
      .lifecycle (.call 0 .deinitializeRuntime),.lifecycle (.run 0 true),.lifecycle (.run 0 true),
      .lifecycle (.run 0 true),.lifecycle (.worker 0),.lifecycle (.run 0 true),
      .lifecycle (.run 0 true)]

def Event.single : Event → Bool
  | .lifecycle (.call t _) => t = 0
  | .lifecycle (.run t _) => t = 0
  | _ => true

theorem lateFind_unready :
    ¬ ∀ σ, (∀ k, (σ k).single = true) → ∀ k, CallsReady (systemAt σ k) (σ k) := by
  intro h
  have htarget : (systemAt (schedule lateFind (.run 1 none)) 28).target (.run 1 none) =
      some none := by decide +kernel
  have hsingle : ∀ k, (schedule lateFind (.run 1 none) k).single = true :=
    schedule_forall (List.all_eq_true.mp rfl) rfl
  obtain ⟨reg,-,-,hnone⟩ := h _ hsingle 28 none htarget
  cases hnone

end LapCom.Races
