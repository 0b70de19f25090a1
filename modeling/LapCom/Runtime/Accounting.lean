import LapCom.Runtime.Lifecycle

set_option autoImplicit false

namespace LapCom.Lifecycle
open LapCom.Kernel LapCom.Machine

/-- The registry of the runtime is `reg`. Its descriptors and regions, and the descriptors
`extra`, are held. -/
structure Keeps (g : Globals) (reg : SharedMemoryRegistry) (extra : List Nat) : Prop where
  dualRegistry : g.dualRegistry = some reg
  descriptors : g.descriptors.Holds (extra++reg.memfds)
  regions : g.regions.Holds reg.regions

structure Released (g : Globals) : Prop where
  dualRegistry : g.dualRegistry = none
  descriptors : g.descriptors.Holds []
  regions : g.regions.Holds []

structure Quiet (g : Globals) : Prop where
  running : g.heartbeatRunning = false
  thread : g.heartbeatThread = none
  workers : ∀ w, g.workers w = false

structure Beating (g : Globals) : Prop where
  running : g.heartbeatRunning = true
  thread : ∃ w, g.heartbeatThread = some w ∧ ∀ v, g.workers v = true ↔ v = w

def SingleRegistry.Full (x : SingleRegistry) : Prop := x.memfd.isSome ∧ x.slots.isSome

def SharedMemoryRegistry.Full (reg : SharedMemoryRegistry) : Prop :=
  reg.qmRegistry.Full ∧ reg.asilRegistry.Full

def SharedMemoryRegistry.Before (reg : SharedMemoryRegistry) : RegistryType → Prop
  | .QM => reg = .new
  | .ASIL => reg.qmRegistry.Full ∧ reg.asilRegistry = .new

structure Down (g : Globals) : Prop where
  initialized : g.initialized = false
  released : Released g
  quiet : Quiet g

structure Up (g : Globals) : Prop where
  initialized : g.initialized = true
  registry : ∃ reg, reg.Full ∧ Keeps g reg []
  beating : Beating g

/-- The registry of a thread in `Initialize` is not complete. -/
structure Building (g : Globals) (reg : SharedMemoryRegistry) (extra : List Nat) : Prop where
  initialized : g.initialized = false
  keeps : Keeps g reg extra
  quiet : Quiet g

/-- How a call leaves the runtime. -/
inductive Leaves : Op → Result Unit → Globals → Prop
  | started {g : Globals} (h : Up g) : Leaves .initializeRuntime (.ok ()) g
  | refused {g : Globals} (h : Up g) : Leaves .initializeRuntime (fail .kInvalidState 0) g
  | failed {g : Globals} (h : Down g) : Leaves .initializeRuntime (fail .kInternal 0) g
  | stopped {g : Globals} (h : Down g) : Leaves .deinitializeRuntime (.ok ()) g
  | absent {g : Globals} (h : Down g) : Leaves .deinitializeRuntime (fail .kNotInitialized 0) g

def At (g : Globals) : Phase → Prop
  | .idle => False
  | .entered _ => False
  | .check _ => Up g ∨ Down g
  | .create => Down g
  | .socket r => ∃ reg, reg.Before r ∧ Building g reg []
  | .connect r sock => ∃ reg, reg.Before r ∧ Building g reg [sock]
  | .receive r sock => ∃ reg, reg.Before r ∧ Building g reg [sock]
  | .closeSocket r sock memfd => ∃ reg, reg.Before r ∧ Building g reg (sock :: memfd.toList)
  | .map r => ∃ (reg : SharedMemoryRegistry) (fd : Nat), reg.Before r ∧
      Building g (reg.set ⟨some fd,none⟩ r) []
  | .abandon => ∃ reg, Building g reg []
  | .setRunning => ∃ reg, reg.Full ∧ Building g reg []
  | .startThread => g.initialized = false ∧ (∃ reg, reg.Full ∧ Keeps g reg []) ∧
      g.heartbeatRunning = true ∧ g.heartbeatThread = none ∧ ∀ w, g.workers w = false
  | .publish => g.initialized = false ∧ (∃ reg, reg.Full ∧ Keeps g reg []) ∧ Beating g
  | .stop => Up g
  | .join => g.initialized = true ∧ (∃ reg, reg.Full ∧ Keeps g reg []) ∧
      g.heartbeatRunning = false ∧
      ∃ w, g.heartbeatThread = some w ∧ ∀ v, g.workers v = true → v = w
  | .resetRegistry => g.initialized = true ∧ (∃ reg, reg.Full ∧ Keeps g reg []) ∧ Quiet g
  | .unpublish => g.initialized = true ∧ Released g ∧ Quiet g
  | .returning op r => Leaves op r g

theorem Keeps.reset {g : Globals} {reg : SharedMemoryRegistry} (h : Keeps g reg []) :
    Released g.resetRegistry := by
  have heq : g.resetRegistry = { g with
      dualRegistry := none, descriptors := g.descriptors.releaseAll reg.memfds
      regions := g.regions.releaseAll reg.regions } := by
    rw [Globals.resetRegistry,h.dualRegistry]
  rw [heq]
  refine ⟨rfl,?_,?_⟩
  · exact Ledger.Holds.releaseAll (by simpa using h.descriptors)
  · exact Ledger.Holds.releaseAll (by simpa using h.regions)

theorem Released.reset {g : Globals} (h : Released g) : g.resetRegistry = g := by
  rw [Globals.resetRegistry,h.dualRegistry]

theorem Keeps.registry {g : Globals} {reg : SharedMemoryRegistry} {extra : List Nat}
    (h : Keeps g reg extra) (r : RegistryType) : g.registry r = reg.get r := by
  rw [Globals.registry,h.dualRegistry,Option.getD_some]

section Registry
variable {reg : SharedMemoryRegistry} {r : RegistryType} {x : SingleRegistry}

theorem SharedMemoryRegistry.get_set : (reg.set x r).get r = x := by
  cases r <;> rfl

theorem SharedMemoryRegistry.set_set (y : SingleRegistry) :
    (reg.set x r).set y r = reg.set y r := by
  cases r <;> rfl

theorem SharedMemoryRegistry.Before.get_eq (h : reg.Before r) : reg.get r = .new := by
  cases r with
  | QM => rw [h]; rfl
  | ASIL => exact h.2

theorem SharedMemoryRegistry.Before.memfds_set (h : reg.Before r) (x : SingleRegistry) :
    (reg.set x r).memfds = x.memfd.toList++reg.memfds := by
  cases r with
  | QM =>
    obtain rfl : reg = .new := h
    simp [SharedMemoryRegistry.memfds,SharedMemoryRegistry.set,SharedMemoryRegistry.new,
      SingleRegistry.new]
  | ASIL =>
    obtain ⟨q,a⟩ := reg
    obtain ⟨-,rfl⟩ := h
    rfl

theorem SharedMemoryRegistry.Before.regions_set (h : reg.Before r) (x : SingleRegistry) :
    (reg.set x r).regions = x.slots.toList++reg.regions := by
  cases r with
  | QM =>
    obtain rfl : reg = .new := h
    simp [SharedMemoryRegistry.regions,SharedMemoryRegistry.set,SharedMemoryRegistry.new,
      SingleRegistry.new]
  | ASIL =>
    obtain ⟨q,a⟩ := reg
    obtain ⟨-,rfl⟩ := h
    rfl

end Registry

section Advance
variable {g g' : Globals} {p' : Phase} {reg : SharedMemoryRegistry} {r : RegistryType}
  {extra : List Nat}

theorem Building.change (h : Building g reg extra) {reg' : SharedMemoryRegistry}
    {extra' : List Nat} (hkeeps : Keeps g' reg' extra')
    (hinitialized : g'.initialized = g.initialized)
    (hrunning : g'.heartbeatRunning = g.heartbeatRunning)
    (hthread : g'.heartbeatThread = g.heartbeatThread) (hworkers : g'.workers = g.workers) :
    Building g' reg' extra' := by
  refine ⟨hinitialized.trans h.initialized,hkeeps,⟨hrunning.trans h.quiet.running,
    hthread.trans h.quiet.thread,fun w => ?_⟩⟩
  rw [hworkers]
  exact h.quiet.workers w

theorem Building.opened (h : Building g reg extra) :
    Building g.openDescriptor reg (g.descriptors.acquired :: extra) :=
  h.change ⟨h.keeps.dualRegistry,h.keeps.descriptors.acquire,h.keeps.regions⟩ rfl rfl rfl rfl

theorem Building.closed {fd : Nat} (h : Building g reg (fd :: extra)) :
    Building (g.closeDescriptor fd) reg extra :=
  h.change ⟨h.keeps.dualRegistry,h.keeps.descriptors.release,h.keeps.regions⟩ rfl rfl rfl rfl

theorem Keeps.setRegistry (h : Keeps g reg extra) (x : SingleRegistry) (r : RegistryType) :
    (g.setRegistry r x).dualRegistry = some (reg.set x r) := by
  rw [Globals.setRegistry,h.dualRegistry,Option.map_some]

theorem Building.setMemfd {fd : Nat} (h : Building g reg [fd]) (hbefore : reg.Before r) :
    Building (g.setRegistry r { g.registry r with memfd := some fd })
      (reg.set ⟨some fd,none⟩ r) [] := by
  have hnew : g.registry r = .new := (h.keeps.registry r).trans hbefore.get_eq
  rw [hnew]
  refine h.change ⟨h.keeps.setRegistry _ r,?_,?_⟩ rfl rfl rfl rfl
  · rw [hbefore.memfds_set]
    exact h.keeps.descriptors
  · rw [hbefore.regions_set]
    exact h.keeps.regions

theorem Building.map {fd : Nat} (h : Building g (reg.set ⟨some fd,none⟩ r) [])
    (hbefore : reg.Before r) :
    Building { g.setRegistry r { g.registry r with slots := some g.regions.acquired } with
      regions := g.regions.acquire } (reg.set ⟨some fd,some g.regions.acquired⟩ r) [] := by
  have hdescriptors := h.keeps.descriptors
  have hregions := h.keeps.regions.acquire
  have hset := h.keeps.setRegistry ⟨some fd,some g.regions.acquired⟩ r
  rw [hbefore.memfds_set] at hdescriptors
  rw [hbefore.regions_set] at hregions
  rw [SharedMemoryRegistry.set_set] at hset
  rw [h.keeps.registry r,SharedMemoryRegistry.get_set]
  refine h.change ⟨hset,?_,?_⟩ rfl rfl rfl rfl
  · rw [hbefore.memfds_set]
    exact hdescriptors
  · rw [hbefore.regions_set]
    exact hregions

theorem Building.unmapped {fd : Nat} (h : Building g (reg.set ⟨some fd,none⟩ r) [])
    (hbefore : reg.Before r) :
    Building { g.setRegistry r { g.registry r with memfd := none } with
      descriptors := g.descriptors.releaseAll (g.registry r).memfd.toList }
      (reg.set ⟨none,none⟩ r) [] := by
  have hdescriptors := h.keeps.descriptors
  have hregions := h.keeps.regions
  have hset := h.keeps.setRegistry ⟨none,none⟩ r
  rw [hbefore.memfds_set] at hdescriptors
  rw [hbefore.regions_set] at hregions
  rw [SharedMemoryRegistry.set_set] at hset
  rw [h.keeps.registry r,SharedMemoryRegistry.get_set]
  refine h.change ⟨hset,?_,?_⟩ rfl rfl rfl rfl
  · have hall : g.descriptors.Holds ([fd]++reg.memfds) := hdescriptors
    rw [hbefore.memfds_set]
    exact hall.releaseAll
  · rw [hbefore.regions_set]
    exact hregions

theorem Building.next {x : SingleRegistry} (h : Building g (reg.set x r) [])
    (hbefore : reg.Before r) (hx : x.Full) : At g (.next r) := by
  cases r with
  | QM =>
    obtain rfl : reg = .new := hbefore
    exact ⟨_,⟨hx,rfl⟩,h⟩
  | ASIL => exact ⟨reg.set x .ASIL,⟨hbefore.1,hx⟩,h⟩

theorem Down.create (h : Down g) :
    Building { g.resetRegistry with dualRegistry := some .new } .new [] := by
  rw [h.released.reset]
  exact ⟨h.initialized,⟨rfl,h.released.descriptors,h.released.regions⟩,
    ⟨h.quiet.running,h.quiet.thread,h.quiet.workers⟩⟩

theorem resetRegistry_initialized (g : Globals) :
    g.resetRegistry.initialized = g.initialized := by
  rw [Globals.resetRegistry]
  cases g.dualRegistry with
  | none => rfl
  | some reg => rfl

theorem Quiet.reset (h : Quiet g) : Quiet g.resetRegistry := by
  rw [Globals.resetRegistry]
  cases g.dualRegistry with
  | none => exact h
  | some reg => exact ⟨h.running,h.thread,h.workers⟩

theorem Building.abandon (h : Building g reg []) : Down g.resetRegistry :=
  ⟨(resetRegistry_initialized g).trans h.initialized,h.keeps.reset,h.quiet.reset⟩

theorem At.check_initialize {ok : Bool} (h : Up g ∨ Down g)
    (hstep : advance g ok (.check .initializeRuntime) = some (g',p')) : At g' p' := by
  simp only [advance] at hstep
  rcases h with hup | hdown
  · rw [if_pos hup.initialized] at hstep
    cases hstep
    exact .refused hup
  · rw [if_neg (by simp [hdown.initialized])] at hstep
    cases hstep
    exact hdown

theorem At.check_deinitialize {ok : Bool} (h : Up g ∨ Down g)
    (hstep : advance g ok (.check .deinitializeRuntime) = some (g',p')) : At g' p' := by
  simp only [advance] at hstep
  rcases h with hup | hdown
  · rw [if_neg (by simp [hup.initialized])] at hstep
    cases hstep
    exact hup
  · rw [if_pos hdown.initialized] at hstep
    cases hstep
    exact .absent hdown

theorem At.advance_startThread {ok : Bool} (h : At g .startThread)
    (hstep : Lifecycle.advance g ok .startThread = some (g',p')) : At g' p' := by
  obtain ⟨hinitialized,⟨reg,hfull,hkeeps⟩,hrunning,-,hworkers⟩ := h
  cases hstep
  refine ⟨hinitialized,⟨reg,hfull,hkeeps.1,hkeeps.2,hkeeps.3⟩,hrunning,_,rfl,fun v => ?_⟩
  by_cases hv : v = g.spawned
  · simp [hv]
  · simp [hv,hworkers v]

theorem At.advance_join {ok : Bool} (h : At g .join)
    (hstep : Lifecycle.advance g ok .join = some (g',p')) : At g' p' := by
  obtain ⟨hinitialized,⟨reg,hfull,hkeeps⟩,hrunning,w,hthread,hworkers⟩ := h
  simp only [Lifecycle.advance,hthread] at hstep
  cases hw : g.workers w with
  | true =>
    rw [hw] at hstep
    cases hstep
  | false =>
    rw [hw] at hstep
    cases hstep
    refine ⟨hinitialized,⟨reg,hfull,hkeeps.1,hkeeps.2,hkeeps.3⟩,hrunning,rfl,fun v => ?_⟩
    by_contra hv
    rw [Bool.not_eq_false] at hv
    have hvw : v = w := hworkers v hv
    rw [hvw,hw] at hv
    cases hv

theorem At.advance {p : Phase} {ok : Bool} (h : At g p)
    (hstep : Lifecycle.advance g ok p = some (g',p')) : At g' p' := by
  cases p with
  | idle => cases h
  | entered op => cases h
  | returning op r => cases hstep
  | check op =>
    cases op with
    | initializeRuntime => exact At.check_initialize h hstep
    | deinitializeRuntime => exact At.check_deinitialize h hstep
  | create =>
    cases hstep
    exact ⟨.new,rfl,h.create⟩
  | socket r =>
    obtain ⟨reg,hbefore,hbuilding⟩ := h
    have hnew : g.registry r = .new := (hbuilding.keeps.registry r).trans hbefore.get_eq
    simp only [Lifecycle.advance,hnew] at hstep
    cases ok with
    | true =>
      cases hstep
      exact ⟨reg,hbefore,hbuilding.opened⟩
    | false =>
      cases hstep
      exact ⟨reg,hbuilding⟩
  | connect r sock =>
    obtain ⟨reg,hbefore,hbuilding⟩ := h
    cases ok with
    | true =>
      cases hstep
      exact ⟨reg,hbefore,hbuilding⟩
    | false =>
      cases hstep
      exact ⟨reg,hbuilding.closed⟩
  | receive r sock =>
    obtain ⟨reg,hbefore,hbuilding⟩ := h
    cases ok with
    | true =>
      cases hstep
      refine ⟨reg,hbefore,hbuilding.opened.change ⟨hbuilding.opened.keeps.dualRegistry,?_,
        hbuilding.opened.keeps.regions⟩ rfl rfl rfl rfl⟩
      exact hbuilding.opened.keeps.descriptors.perm (.swap _ _ _)
    | false =>
      cases hstep
      exact ⟨reg,hbefore,hbuilding⟩
  | closeSocket r sock memfd =>
    obtain ⟨reg,hbefore,hbuilding⟩ := h
    cases memfd with
    | none =>
      cases hstep
      exact ⟨reg,hbuilding.closed⟩
    | some fd =>
      cases hstep
      exact ⟨reg,fd,hbefore,hbuilding.closed.setMemfd hbefore⟩
  | map r =>
    obtain ⟨reg,fd,hbefore,hbuilding⟩ := h
    cases ok with
    | true =>
      cases hstep
      exact (hbuilding.map hbefore).next hbefore ⟨rfl,rfl⟩
    | false =>
      cases hstep
      exact ⟨_,hbuilding.unmapped hbefore⟩
  | abandon =>
    obtain ⟨reg,hbuilding⟩ := h
    cases hstep
    exact .failed hbuilding.abandon
  | setRunning =>
    obtain ⟨reg,hfull,hbuilding⟩ := h
    cases hstep
    exact ⟨hbuilding.initialized,⟨reg,hfull,hbuilding.keeps.1,hbuilding.keeps.2,hbuilding.keeps.3⟩,
      rfl,hbuilding.quiet.thread,hbuilding.quiet.workers⟩
  | startThread => exact At.advance_startThread h hstep
  | publish =>
    obtain ⟨-,⟨reg,hfull,hkeeps⟩,hbeating⟩ := h
    cases hstep
    exact .started ⟨rfl,⟨reg,hfull,hkeeps.1,hkeeps.2,hkeeps.3⟩,⟨hbeating.1,hbeating.2⟩⟩
  | stop =>
    obtain ⟨hinitialized,⟨reg,hfull,hkeeps⟩,⟨hrunning,w,hthread,hworkers⟩⟩ := h
    simp only [Lifecycle.advance,hthread,hrunning] at hstep
    cases hstep
    exact ⟨hinitialized,⟨reg,hfull,hkeeps.1,hkeeps.2,hkeeps.3⟩,rfl,w,rfl,
      fun v => (hworkers v).mp⟩
  | join => exact At.advance_join h hstep
  | resetRegistry =>
    obtain ⟨hinitialized,⟨reg,-,hkeeps⟩,hquiet⟩ := h
    cases hstep
    exact ⟨(resetRegistry_initialized g).trans hinitialized,hkeeps.reset,hquiet.reset⟩
  | unpublish =>
    obtain ⟨-,hreleased,hquiet⟩ := h
    cases hstep
    exact .stopped ⟨rfl,⟨hreleased.1,hreleased.2,hreleased.3⟩,⟨hquiet.1,hquiet.2,hquiet.3⟩⟩

theorem Globals.worker_eq {w : Nat} (h : g.heartbeatRunning = true ∨ g.workers w = false) :
    g.worker w = g := by
  rw [worker]
  split_ifs with hrunning
  · rfl
  · rcases h with h | h
    · exact absurd h hrunning
    · rw [← h,Function.update_eq_self]

theorem Up.still (h : Up g) (w : Nat) : g.heartbeatRunning = true ∨ g.workers w = false :=
  .inl h.beating.running

theorem Down.still (h : Down g) (w : Nat) : g.heartbeatRunning = true ∨ g.workers w = false :=
  .inr (h.quiet.workers w)

/-- A heartbeat thread that is told to stop is one that `Deinitialize` waits for. -/
theorem At.still {p : Phase} (h : At g p) (hjoin : p ≠ .join) (w : Nat) :
    g.heartbeatRunning = true ∨ g.workers w = false := by
  cases p with
  | idle => cases h
  | entered op => cases h
  | check op => exact h.elim (fun h => h.still w) fun h => h.still w
  | create => exact Down.still h w
  | socket r | connect r sock | receive r sock | closeSocket r sock memfd =>
    obtain ⟨reg,-,h⟩ := h
    exact .inr (h.quiet.workers w)
  | map r =>
    obtain ⟨reg,fd,-,h⟩ := h
    exact .inr (h.quiet.workers w)
  | abandon =>
    obtain ⟨reg,h⟩ := h
    exact .inr (h.quiet.workers w)
  | setRunning =>
    obtain ⟨reg,-,h⟩ := h
    exact .inr (h.quiet.workers w)
  | startThread => exact .inl h.2.2.1
  | publish => exact .inl h.2.2.running
  | stop => exact Up.still h w
  | join => exact absurd rfl hjoin
  | resetRegistry => exact .inr (h.2.2.workers w)
  | unpublish => exact .inr (h.2.2.workers w)
  | returning op r =>
    cases h with
    | started h | refused h => exact h.still w
    | failed h | stopped h | absent h => exact h.still w

theorem At.worker {p : Phase} (h : At g p) (w : Nat) : At (g.worker w) p := by
  by_cases hjoin : p = .join
  · subst hjoin
    obtain ⟨hinitialized,⟨reg,hfull,hkeeps⟩,hrunning,w',hthread,hworkers⟩ := h
    rw [Globals.worker,if_neg (by simp [hrunning])]
    refine ⟨hinitialized,⟨reg,hfull,hkeeps.1,hkeeps.2,hkeeps.3⟩,hrunning,w',hthread,
      fun v hv => ?_⟩
    by_cases hvw : v = w
    · subst hvw
      simp at hv
    · exact hworkers v (by simpa [hvw] using hv)
  · rw [Globals.worker_eq (h.still hjoin w)]
    exact h

end Advance

def Settled (g : Globals) : Prop := Up g ∨ Down g

theorem Leaves.settled {op : Op} {r : Result Unit} {g : Globals} (h : Leaves op r g) :
    Settled g := by
  cases h with
  | started h | refused h => exact .inl h
  | failed h | stopped h | absent h => exact .inr h

def Phase.Inside : Phase → Prop
  | .idle => False
  | .entered _ => False
  | _ => True

/-- The holder of the mutex is the one thread inside of a call. -/
structure Locked (s : System) : Prop where
  inside : ∀ t, (s.phase t).Inside → s.mutex = some t
  free : s.mutex = none → Settled s.globals
  held : ∀ t, s.mutex = some t → At s.globals (s.phase t)

theorem Locked.initial : Locked .initial := by
  refine ⟨fun t ht => ht.elim,fun _ => .inr ⟨rfl,⟨rfl,.initial,.initial⟩,rfl,rfl,fun _ => rfl⟩,?_⟩
  rintro t ⟨⟩

theorem At.inside {g : Globals} {p : Phase} (h : At g p) : p.Inside := by
  cases p with
  | idle | entered op => cases h
  | _ => trivial

namespace Locked
variable {s : System}

theorem proceed (h : Locked s) {t : Nat} (hmutex : s.mutex = some t) {g : Globals} {p : Phase}
    (hat : At g p) :
    Locked { s with globals := g, phase := Function.update s.phase t p } := by
  refine ⟨fun t' ht' => ?_,fun hnone => ?_,fun t' ht' => ?_⟩
  · by_cases ht : t' = t
    · rw [ht]
      exact hmutex
    · simp only [Function.update_of_ne ht] at ht'
      exact h.inside t' ht'
  · have hnone' : s.mutex = none := hnone
    rw [hmutex] at hnone'
    cases hnone'
  · have ht' : s.mutex = some t' := ht'
    obtain rfl := Option.some.inj (hmutex.symm.trans ht')
    simpa using hat

theorem acquire (h : Locked s) {t : Nat} {op : Op} (hmutex : s.mutex = none) :
    Locked { s with mutex := some t, phase := Function.update s.phase t (.check op) } := by
  refine ⟨fun t' ht' => ?_,by simp,fun t' ht' => ?_⟩
  · by_cases ht : t' = t
    · rw [ht]
    · simp only [Function.update_of_ne ht] at ht'
      have hother := h.inside t' ht'
      rw [hmutex] at hother
      cases hother
  · obtain rfl : t = t' := Option.some.inj ht'
    have hat : At s.globals (.check op) := h.free hmutex
    simpa using hat

theorem leave (h : Locked s) {t : Nat} {op : Op} {r : Result Unit}
    (hphase : s.phase t = .returning op r) :
    Locked { s with mutex := none, phase := Function.update s.phase t .idle } := by
  have hmutex : s.mutex = some t := h.inside t (by rw [hphase]; trivial)
  have hat := h.held t hmutex
  rw [hphase] at hat
  refine ⟨fun t' ht' => ?_,fun _ => hat.settled,by simp⟩
  by_cases ht : t' = t
  · subst ht
    simp only [Function.update_self] at ht'
    exact ht'.elim
  · simp only [Function.update_of_ne ht] at ht'
    have hother := h.inside t' ht'
    rw [hmutex] at hother
    exact absurd (Option.some.inj hother).symm ht

theorem enter (h : Locked s) {t : Nat} (hphase : s.phase t = .idle) (op : Op) :
    Locked { s with phase := Function.update s.phase t (.entered op) } := by
  refine ⟨fun t' ht' => ?_,h.free,fun t' ht' => ?_⟩
  · by_cases ht : t' = t
    · subst ht
      simp only [Function.update_self] at ht'
      exact ht'.elim
    · simp only [Function.update_of_ne ht] at ht'
      exact h.inside t' ht'
  · have hat := h.held t' ht'
    by_cases ht : t' = t
    · subst ht
      rw [hphase] at hat
      exact hat.elim
    · simpa [ht] using hat

theorem step (h : Locked s) (e : Event) : Locked (Lifecycle.step s e) := by
  cases e with
  | call t op =>
    rw [Lifecycle.step]
    split
    · next hphase => exact h.enter hphase op
    · exact h
  | run t ok =>
    rw [Lifecycle.step]
    split
    · next op hphase =>
      cases hmutex : s.mutex with
      | none => exact h.acquire hmutex
      | some t' => exact h
    · next op r hphase => exact h.leave hphase
    · next p _ _ =>
      cases hstep : advance s.globals ok (s.phase t) with
      | none => exact h
      | some next =>
        have hinside : (s.phase t).Inside := by
          cases hp : s.phase t with
          | idle =>
            rw [hp] at hstep
            cases hstep
          | entered op =>
            rw [hp] at hstep
            cases hstep
          | _ => trivial
        have hmutex := h.inside t hinside
        exact h.proceed hmutex ((h.held t hmutex).advance hstep)
  | worker w =>
    refine ⟨h.inside,fun hmutex => ?_,fun t ht => (h.held t ht).worker w⟩
    rcases h.free hmutex with hup | hdown
    · have heq : (Lifecycle.step s (.worker w)).globals = s.globals :=
        Globals.worker_eq (hup.still w)
      rw [heq]
      exact .inl hup
    · have heq : (Lifecycle.step s (.worker w)).globals = s.globals :=
        Globals.worker_eq (hdown.still w)
      rw [heq]
      exact .inr hdown

end Locked

theorem systemAt_locked (σ : Nat → Event) (k : Nat) : Locked (systemAt σ k) :=
  stateAt_invariant (I := Locked) (C := fun _ _ => True) .initial (fun _ _ => trivial)
    (fun _ e h _ => h.step e) k (Nat.le_refl k)

def Globals.Mapped (g : Globals) : Prop :=
  ∃ reg, g.dualRegistry = some reg ∧ reg.qmRegistry.slots.isSome ∧ reg.asilRegistry.slots.isSome

def Globals.Beats (g : Globals) : Prop := (∃! w, g.workers w = true) ∧ g.heartbeatRunning = true

def Globals.memfds (g : Globals) : List Nat := (g.dualRegistry.map (·.memfds)).getD []

def Globals.mapped (g : Globals) : List Nat := (g.dualRegistry.map (·.regions)).getD []

/-- Everything is false, and whatever was received or mapped has been released once. -/
structure AllDown (g : Globals) : Prop where
  initialized : g.initialized = false
  dualRegistry : g.dualRegistry = none
  running : g.heartbeatRunning = false
  workers : ∀ w, g.workers w = false
  descriptors : ∀ x, x < g.descriptors.acquired → g.descriptors.releases x = 1
  regions : ∀ x, x < g.regions.acquired → g.regions.releases x = 1

/-- What the globals say while nobody holds the mutex. Only what the registry of an initialised
runtime holds has not been released. -/
structure Consistent (g : Globals) : Prop where
  mapped : g.initialized = true ↔ g.Mapped
  beats : g.initialized = true ↔ g.Beats
  down : g.initialized = false → AllDown g
  descriptors : g.descriptors.Holds g.memfds
  regions : g.regions.Holds g.mapped

theorem Down.allDown {g : Globals} (h : Down g) : AllDown g :=
  ⟨h.initialized,h.released.dualRegistry,h.quiet.running,h.quiet.workers,
    fun x hx => h.released.descriptors.released x hx (by simp),
    fun x hx => h.released.regions.released x hx (by simp)⟩

theorem Up.consistent {g : Globals} (h : Up g) : Consistent g := by
  obtain ⟨hinitialized,⟨reg,hfull,hkeeps⟩,hrunning,w,-,hworkers⟩ := h
  have hmapped : g.Mapped := ⟨reg,hkeeps.dualRegistry,hfull.1.2,hfull.2.2⟩
  have hbeats : g.Beats := ⟨⟨w,(hworkers w).mpr rfl,fun v => (hworkers v).mp⟩,hrunning⟩
  refine ⟨iff_of_true hinitialized hmapped,iff_of_true hinitialized hbeats,?_,?_,?_⟩
  · intro hdown
    rw [hinitialized] at hdown
    cases hdown
  · rw [Globals.memfds,hkeeps.dualRegistry]
    exact hkeeps.descriptors
  · rw [Globals.mapped,hkeeps.dualRegistry]
    exact hkeeps.regions

theorem Down.consistent {g : Globals} (h : Down g) : Consistent g := by
  have hfalse : ¬ g.initialized = true := by simp [h.initialized]
  refine ⟨iff_of_false hfalse ?_,iff_of_false hfalse ?_,fun _ => h.allDown,?_,?_⟩
  · rintro ⟨reg,hreg,-⟩
    rw [h.released.dualRegistry] at hreg
    cases hreg
  · rintro ⟨-,hrunning⟩
    rw [h.quiet.running] at hrunning
    cases hrunning
  · rw [Globals.memfds,h.released.dualRegistry]
    exact h.released.descriptors
  · rw [Globals.mapped,h.released.dualRegistry]
    exact h.released.regions

theorem Settled.consistent {g : Globals} (h : Settled g) : Consistent g :=
  h.elim Up.consistent Down.consistent

/-- What a call has done when it returns. `Initialize` refuses a runtime that is initialised. -/
def Returned (g : Globals) : Op → Result Unit → Prop
  | .initializeRuntime, .ok () => g.initialized = true
  | .initializeRuntime, .error e =>
    (e.code = .kInvalidState ∧ g.initialized = true) ∨ (e.code ≠ .kInvalidState ∧ AllDown g)
  | .deinitializeRuntime, _ => AllDown g

theorem Leaves.returned {op : Op} {r : Result Unit} {g : Globals} (h : Leaves op r g) :
    Returned g op r := by
  cases h with
  | started h => exact h.initialized
  | refused h => exact .inl ⟨rfl,h.initialized⟩
  | failed h => exact .inr ⟨by simp,h.allDown⟩
  | stopped h | absent h => exact h.allDown

structure Once (g : Globals) : Prop where
  descriptors : ∀ x, g.descriptors.releases x ≤ 1
  regions : ∀ x, g.regions.releases x ≤ 1

theorem Keeps.once {g : Globals} {reg : SharedMemoryRegistry} {extra : List Nat}
    (h : Keeps g reg extra) : Once g := ⟨h.descriptors.once,h.regions.once⟩

theorem Settled.once {g : Globals} (h : Settled g) : Once g :=
  ⟨h.consistent.descriptors.once,h.consistent.regions.once⟩

theorem At.once {g : Globals} {p : Phase} (h : At g p) : Once g := by
  cases p with
  | idle | entered op => cases h
  | check op => exact Settled.once h
  | create => exact Settled.once (.inr h)
  | socket r | connect r sock | receive r sock | closeSocket r sock memfd | setRunning =>
    obtain ⟨reg,-,h⟩ := h
    exact h.keeps.once
  | map r =>
    obtain ⟨reg,fd,-,h⟩ := h
    exact h.keeps.once
  | abandon =>
    obtain ⟨reg,h⟩ := h
    exact h.keeps.once
  | startThread | publish | join | resetRegistry =>
    obtain ⟨-,⟨reg,-,hkeeps⟩,-⟩ := h
    exact hkeeps.once
  | stop => exact Settled.once (.inl h)
  | unpublish => exact ⟨h.2.1.descriptors.once,h.2.1.regions.once⟩
  | returning op r => exact (Leaves.settled h).once

theorem Locked.once {s : System} (h : Locked s) : Once s.globals := by
  cases hmutex : s.mutex with
  | none => exact (h.free hmutex).once
  | some t => exact (h.held t hmutex).once

/-- While nobody holds the mutex the runtime is initialised just if both registries are mapped,
and just if there is one heartbeat thread, which runs; and every call leaves it so, with
everything released exactly once that an initialised registry does not hold. -/
theorem runtime_lifecycle (σ : Nat → Event) (k : Nat) :
    ((systemAt σ k).mutex = none → Consistent (systemAt σ k).globals) ∧
    (∀ t ok op r, σ k = .run t ok → (systemAt σ k).phase t = .returning op r →
      Returned (systemAt σ (k+1)).globals op r) ∧
    Once (systemAt σ k).globals := by
  have hlocked := systemAt_locked σ k
  refine ⟨fun hmutex => (hlocked.free hmutex).consistent,fun t ok op r he hphase => ?_,
    hlocked.once⟩
  have hmutex := hlocked.inside t (by rw [hphase]; trivial)
  have hleaves := hlocked.held t hmutex
  rw [hphase] at hleaves
  have hglobals : (systemAt σ (k+1)).globals = (systemAt σ k).globals := by
    rw [systemAt,stateAt_succ,he]
    simp only [step,hphase]
  rw [hglobals]
  exact hleaves.returned

def initializeTwice : Nat → Event :=
  schedule (.call 0 .initializeRuntime :: (List.replicate 17 (.run 0 true)++
    [.call 1 .initializeRuntime])) (.run 1 true)

/-- The second call fails, and the runtime stays initialised. -/
theorem refused_initialized : ¬ ∀ (σ : Nat → Event) (k t : Nat) (ok : Bool) (e : ErrorCode),
    σ k = .run t ok → (systemAt σ k).phase t = .returning .initializeRuntime (.error e) →
      AllDown (systemAt σ (k+1)).globals := by
  intro h
  have hdown := h initializeTwice 21 1 true ⟨.kInvalidState,0⟩ rfl rfl
  have hup : (systemAt initializeTwice 22).globals.initialized = true := rfl
  rw [hdown.initialized] at hup
  cases hup

end LapCom.Lifecycle
