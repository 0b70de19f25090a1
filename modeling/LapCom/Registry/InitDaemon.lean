import LapCom.Registry.ServeLoop
import LapCom.Registry.SharedMemory

set_option autoImplicit false

/-! The process `lap-registry-init`: its `main` and the handler of its signals. -/

namespace LapCom.InitDaemon
open LapCom.Initializer LapCom.Machine LapCom.Registry

inductive Signal where
  | sigint
  | sigterm
  deriving DecidableEq

structure Config where
  type : RegistryType
  socketPath : String

def Config.new : Config := ⟨.QM,"/run/lap/registry_qm.sock"⟩

/-- `none` where `main` returns at once. -/
def parseArgs (config : Config) : List String → Option Config
  | [] => some config
  | arg :: args =>
    if arg.startsWith "--type=" then
      if (arg.drop 7).copy = "qm" then parseArgs { config with type := .QM } args
      else if (arg.drop 7).copy = "asil" then parseArgs { config with type := .ASIL } args
      else none
    else if arg.startsWith "--socket=" then
      parseArgs { config with socketPath := (arg.drop 9).copy } args
    else none

inductive Exit where
  | success
  | failure
  deriving DecidableEq

/-- What `main` does next. After its return the handlers of the signals stay. -/
inductive Pc where
  | parseArgs
  | handleSigint
  | handleSigterm
  | construct
  | publish
  | initializeRegistry
  | createSocket
  | serve
  | clear
  | destroy (exit : Exit)
  | returned (exit : Exit)
  | killed
  deriving DecidableEq

/-- `initializer` tells whether `g_initializer` points to the object, and `dangling` whether the
handler has called `Shutdown` of an object that was destroyed. -/
structure Process where
  pc : Pc
  handled : Signal → Bool
  shutdown : Bool
  initializer : Bool
  dangling : Bool
  system : System

def Process.initial : Process := ⟨.parseArgs,fun _ => false,false,false,false,.initial⟩

inductive Event where
  | main (memfd : MemfdCalls) (socket : SocketCalls) (outcome : Outcome)
  | signal (s : Signal)
  deriving DecidableEq

def Event.isMain : Event → Bool
  | .main _ _ _ => true
  | .signal _ => false

namespace Process

def main (args : List String) (p : Process) (memfd : MemfdCalls) (socket : SocketCalls)
    (outcome : Outcome) : Process :=
  match p.pc with
  | .parseArgs =>
    match InitDaemon.parseArgs .new args with
    | some _ => { p with pc := .handleSigint }
    | none => { p with pc := .returned .failure }
  | .handleSigint =>
    { p with pc := .handleSigterm, handled := Function.update p.handled .sigint true }
  | .handleSigterm =>
    { p with pc := .construct, handled := Function.update p.handled .sigterm true }
  | .construct => { p with pc := .publish }
  | .publish => { p with pc := .initializeRegistry, initializer := true }
  | .initializeRegistry =>
    { p with
      pc := match (p.system.daemon.server.initializeRegistry p.system.kernel memfd).1 with
        | .ok _ => .createSocket
        | .error _ => .destroy .failure
      system := Initializer.step p.system (.initializeRegistry memfd) }
  | .createSocket =>
    { p with
      pc := match (p.system.daemon.server.createSocket p.system.kernel socket).1 with
        | .ok _ => .serve
        | .error _ => .destroy .failure
      system := Initializer.step p.system (.run socket) }
  | .serve =>
    let s := Initializer.step p.system (.serve outcome)
    { p with pc := if s.daemon.phase = .idle then .clear else .serve, system := s }
  | .clear => { p with pc := .destroy .success, initializer := false }
  | .destroy exit =>
    { p with pc := .returned exit, system := Initializer.step p.system .destroy }
  | .returned _ => p
  | .killed => p

/-- The whole of `Shutdown`: the handler interrupts the thread of `main`. -/
def shutdownInitializer (s : System) : System :=
  ⟨{ s.daemon with server := (s.daemon.server.shutdown s.kernel).1 },
    (s.daemon.server.shutdown s.kernel).2⟩

def signalHandler (p : Process) : Process :=
  { p with
    shutdown := true
    dangling := p.dangling || (p.initializer && decide (p.system.daemon.phase = .destroyed))
    system := if p.initializer then shutdownInitializer p.system else p.system }

/-- A signal without a handler ends the process. -/
def signal (p : Process) (s : Signal) : Process :=
  if p.pc = .killed then p
  else if p.handled s then p.signalHandler
  else { p with pc := .killed }

end Process

def step (args : List String) (p : Process) : Event → Process
  | .main memfd socket outcome => p.main args memfd socket outcome
  | .signal s => p.signal s

abbrev processAt (args : List String) (σ : Nat → Event) (k : Nat) : Process :=
  stateAt (step args) .initial σ k

def Pc.Allows : Pc → Phase → Prop
  | .serve, phase => phase = .store ∨ phase.Looping
  | .returned _, phase => phase = .idle ∨ phase = .destroyed
  | _, phase => phase = .idle

def Pc.Installed : Pc → Prop
  | .parseArgs | .handleSigint | .handleSigterm | .returned _ | .killed => False
  | _ => True

def Pc.HasInitializer : Pc → Prop
  | .initializeRegistry | .createSocket | .serve | .clear | .destroy .failure => True
  | _ => False

structure Matched (p : Process) : Prop where
  consistent : Consistent p.system
  phase : p.pc.Allows p.system.daemon.phase
  sigint : p.pc = .handleSigterm → p.handled .sigint = true
  installed : p.pc.Installed ∨ p.system.daemon.phase = .destroyed → ∀ s, p.handled s = true
  initializer : p.pc.HasInitializer → p.initializer = true
  failed : p.pc = .returned .failure → p.system.daemon.phase = .destroyed → p.initializer = true
  finished : p.pc = .destroy .success ∨ p.pc = .returned .success → p.initializer = false

section Steps
variable {args : List String} {p : Process}

theorem initializeRegistry_phase {s : System} (h : s.daemon.phase = .idle) (calls : MemfdCalls) :
    (Initializer.step s (.initializeRegistry calls)).daemon.phase = .idle := by
  simp [Initializer.step,Daemon.step,h]

theorem run_phase {s : System} (h : s.daemon.phase = .idle) (calls : SocketCalls) :
    (Initializer.step s (.run calls)).daemon.phase =
      match (s.daemon.server.createSocket s.kernel calls).1 with
      | .ok _ => .store
      | .error _ => .idle := by
  simp only [Initializer.step,Daemon.step,if_pos h]
  rcases createSocket_cases s.daemon.server s.kernel calls with ⟨e,heq⟩ | ⟨e,heq⟩ | heq
  · rw [heq]
    exact h
  · rw [heq]
    exact h
  · rw [heq]

theorem destroy_phase {s : System} (h : s.daemon.phase = .idle) :
    (Initializer.step s .destroy).daemon.phase = .destroyed := by
  simp [Initializer.step,Daemon.step,h]

theorem store_phase {s : System} (h : s.daemon.phase = .store) (outcome : Outcome) :
    (Initializer.step s (.serve outcome)).daemon.phase = .test := by
  simp [Initializer.step,Daemon.step,Daemon.serve,h]

theorem matched_of_idle (hconsistent : Consistent p.system)
    (hidle : p.system.daemon.phase = .idle) (hphase : p.pc.Allows .idle)
    (hsigint : p.pc = .handleSigterm → p.handled .sigint = true)
    (hinstalled : p.pc.Installed → ∀ s, p.handled s = true)
    (hinitializer : p.pc.HasInitializer → p.initializer = true)
    (hfinished : p.pc = .destroy .success ∨ p.pc = .returned .success → p.initializer = false) :
    Matched p := by
  have hdestroyed : ¬ p.system.daemon.phase = .destroyed := by simp [hidle]
  exact ⟨hconsistent,hidle ▸ hphase,hsigint,fun h => hinstalled (h.resolve_right hdestroyed),
    hinitializer,fun _ h => absurd h hdestroyed,hfinished⟩

theorem Matched.main (h : Matched p) (memfd : MemfdCalls) (socket : SocketCalls)
    (outcome : Outcome) : Matched (p.main args memfd socket outcome) := by
  have hsteps := h.consistent.step
  obtain ⟨pc,handled,flag,initializer,dangling,system⟩ := p
  cases pc with
  | parseArgs =>
    simp only [Process.main]
    cases parseArgs .new args with
    | some config =>
      exact matched_of_idle h.consistent h.phase rfl (by simp) (by simp [Pc.Installed])
        (by simp [Pc.HasInitializer]) (by simp)
    | none =>
      exact matched_of_idle h.consistent h.phase (.inl rfl) (by simp) (by simp [Pc.Installed])
        (by simp [Pc.HasInitializer]) (by simp)
  | handleSigint =>
    simp only [Process.main]
    exact matched_of_idle h.consistent h.phase rfl (by simp) (by simp [Pc.Installed])
      (by simp [Pc.HasInitializer]) (by simp)
  | handleSigterm =>
    have hsigint : handled .sigint = true := h.sigint rfl
    simp only [Process.main]
    refine matched_of_idle h.consistent h.phase rfl (by simp) (fun _ s => ?_)
      (by simp [Pc.HasInitializer]) (by simp)
    cases s with
    | sigint => simpa using hsigint
    | sigterm => simp
  | construct =>
    simp only [Process.main]
    exact matched_of_idle h.consistent h.phase rfl (by simp) (fun _ => h.installed (.inl trivial))
      (by simp [Pc.HasInitializer]) (by simp)
  | publish =>
    simp only [Process.main]
    exact matched_of_idle h.consistent h.phase rfl (by simp) (fun _ => h.installed (.inl trivial))
      (fun _ => rfl) (by simp)
  | initializeRegistry =>
    have hidle := initializeRegistry_phase h.phase memfd
    have hinstalled : ∀ s, handled s = true := h.installed (.inl trivial)
    have hinit : initializer = true := h.initializer trivial
    simp only [Process.main]
    cases (system.daemon.server.initializeRegistry system.kernel memfd).1 with
    | ok _ =>
      exact matched_of_idle (hsteps _) hidle rfl (by simp) (fun _ => hinstalled)
        (fun _ => hinit) (by simp)
    | error _ =>
      exact matched_of_idle (hsteps _) hidle rfl (by simp) (fun _ => hinstalled)
        (fun _ => hinit) (by simp)
  | createSocket =>
    have hphase := run_phase h.phase socket
    have hinstalled : ∀ s, handled s = true := h.installed (.inl trivial)
    have hinit : initializer = true := h.initializer trivial
    simp only [Process.main]
    simp only at hphase
    cases hresult : (system.daemon.server.createSocket system.kernel socket).1 with
    | ok _ =>
      rw [hresult] at hphase
      exact ⟨hsteps _,.inl hphase,by simp,fun _ => hinstalled,fun _ => hinit,by simp,by simp⟩
    | error _ =>
      rw [hresult] at hphase
      exact matched_of_idle (hsteps _) hphase rfl (by simp) (fun _ => hinstalled)
        (fun _ => hinit) (by simp)
  | serve =>
    have hinstalled : ∀ s, handled s = true := h.installed (.inl trivial)
    have hinit : initializer = true := h.initializer trivial
    simp only [Process.main]
    by_cases hidle : (Initializer.step system (.serve outcome)).daemon.phase = .idle
    · rw [if_pos hidle]
      exact matched_of_idle (hsteps _) hidle rfl (by simp) (fun _ => hinstalled)
        (fun _ => hinit) (by simp)
    · rw [if_neg hidle]
      refine ⟨hsteps _,?_,by simp,fun _ => hinstalled,fun _ => hinit,by simp,by simp⟩
      rcases h.phase with hstore | hloop
      · refine .inr ?_
        rw [store_phase hstore]
        trivial
      · exact .inr ((looping_step hloop _).resolve_right fun h => hidle h.1)
  | clear =>
    simp only [Process.main]
    exact matched_of_idle h.consistent h.phase rfl (by simp) (fun _ => h.installed (.inl trivial))
      (by simp [Pc.HasInitializer]) (by simp)
  | destroy exit =>
    have hdestroyed := destroy_phase h.phase
    have hinstalled : ∀ s, handled s = true := h.installed (.inl trivial)
    simp only [Process.main]
    refine ⟨hsteps _,.inr hdestroyed,by simp,fun _ => hinstalled,by simp [Pc.HasInitializer],
      fun hexit _ => ?_,fun hexit => ?_⟩
    · obtain rfl : exit = .failure := by simpa using hexit
      exact h.initializer trivial
    · obtain rfl : exit = .success := by simpa using hexit
      exact h.finished (.inl rfl)
  | returned exit => exact h
  | killed => exact h

theorem signalHandler_phase : p.signalHandler.system.daemon.phase = p.system.daemon.phase := by
  unfold Process.signalHandler
  cases p.initializer <;> rfl

theorem signalHandler_consistent (h : Consistent p.system) : Consistent p.signalHandler.system := by
  unfold Process.signalHandler
  cases p.initializer with
  | true => exact ⟨fun _ => rfl,h.listening⟩
  | false => exact h

theorem signal_killed {s : Signal} (h : p.pc = .killed) : p.signal s = p := if_pos h

theorem signal_handled {s : Signal} (hkilled : ¬ p.pc = .killed) (h : p.handled s = true) :
    p.signal s = p.signalHandler := by
  rw [Process.signal,if_neg hkilled,if_pos h]

theorem signal_unhandled {s : Signal} (hkilled : ¬ p.pc = .killed) (h : p.handled s = false) :
    p.signal s = { p with pc := .killed } := by
  simp [Process.signal,hkilled,h]

theorem Matched.signal (h : Matched p) (s : Signal) : Matched (p.signal s) := by
  unfold Process.signal
  split_ifs with hkilled hhandled
  · exact h
  · refine ⟨signalHandler_consistent h.consistent,?_,h.sigint,?_,h.initializer,?_,h.finished⟩
    · rw [signalHandler_phase]
      exact h.phase
    · rw [signalHandler_phase]
      exact h.installed
    · rw [signalHandler_phase]
      exact h.failed
  · have hno : ¬ (p.pc.Installed ∨ p.system.daemon.phase = .destroyed) := fun hall =>
      hhandled (h.installed hall s)
    obtain ⟨hpc,hdestroyed⟩ := not_or.mp hno
    have hidle : p.system.daemon.phase = .idle := by
      have hphase := h.phase
      cases hp : p.pc with
      | parseArgs => rwa [hp] at hphase
      | handleSigint => rwa [hp] at hphase
      | handleSigterm => rwa [hp] at hphase
      | returned exit =>
        rw [hp] at hphase
        exact hphase.resolve_right hdestroyed
      | killed => exact absurd hp hkilled
      | _ =>
        rw [hp] at hpc
        exact absurd trivial hpc
    exact matched_of_idle h.consistent hidle rfl (by simp) (by simp [Pc.Installed])
      (by simp [Pc.HasInitializer]) (by simp)

theorem Matched.step (h : Matched p) (e : Event) : Matched (step args p e) := by
  cases e with
  | main memfd socket outcome => exact h.main memfd socket outcome
  | signal s => exact h.signal s

theorem matched_at (args : List String) (σ : Nat → Event) (k : Nat) :
    Matched (processAt args σ k) := by
  refine stateAt_invariant (C := fun _ _ => True) (n := k) ?_ (fun _ _ => trivial)
    (fun _ e h _ => h.step e) k (Nat.le_refl k)
  refine matched_of_idle ⟨fun _ => rfl,?_⟩ rfl rfl ?_ ?_ ?_ ?_
  · simp [Process.initial,System.initial,Daemon.new,Phase.Looping]
  · simp [Process.initial]
  · simp [Process.initial,Pc.Installed]
  · simp [Process.initial,Pc.HasInitializer]
  · simp [Process.initial]

/-- `Shutdown` does nothing where the flag is cleared. -/
theorem signalHandler_system (h : p.system.daemon.server.running = false) :
    p.signalHandler.system = p.system := by
  obtain ⟨pc,handled,flag,initializer,dangling,⟨⟨server,phase,stoppers⟩,kernel⟩⟩ := p
  obtain ⟨memfd,socketFd,slots,running⟩ := server
  obtain rfl : running = false := h
  unfold Process.signalHandler
  cases initializer <;> rfl

/-- The server is still in its loop, has been told to stop and has its socket shut down. -/
structure Stopped (s : System) (fd : Nat) : Prop where
  looping : s.daemon.phase.Looping
  running : s.daemon.server.running = false
  socketFd : s.daemon.server.socketFd = some fd
  stopped : s.kernel.stopped fd = true

structure Ending (p : Process) (fd : Nat) : Prop where
  handled : ∀ s, p.handled s = true
  place : (p.pc = .serve ∧ Stopped p.system fd) ∨ p.pc = .clear ∨ p.pc = .destroy .success ∨
    p.pc = .returned .success

def Process.rank (p : Process) : Nat :=
  match p.pc with
  | .serve => p.system.daemon.phase.rank+2
  | .clear => 2
  | .destroy _ => 1
  | _ => 0

theorem Ending.main {fd : Nat} (h : Ending p fd) (memfd : MemfdCalls) (socket : SocketCalls)
    (outcome : Outcome) : Ending (p.main args memfd socket outcome) fd ∧
      (p.pc = .returned .success ∨ (p.main args memfd socket outcome).rank+1 ≤ p.rank) := by
  obtain ⟨hhandled,hplace⟩ := h
  obtain ⟨pc,handled,flag,initializer,dangling,system⟩ := p
  rcases hplace with ⟨hpc,hserving⟩ | hpc | hpc | hpc <;> obtain rfl := hpc
  · obtain ⟨hloop,hrunning,hfd,hstopped⟩ := hserving
    have hrank := rank_step hloop hrunning hfd hstopped (.serve outcome)
    have hfalse := (looping_running hloop (.serve outcome)).1 hrunning
    have hfd' := (looping_socketFd hloop (.serve outcome)).trans hfd
    have hstopped' := stopped_step hstopped (.serve outcome)
    simp only [Initializer.Event.isServe,if_true] at hrank
    simp only [Process.main,Process.rank]
    rcases looping_step hloop (.serve outcome) with hloop' | ⟨hidle,_⟩
    · rw [if_neg (not_idle hloop')]
      exact ⟨⟨hhandled,.inl ⟨rfl,hloop',hfalse,hfd',hstopped'⟩⟩,.inr (by simpa using by omega)⟩
    · rw [if_pos hidle]
      refine ⟨⟨hhandled,.inr (.inl rfl)⟩,.inr ?_⟩
      simp only
      omega
  · exact ⟨⟨hhandled,.inr (.inr (.inl rfl))⟩,.inr (Nat.le_refl _)⟩
  · exact ⟨⟨hhandled,.inr (.inr (.inr rfl))⟩,.inr (Nat.le_refl _)⟩
  · exact ⟨⟨hhandled,.inr (.inr (.inr rfl))⟩,.inl rfl⟩

theorem Ending.signal {fd : Nat} (h : Ending p fd) (s : Signal) :
    Ending (p.signal s) fd ∧ (p.signal s).rank ≤ p.rank := by
  have hkilled : ¬ p.pc = .killed := by
    intro hkilled
    have hplace := h.place
    rw [hkilled] at hplace
    simp at hplace
  rw [signal_handled hkilled (h.handled s)]
  refine ⟨⟨h.handled,?_⟩,?_⟩
  · rcases h.place with ⟨hpc,hserving⟩ | hplace
    · refine .inl ⟨hpc,?_⟩
      rw [signalHandler_system hserving.running]
      exact hserving
    · exact .inr hplace
  · refine Nat.le_of_eq ?_
    unfold Process.rank
    rw [signalHandler_phase]
    rfl

theorem Ending.step {fd : Nat} (h : Ending p fd) (e : Event) :
    Ending (step args p e) fd ∧ (p.pc = .returned .success ∨
      (step args p e).rank+(if e.isMain then 1 else 0) ≤ p.rank) := by
  cases e with
  | main memfd socket outcome => exact h.main memfd socket outcome
  | signal s => exact (h.signal s).imp_right .inr

theorem Matched.serving (h : Matched p) (hloop : p.system.daemon.phase.Looping) :
    p.pc = .serve := by
  have hidle := not_idle hloop
  have hdestroyed : ¬ p.system.daemon.phase = .destroyed := by
    intro hdestroyed
    rw [hdestroyed] at hloop
    exact hloop
  have hphase := h.phase
  cases hp : p.pc with
  | serve => rfl
  | returned exit =>
    rw [hp] at hphase
    exact absurd hphase (not_or.mpr ⟨hidle,hdestroyed⟩)
  | _ =>
    rw [hp] at hphase
    exact absurd hphase hidle

theorem Matched.ending (h : Matched p) (hrunning : p.system.daemon.server.running = true)
    (s : Signal) : ∃ fd, Ending (p.signal s) fd ∧ (p.signal s).rank ≤ 6 := by
  have hloop := h.consistent.looping_of_running hrunning
  have hpc := h.serving hloop
  have hinstalled : ∀ s, p.handled s = true := by
    refine h.installed (.inl ?_)
    rw [hpc]
    trivial
  have hinit : p.initializer = true := by
    refine h.initializer ?_
    rw [hpc]
    trivial
  obtain ⟨fd,hfd⟩ := h.consistent.listening (.inr hloop)
  have hkilled : ¬ p.pc = .killed := by simp [hpc]
  rw [signal_handled hkilled (hinstalled s)]
  refine ⟨fd,⟨hinstalled,.inl ⟨hpc,?_⟩⟩,?_⟩
  · have hstopped : (p.system.daemon.server.shutdown p.system.kernel).2.stopped fd = true := by
      simp [RegistryInitializer.shutdown,hrunning,RegistryInitializer.stopSocket,hfd]
    rw [show p.signalHandler.system = Process.shutdownInitializer p.system by
      simp [Process.signalHandler,hinit]]
    exact ⟨hloop,rfl,hfd,hstopped⟩
  · have hrank : p.system.daemon.phase.rank ≤ 4 := by
      cases p.system.daemon.phase <;> simp [Phase.rank]
    unfold Process.rank
    rw [signalHandler_phase,show p.signalHandler.pc = .serve from hpc]
    simp only
    omega

end Steps

def Process.visible (p : Process) : Process := { p with shutdown := false, dangling := false }

theorem main_visible (args : List String) (p : Process) (memfd : MemfdCalls) (socket : SocketCalls)
    (outcome : Outcome) : (p.main args memfd socket outcome).visible =
      (p.visible.main args memfd socket outcome).visible := by
  obtain ⟨pc,handled,flag,initializer,dangling,system⟩ := p
  cases pc with
  | parseArgs =>
    simp only [Process.main,Process.visible]
    cases parseArgs .new args <;> rfl
  | _ => rfl

theorem step_visible (args : List String) (p : Process) (e : Event) :
    (step args p e).visible = (step args p.visible e).visible := by
  cases e with
  | main memfd socket outcome => exact main_visible args p memfd socket outcome
  | signal s =>
    show (p.signal s).visible = (p.visible.signal s).visible
    by_cases hkilled : p.pc = .killed
    · rw [signal_killed hkilled,signal_killed (p := p.visible) hkilled]
      rfl
    · cases hhandled : p.handled s with
      | true =>
        rw [signal_handled hkilled hhandled,signal_handled (p := p.visible) hkilled hhandled]
        rfl
      | false =>
        rw [signal_unhandled hkilled hhandled,signal_unhandled (p := p.visible) hkilled hhandled]
        rfl

theorem signalHandler_visible {p : Process} (h : p.system.daemon.server.running = false) :
    p.signalHandler.visible = p.visible := by
  have hsystem := signalHandler_system h
  unfold Process.visible
  rw [hsystem]
  rfl

def without (σ : Nat → Event) (i k : Nat) : Event := if k < i then σ k else σ (k+1)

theorem without_visible {args : List String} {σ : Nat → Event} {i : Nat}
    (hi : (step args (processAt args σ i) (σ i)).visible = (processAt args σ i).visible) (k : Nat)
    (hik : i ≤ k) :
    (processAt args (without σ i) k).visible = (processAt args σ (k+1)).visible := by
  have hbefore : ∀ k, k < i → without σ i k = σ k := fun k hk => if_pos hk
  induction k, hik using Nat.le_induction with
  | base =>
    rw [processAt,processAt,stateAt_succ,hi,stateAt_congr hbefore i (Nat.le_refl i)]
  | succ k hik ih =>
    have hevent : without σ i k = σ (k+1) := if_neg (by omega)
    rw [processAt,processAt,stateAt_succ,stateAt_succ,hevent,step_visible,ih,← step_visible]

theorem Matched.serves {args : List String} {p : Process} (h : Matched p)
    (hrunning : p.system.daemon.server.running = true) {e : Event} (he : e.isMain = true) :
    (InitDaemon.step args p e).system.daemon.server.running = true := by
  have hloop := h.consistent.looping_of_running hrunning
  have hpc := h.serving hloop
  cases e with
  | main memfd socket outcome =>
    obtain ⟨pc,handled,flag,initializer,dangling,system⟩ := p
    obtain rfl : pc = .serve := hpc
    refine (looping_running hloop (.serve outcome)).2 hrunning ?_
    rintro ⟨t,heq,_⟩
    cases heq
  | signal s => cases he

theorem returned_stays {args : List String} {p : Process} (hhandled : ∀ s, p.handled s = true)
    {exit : Exit} (hpc : p.pc = .returned exit) (e : Event) :
    (step args p e).pc = .returned exit := by
  cases e with
  | main memfd socket outcome =>
    simp only [step,Process.main,hpc]
  | signal s =>
    have hkilled : ¬ p.pc = .killed := by simp [hpc]
    rw [step,signal_handled hkilled (hhandled s)]
    exact hpc

theorem Ending.rank_pos {p : Process} {fd : Nat} (h : Ending p fd)
    (hpc : p.pc ≠ .returned .success) : 0 < p.rank := by
  rcases h.place with ⟨hserve,_⟩ | hclear | hdestroy | hreturned
  · simp [Process.rank,hserve]
  · simp [Process.rank,hclear]
  · simp [Process.rank,hdestroy]
  · exact absurd hreturned hpc

theorem Ending.returns {args : List String} {σ : Nat → Event} {fd a n : Nat}
    (h : Ending (processAt args σ a) fd) (hrank : (processAt args σ a).rank ≤ 6) (han : a ≤ n)
    (hcount : Nat.count (fun k => (σ k).isMain = true) a+6 ≤
      Nat.count (fun k => (σ k).isMain = true) n) :
    (processAt args σ n).pc = .returned .success := by
  have hall : ∀ k, a ≤ k → k ≤ n → Ending (processAt args σ k) fd := by
    refine between_invariant h fun k _ _ h => ?_
    rw [processAt,stateAt_succ]
    exact (h.step (σ k)).1
  obtain ⟨k,hak,hkn,hreturned⟩ := reaches_of_rank
    (P := fun k => (processAt args σ k).pc = .returned .success)
    (T := fun k => (σ k).isMain = true) (r := fun k => (processAt args σ k).rank)
    (a := a) (b := n) han
    (fun k hak hkn hzero => by
      by_contra hpc
      have hpos := (hall k hak hkn).rank_pos hpc
      omega)
    (fun k hak hkn hnot => .inr (by
      rw [processAt,stateAt_succ]
      exact ((hall k hak (by omega)).step (σ k)).2.resolve_left hnot))
    (by omega)
  refine between_invariant (I := fun k => (processAt args σ k).pc = .returned .success) hreturned
    (fun k hk hkn hpc => ?_) n hkn (Nat.le_refl n)
  rw [processAt,stateAt_succ]
  exact returned_stays (hall k (by omega) (by omega)).handled hpc (σ k)

/-- In every run of the process a signal that finds the server running ends it: `main` returns after
six steps of its own, with success, whatever other signals come. A signal that comes before `Run`
has set the flag is lost: what `main` does is what it would do without it, and once the server runs
it serves until another signal comes. -/
theorem signals_end_or_vanish (args : List String) (σ : Nat → Event) (i : Nat) (s : Signal)
    (hsignal : σ i = .signal s) (hhandled : (processAt args σ i).handled s = true) :
    ((processAt args σ i).system.daemon.server.running = true → ∀ n, i < n →
      Nat.count (fun k => (σ k).isMain = true) (i+1)+6 ≤
        Nat.count (fun k => (σ k).isMain = true) n →
      (processAt args σ n).pc = .returned .success) ∧
    ((processAt args σ i).system.daemon.server.running = false →
      (∀ k, i ≤ k →
        (processAt args (without σ i) k).visible = (processAt args σ (k+1)).visible) ∧
      ∀ j n, j ≤ n → (processAt args σ j).system.daemon.server.running = true →
        (∀ k, j ≤ k → k < n → (σ k).isMain = true) → (processAt args σ n).pc = .serve) := by
  have hi := matched_at args σ i
  constructor
  · intro hrunning n hin hcount
    obtain ⟨fd,hending,hrank⟩ := hi.ending hrunning s
    have hstart : processAt args σ (i+1) = (processAt args σ i).signal s := by
      rw [processAt,stateAt_succ,hsignal]
      rfl
    rw [← hstart] at hending hrank
    exact hending.returns hrank hin hcount
  · intro hrunning
    refine ⟨without_visible ?_,fun j n hjn hserves hmain => ?_⟩
    · rw [hsignal]
      show ((processAt args σ i).signal s).visible = _
      by_cases hkilled : (processAt args σ i).pc = .killed
      · rw [signal_killed hkilled]
      · rw [signal_handled hkilled hhandled]
        exact signalHandler_visible hrunning
    · have hn := between_invariant
        (I := fun k => (processAt args σ k).system.daemon.server.running = true) hserves
        (fun k hjk hkn h => by
          rw [processAt,stateAt_succ]
          exact (matched_at args σ k).serves h (hmain k hjk hkn)) n hjn (Nat.le_refl n)
      have hmatched := matched_at args σ n
      exact hmatched.serving (hmatched.consistent.looping_of_running hn)

def terminated : Nat → Event :=
  schedule (List.replicate 9 (.main ⟨true,true,true⟩ ⟨true,true,true⟩ .done)++[.signal .sigterm])
    (.main ⟨true,true,true⟩ ⟨true,true,true⟩ .waiting)

theorem signals_end_or_vanish_terminated :
    (processAt [] terminated 9).system.daemon.phase = .accept ∧
      (processAt [] terminated 16).pc = .returned .success := by
  have hends := (signals_end_or_vanish [] terminated 9 .sigterm rfl (by decide +kernel)).1
    (by decide +kernel) 16 (by decide) (by decide +kernel)
  exact ⟨by decide +kernel,hends⟩

/-- A signal comes after `Initialize` or `Run` has failed and the object is destroyed. -/
def Dangles (p : Process) (e : Event) : Prop :=
  ∃ s, e = .signal s ∧ p.pc = .returned .failure ∧ p.system.daemon.phase = .destroyed

theorem main_dangling (args : List String) (p : Process) (memfd : MemfdCalls)
    (socket : SocketCalls) (outcome : Outcome) :
    (p.main args memfd socket outcome).dangling = p.dangling := by
  obtain ⟨pc,handled,flag,initializer,dangling,system⟩ := p
  cases pc with
  | parseArgs =>
    simp only [Process.main]
    cases parseArgs .new args <;> rfl
  | _ => rfl

theorem Matched.dangling_iff {p : Process} (h : Matched p) :
    (p.initializer && decide (p.system.daemon.phase = .destroyed)) = true ↔
      p.pc = .returned .failure ∧ p.system.daemon.phase = .destroyed := by
  rw [Bool.and_eq_true,decide_eq_true_iff]
  constructor
  · rintro ⟨hinit,hdestroyed⟩
    refine ⟨?_,hdestroyed⟩
    have hphase := h.phase
    rw [hdestroyed] at hphase
    cases hp : p.pc with
    | returned exit =>
      cases exit with
      | failure => rfl
      | success =>
        have hnone := h.finished (.inr hp)
        rw [hinit] at hnone
        cases hnone
    | serve =>
      rw [hp] at hphase
      rcases hphase with hstore | hloop
      · cases hstore
      · cases hloop
    | _ =>
      rw [hp] at hphase
      cases hphase
  · rintro ⟨hpc,hdestroyed⟩
    exact ⟨h.failed hpc hdestroyed,hdestroyed⟩

theorem step_dangling_iff {args : List String} {p : Process} (h : Matched p)
    (hdangling : p.dangling = false) (e : Event) :
    (step args p e).dangling = false ↔ ¬ Dangles p e := by
  cases e with
  | main memfd socket outcome =>
    rw [step,main_dangling]
    refine iff_of_true hdangling ?_
    rintro ⟨s,heq,_⟩
    cases heq
  | signal s =>
    have hdangles : Dangles p (.signal s) ↔
        p.pc = .returned .failure ∧ p.system.daemon.phase = .destroyed := by
      constructor
      · rintro ⟨_,_,hpc,hdestroyed⟩
        exact ⟨hpc,hdestroyed⟩
      · rintro ⟨hpc,hdestroyed⟩
        exact ⟨s,rfl,hpc,hdestroyed⟩
    rw [hdangles,step]
    by_cases hkilled : p.pc = .killed
    · rw [signal_killed hkilled]
      exact iff_of_true hdangling (by simp [hkilled])
    · cases hhandled : p.handled s with
      | true =>
        rw [signal_handled hkilled hhandled,← h.dangling_iff]
        simp [Process.signalHandler,hdangling]
      | false =>
        rw [signal_unhandled hkilled hhandled]
        refine iff_of_true hdangling ?_
        rintro ⟨_,hdestroyed⟩
        rw [h.installed (.inr hdestroyed) s] at hhandled
        cases hhandled

/-- In every run of the process the handler never calls `Shutdown` of an object that was destroyed,
if and only if no signal comes after `Initialize` or `Run` has failed and `main` has returned. -/
theorem handler_never_dangles_iff (args : List String) (σ : Nat → Event) (n : Nat) :
    (∀ k, k ≤ n → (processAt args σ k).dangling = false) ↔
      ∀ k, k < n → ¬ Dangles (processAt args σ k) (σ k) := by
  refine holds_iff_of_step (I := fun k => (processAt args σ k).dangling = false) rfl ?_
  intro k hdangling
  rw [processAt,stateAt_succ]
  exact step_dangling_iff (matched_at args σ k) hdangling (σ k)

end LapCom.InitDaemon
