import LapCom.Kernel.Ledger
import LapCom.Machine.Run
import LapCom.Registry.SingleRegistry

set_option autoImplicit false

/-! `RegistryInitializer`: its owner, which calls `Initialize` and `Run` and destroys it, and the
threads that call `Shutdown`. -/

namespace LapCom.Initializer
open LapCom.Kernel LapCom.Machine LapCom.Registry

inductive ServerError where
  | kMemfdCreateFailed
  | kSharedMemoryResizeFailed
  | kSharedMemoryMappingFailed
  | kSocketCreationFailed
  | kSocketBindFailed
  | kSocketListenFailed
  | kFdPassingFailed
  deriving DecidableEq

structure RegistryInitializer where
  memfd : Option Nat
  socketFd : Option Nat
  slots : Option Nat
  running : Bool
  deriving DecidableEq

/-- What the kernel has given out, the memory behind each memfd, the sockets that are shut down and
the memfd that was sent over each connection. -/
structure Kernel where
  memfds : Ledger
  regions : Ledger
  sockets : Ledger
  clients : Ledger
  memory : Nat → Bank
  stopped : Nat → Bool
  mail : Nat → Option Nat

structure MemfdCalls where
  created : Bool
  resized : Bool
  mapped : Bool
  deriving DecidableEq

structure SocketCalls where
  created : Bool
  bound : Bool
  listening : Bool
  deriving DecidableEq

inductive Outcome where
  | done
  | failed
  | waiting
  deriving DecidableEq

def Kernel.initial : Kernel :=
  ⟨.initial,.initial,.initial,.initial,fun _ => .fresh,fun _ => false,fun _ => none⟩

def initializeSlots (bank : Bank) : Bank :=
  (List.finRange maxSlots).foldl (fun bank i => Function.update bank i .new) bank

namespace RegistryInitializer

def new : RegistryInitializer := ⟨none,none,none,false⟩

def createMemfd (s : RegistryInitializer) (k : Kernel) (calls : MemfdCalls) :
    Except ServerError Unit × RegistryInitializer × Kernel :=
  let fd := k.memfds.acquired
  let opened := { k with memfds := k.memfds.acquire }
  let closed := { k with memfds := k.memfds.acquire.release fd }
  if calls.created = false then (.error .kMemfdCreateFailed,{ s with memfd := none },k)
  else if calls.resized = false then
    (.error .kSharedMemoryResizeFailed,{ s with memfd := none },closed)
  else if calls.mapped = false then
    (.error .kSharedMemoryMappingFailed,{ s with memfd := none },closed)
  else
    (.ok (),{ s with memfd := some fd, slots := some k.regions.acquired },
      { opened with
        regions := k.regions.acquire
        memory := Function.update k.memory fd (initializeSlots (k.memory fd)) })

def initializeRegistry (s : RegistryInitializer) (k : Kernel) (calls : MemfdCalls) :
    Except ServerError Unit × RegistryInitializer × Kernel :=
  s.createMemfd k calls

def createSocket (s : RegistryInitializer) (k : Kernel) (calls : SocketCalls) :
    Except ServerError Unit × RegistryInitializer × Kernel :=
  let fd := k.sockets.acquired
  let opened := { k with sockets := k.sockets.acquire }
  let closed := { k with sockets := k.sockets.acquire.release fd }
  if calls.created = false then (.error .kSocketCreationFailed,{ s with socketFd := none },k)
  else if calls.bound = false then (.error .kSocketBindFailed,{ s with socketFd := none },closed)
  else if calls.listening = false then
    (.error .kSocketListenFailed,{ s with socketFd := none },closed)
  else (.ok (),{ s with socketFd := some fd },opened)

def sendMemfdToClient (s : RegistryInitializer) (k : Kernel) (client : Nat) (outcome : Outcome) :
    Except ServerError Unit × Kernel :=
  match s.memfd, outcome with
  | some fd, .done => (.ok (),{ k with mail := Function.update k.mail client (some fd) })
  | _, _ => (.error .kFdPassingFailed,k)

def handleClient (s : RegistryInitializer) (k : Kernel) (client : Nat) (outcome : Outcome) :
    Except ServerError Unit × Kernel :=
  s.sendMemfdToClient k client outcome

def stopSocket (s : RegistryInitializer) (k : Kernel) : Kernel :=
  match s.socketFd with
  | none => k
  | some fd => { k with stopped := Function.update k.stopped fd true }

def socketStopped (s : RegistryInitializer) (k : Kernel) : Bool :=
  match s.socketFd with
  | none => true
  | some fd => k.stopped fd

/-- The whole of `Shutdown`, as the destructor calls it. -/
def shutdown (s : RegistryInitializer) (k : Kernel) : RegistryInitializer × Kernel :=
  ({ s with running := false },if s.running then s.stopSocket k else k)

def destroy (s : RegistryInitializer) (k : Kernel) : RegistryInitializer × Kernel :=
  let (s,k) := s.shutdown k
  ({ s with slots := none, memfd := none, socketFd := none },
    { k with
      regions := k.regions.releaseAll s.slots.toList
      memfds := k.memfds.releaseAll s.memfd.toList
      sockets := k.sockets.releaseAll s.socketFd.toList })

end RegistryInitializer

/-- Where the owner stands; all but the first and the last are in `Run`. -/
inductive Phase where
  | idle
  | store
  | test
  | accept
  | handleClient (client : Nat)
  | close (client : Nat)
  | destroyed
  deriving DecidableEq

/-- A thread between the `exchange` of `Shutdown` and what follows it is entered with the socket
that the server had at the `exchange`. -/
structure Daemon where
  server : RegistryInitializer
  phase : Phase
  stoppers : Nat → Option (Option Nat)

def Daemon.new : Daemon := ⟨.new,.idle,fun _ => none⟩

inductive Event where
  | initializeRegistry (calls : MemfdCalls)
  | run (calls : SocketCalls)
  | serve (outcome : Outcome)
  | shutdown (t : Nat)
  | stopSocket (t : Nat)
  | destroy
  deriving DecidableEq

namespace Daemon

/-- The next step of `Run`. A socket that is shut down keeps no `accept` waiting. -/
def serve (d : Daemon) (k : Kernel) (outcome : Outcome) : Daemon × Kernel :=
  match d.phase with
  | .store => ({ d with server := { d.server with running := true }, phase := .test },k)
  | .test => ({ d with phase := if d.server.running then .accept else .idle },k)
  | .accept =>
    match outcome with
    | .done =>
      ({ d with phase := .handleClient k.clients.acquired },{ k with clients := k.clients.acquire })
    | .failed => ({ d with phase := .test },k)
    | .waiting => (if d.server.socketStopped k then { d with phase := .test } else d,k)
  | .handleClient client =>
    ({ d with phase := .close client },(d.server.handleClient k client outcome).2)
  | .close client => ({ d with phase := .test },{ k with clients := k.clients.release client })
  | .idle => (d,k)
  | .destroyed => (d,k)

/-- Those who call `Shutdown` keep the object alive for their calls. -/
def step (d : Daemon) (k : Kernel) : Event → Daemon × Kernel
  | .initializeRegistry calls =>
    if d.phase = .idle then
      let (_,s,k) := d.server.initializeRegistry k calls
      ({ d with server := s },k)
    else (d,k)
  | .run calls =>
    if d.phase = .idle then
      match d.server.createSocket k calls with
      | (.ok _,s,k) => ({ d with server := s, phase := .store },k)
      | (.error _,s,k) => ({ d with server := s },k)
    else (d,k)
  | .serve outcome => d.serve k outcome
  | .shutdown t =>
    if d.phase = .destroyed then (d,k)
    else if d.stoppers t = none then
      if d.server.running then
        ({ d with
          server := { d.server with running := false }
          stoppers := Function.update d.stoppers t (some d.server.socketFd) },k)
      else (d,k)
    else (d,k)
  | .stopSocket t =>
    match d.stoppers t with
    | none => (d,k)
    | some _ =>
      ({ d with stoppers := Function.update d.stoppers t none },d.server.stopSocket k)
  | .destroy =>
    if d.phase = .idle then
      let (s,k) := d.server.destroy k
      ({ d with server := s, phase := .destroyed },k)
    else (d,k)

end Daemon

structure System where
  daemon : Daemon
  kernel : Kernel

def System.initial : System := ⟨.new,.initial⟩

def step (s : System) (e : Event) : System :=
  ⟨(s.daemon.step s.kernel e).1,(s.daemon.step s.kernel e).2⟩

abbrev systemAt (σ : Nat → Event) (k : Nat) : System := stateAt step .initial σ k

def Phase.Looping : Phase → Prop
  | .test | .accept | .handleClient _ | .close _ => True
  | .idle | .store | .destroyed => False

def Phase.clients : Phase → List Nat
  | .handleClient client | .close client => [client]
  | _ => []

/-- What the server does not hold has been released once. -/
structure Accounted (s : System) : Prop where
  memfds : s.kernel.memfds.Holds s.daemon.server.memfd.toList
  regions : s.kernel.regions.Holds s.daemon.server.slots.toList
  sockets : s.kernel.sockets.Holds s.daemon.server.socketFd.toList

/-- `Initialize` and `Run` write over the descriptors that the server has. -/
def Overwrites (s : System) : Event → Prop
  | .initializeRegistry _ => s.daemon.phase = .idle ∧ s.daemon.server.memfd ≠ none
  | .run _ => s.daemon.phase = .idle ∧ s.daemon.server.socketFd ≠ none
  | _ => False

def Paired (s : System) : Prop := s.daemon.server.memfd = none → s.daemon.server.slots = none

section Calls
variable (s : RegistryInitializer) (k : Kernel)

theorem createMemfd_cases (calls : MemfdCalls) :
    (∃ e, s.createMemfd k calls = (.error e,{ s with memfd := none },k)) ∨
    (∃ e, s.createMemfd k calls = (.error e,{ s with memfd := none },
      { k with memfds := k.memfds.acquire.release k.memfds.acquired })) ∨
    s.createMemfd k calls =
      (.ok (),{ s with memfd := some k.memfds.acquired, slots := some k.regions.acquired },
        { k with
          memfds := k.memfds.acquire, regions := k.regions.acquire
          memory := Function.update k.memory k.memfds.acquired
            (initializeSlots (k.memory k.memfds.acquired)) }) := by
  rcases calls with ⟨_ | _,resized,mapped⟩
  · exact .inl ⟨_,rfl⟩
  · rcases resized with _ | _
    · exact .inr (.inl ⟨_,rfl⟩)
    · rcases mapped with _ | _
      · exact .inr (.inl ⟨_,rfl⟩)
      · exact .inr (.inr rfl)

theorem createSocket_cases (calls : SocketCalls) :
    (∃ e, s.createSocket k calls = (.error e,{ s with socketFd := none },k)) ∨
    (∃ e, s.createSocket k calls = (.error e,{ s with socketFd := none },
      { k with sockets := k.sockets.acquire.release k.sockets.acquired })) ∨
    s.createSocket k calls = (.ok (),{ s with socketFd := some k.sockets.acquired },
      { k with sockets := k.sockets.acquire }) := by
  rcases calls with ⟨_ | _,bound,listening⟩
  · exact .inl ⟨_,rfl⟩
  · rcases bound with _ | _
    · exact .inr (.inl ⟨_,rfl⟩)
    · rcases listening with _ | _
      · exact .inr (.inl ⟨_,rfl⟩)
      · exact .inr (.inr rfl)

theorem createMemfd_clients (calls : MemfdCalls) :
    (s.createMemfd k calls).2.2.clients = k.clients := by
  rcases createMemfd_cases s k calls with ⟨e,heq⟩ | ⟨e,heq⟩ | heq <;> rw [heq]

end Calls

section Steps
variable {s : System}

theorem step_busy (h : ¬ s.daemon.phase = .idle) :
    (∀ calls, step s (.initializeRegistry calls) = s) ∧ (∀ calls, step s (.run calls) = s) ∧
      step s .destroy = s := by
  simp [step,Daemon.step,h]

theorem initializeRegistry_accounted_iff (h : Accounted s) (hpaired : Paired s)
    (hidle : s.daemon.phase = .idle) (calls : MemfdCalls) :
    Accounted (step s (.initializeRegistry calls)) ↔ s.daemon.server.memfd = none := by
  have hmemfds := h.memfds
  simp only [step,Daemon.step,if_pos hidle,RegistryInitializer.initializeRegistry]
  cases hfd : s.daemon.server.memfd with
  | none =>
    rw [hfd] at hmemfds
    refine iff_of_true ?_ rfl
    rcases createMemfd_cases s.daemon.server s.kernel calls with ⟨e,heq⟩ | ⟨e,heq⟩ | heq
    · rw [heq]
      exact ⟨hmemfds,h.regions,h.sockets⟩
    · rw [heq]
      exact ⟨hmemfds.failed,h.regions,h.sockets⟩
    · have hregions := h.regions
      rw [hpaired hfd] at hregions
      rw [heq]
      exact ⟨hmemfds.acquire,hregions.acquire,h.sockets⟩
  | some fd =>
    rw [hfd] at hmemfds
    have hlt := hmemfds.bound fd (by simp)
    refine iff_of_false (fun h' => ?_) (by simp)
    rcases createMemfd_cases s.daemon.server s.kernel calls with ⟨e,heq⟩ | ⟨e,heq⟩ | heq
    · rw [heq] at h'
      exact hmemfds.lost (x := fd) (by simp) (Nat.le_refl _) rfl (by simp) h'.memfds
    · rw [heq] at h'
      refine hmemfds.lost (x := fd) (by simp) (Nat.le_succ _) ?_ (by simp) h'.memfds
      exact Function.update_of_ne (by omega) _ _
    · rw [heq] at h'
      refine hmemfds.lost (x := fd) (by simp) (Nat.le_succ _) ?_ ?_ h'.memfds
      · rfl
      · simpa using by omega

theorem run_accounted_iff (h : Accounted s) (hidle : s.daemon.phase = .idle) (calls : SocketCalls) :
    Accounted (step s (.run calls)) ↔ s.daemon.server.socketFd = none := by
  have hsockets := h.sockets
  simp only [step,Daemon.step,if_pos hidle]
  cases hfd : s.daemon.server.socketFd with
  | none =>
    rw [hfd] at hsockets
    refine iff_of_true ?_ rfl
    rcases createSocket_cases s.daemon.server s.kernel calls with ⟨e,heq⟩ | ⟨e,heq⟩ | heq
    · rw [heq]
      exact ⟨h.memfds,h.regions,hsockets⟩
    · rw [heq]
      exact ⟨h.memfds,h.regions,hsockets.failed⟩
    · rw [heq]
      exact ⟨h.memfds,h.regions,hsockets.acquire⟩
  | some fd =>
    rw [hfd] at hsockets
    have hlt := hsockets.bound fd (by simp)
    refine iff_of_false (fun h' => ?_) (by simp)
    rcases createSocket_cases s.daemon.server s.kernel calls with ⟨e,heq⟩ | ⟨e,heq⟩ | heq
    · rw [heq] at h'
      exact hsockets.lost (x := fd) (by simp) (Nat.le_refl _) rfl (by simp) h'.sockets
    · rw [heq] at h'
      refine hsockets.lost (x := fd) (by simp) (Nat.le_succ _) ?_ (by simp) h'.sockets
      exact Function.update_of_ne (by omega) _ _
    · rw [heq] at h'
      refine hsockets.lost (x := fd) (by simp) (Nat.le_succ _) ?_ ?_ h'.sockets
      · rfl
      · simpa using by omega

structure Same (s s' : System) : Prop where
  memfd : s'.daemon.server.memfd = s.daemon.server.memfd
  slots : s'.daemon.server.slots = s.daemon.server.slots
  socketFd : s'.daemon.server.socketFd = s.daemon.server.socketFd
  memfds : s'.kernel.memfds = s.kernel.memfds
  regions : s'.kernel.regions = s.kernel.regions
  sockets : s'.kernel.sockets = s.kernel.sockets
  memory : s'.kernel.memory = s.kernel.memory

theorem Same.refl (s : System) : Same s s := ⟨rfl,rfl,rfl,rfl,rfl,rfl,rfl⟩

theorem Same.accounted {s' : System} (h : Same s s') (hs : Accounted s) : Accounted s' := by
  refine ⟨?_,?_,?_⟩
  · rw [h.memfds,h.memfd]
    exact hs.memfds
  · rw [h.regions,h.slots]
    exact hs.regions
  · rw [h.sockets,h.socketFd]
    exact hs.sockets

theorem stopSocket_eq (r : RegistryInitializer) (k : Kernel) :
    ∃ stopped, r.stopSocket k = { k with stopped := stopped } := by
  unfold RegistryInitializer.stopSocket
  cases r.socketFd with
  | none => exact ⟨k.stopped,rfl⟩
  | some fd => exact ⟨_,rfl⟩

theorem sendMemfdToClient_eq (r : RegistryInitializer) (k : Kernel) (client : Nat)
    (outcome : Outcome) :
    ∃ mail, (r.sendMemfdToClient k client outcome).2 = { k with mail := mail } := by
  unfold RegistryInitializer.sendMemfdToClient
  cases r.memfd with
  | none => exact ⟨k.mail,rfl⟩
  | some fd =>
    cases outcome with
    | done => exact ⟨_,rfl⟩
    | failed => exact ⟨k.mail,rfl⟩
    | waiting => exact ⟨k.mail,rfl⟩

theorem serve_same (s : System) (outcome : Outcome) : Same s (step s (.serve outcome)) := by
  rcases s with ⟨⟨server,phase,stoppers⟩,kernel⟩
  cases phase with
  | idle => exact .refl _
  | store => exact ⟨rfl,rfl,rfl,rfl,rfl,rfl,rfl⟩
  | test => exact ⟨rfl,rfl,rfl,rfl,rfl,rfl,rfl⟩
  | accept =>
    cases outcome with
    | done => exact ⟨rfl,rfl,rfl,rfl,rfl,rfl,rfl⟩
    | failed => exact ⟨rfl,rfl,rfl,rfl,rfl,rfl,rfl⟩
    | waiting =>
      simp only [step,Daemon.step,Daemon.serve]
      cases server.socketStopped kernel <;> exact ⟨rfl,rfl,rfl,rfl,rfl,rfl,rfl⟩
  | handleClient client =>
    obtain ⟨mail,heq⟩ := sendMemfdToClient_eq server kernel client outcome
    simp only [step,Daemon.step,Daemon.serve,RegistryInitializer.handleClient,heq]
    exact ⟨rfl,rfl,rfl,rfl,rfl,rfl,rfl⟩
  | close client => exact ⟨rfl,rfl,rfl,rfl,rfl,rfl,rfl⟩
  | destroyed => exact .refl _

theorem shutdown_same (s : System) (t : Nat) : Same s (step s (.shutdown t)) := by
  simp only [step,Daemon.step]
  split_ifs <;> exact ⟨rfl,rfl,rfl,rfl,rfl,rfl,rfl⟩

theorem stopSocket_same (s : System) (t : Nat) : Same s (step s (.stopSocket t)) := by
  simp only [step,Daemon.step]
  cases s.daemon.stoppers t with
  | none => exact .refl _
  | some x =>
    obtain ⟨stopped,heq⟩ := stopSocket_eq s.daemon.server s.kernel
    simp only [heq]
    exact ⟨rfl,rfl,rfl,rfl,rfl,rfl,rfl⟩

theorem destroy_accounted (h : Accounted s) : Accounted (step s .destroy) := by
  by_cases hidle : s.daemon.phase = .idle
  · have hkernel : ∃ stopped, (s.daemon.server.shutdown s.kernel).2 =
        { s.kernel with stopped := stopped } := by
      unfold RegistryInitializer.shutdown
      cases s.daemon.server.running with
      | true => exact stopSocket_eq _ _
      | false => exact ⟨_,rfl⟩
    obtain ⟨stopped,heq⟩ := hkernel
    simp only [step,Daemon.step,if_pos hidle,RegistryInitializer.destroy,heq]
    refine ⟨?_,?_,?_⟩
    · exact Ledger.Holds.releaseAll (by simpa [RegistryInitializer.shutdown] using h.memfds)
    · exact Ledger.Holds.releaseAll (by simpa [RegistryInitializer.shutdown] using h.regions)
    · exact Ledger.Holds.releaseAll (by simpa [RegistryInitializer.shutdown] using h.sockets)
  · simp only [step,Daemon.step,if_neg hidle]
    exact h

theorem step_accounted_iff (h : Accounted s) (hpaired : Paired s) (e : Event) :
    Accounted (step s e) ↔ ¬ Overwrites s e := by
  cases e with
  | initializeRegistry calls =>
    by_cases hidle : s.daemon.phase = .idle
    · rw [initializeRegistry_accounted_iff h hpaired hidle]
      simp [Overwrites,hidle]
    · simp only [step,Daemon.step,Overwrites,hidle,if_false,false_and,not_false_iff,iff_true]
      exact h
  | run calls =>
    by_cases hidle : s.daemon.phase = .idle
    · rw [run_accounted_iff h hidle]
      simp [Overwrites,hidle]
    · simp only [step,Daemon.step,Overwrites,hidle,if_false,false_and,not_false_iff,iff_true]
      exact h
  | serve outcome => exact iff_of_true ((serve_same s outcome).accounted h) id
  | shutdown t => exact iff_of_true ((shutdown_same s t).accounted h) id
  | stopSocket t => exact iff_of_true ((stopSocket_same s t).accounted h) id
  | destroy => exact iff_of_true (destroy_accounted h) id

theorem step_paired (hpaired : Paired s) (e : Event) (hkeeps : ¬ Overwrites s e) :
    Paired (step s e) := by
  have hsame : ∀ s' : System, Same s s' → Paired s' := by
    intro s' hsame hnone
    rw [hsame.slots]
    exact hpaired (hsame.memfd.symm.trans hnone)
  cases e with
  | initializeRegistry calls =>
    by_cases hidle : s.daemon.phase = .idle
    · have hfd : s.daemon.server.memfd = none := by
        by_contra hfd
        exact hkeeps ⟨hidle,hfd⟩
      simp only [step,Daemon.step,if_pos hidle,RegistryInitializer.initializeRegistry]
      rcases createMemfd_cases s.daemon.server s.kernel calls with ⟨e,heq⟩ | ⟨e,heq⟩ | heq
      · rw [heq]
        exact fun _ => hpaired hfd
      · rw [heq]
        exact fun _ => hpaired hfd
      · rw [heq]
        exact nofun
    · simp only [step,Daemon.step,if_neg hidle]
      exact hpaired
  | run calls =>
    by_cases hidle : s.daemon.phase = .idle
    · simp only [step,Daemon.step,if_pos hidle]
      rcases createSocket_cases s.daemon.server s.kernel calls with ⟨e,heq⟩ | ⟨e,heq⟩ | heq
      · rw [heq]
        exact hpaired
      · rw [heq]
        exact hpaired
      · rw [heq]
        exact hpaired
    · simp only [step,Daemon.step,if_neg hidle]
      exact hpaired
  | serve outcome => exact hsame _ (serve_same s outcome)
  | shutdown t => exact hsame _ (shutdown_same s t)
  | stopSocket t => exact hsame _ (stopSocket_same s t)
  | destroy =>
    by_cases hidle : s.daemon.phase = .idle
    · simp only [step,Daemon.step,if_pos hidle,RegistryInitializer.destroy]
      exact fun _ => rfl
    · simp only [step,Daemon.step,if_neg hidle]
      exact hpaired

theorem step_clients (h : s.kernel.clients.Holds s.daemon.phase.clients) (e : Event) :
    (step s e).kernel.clients.Holds (step s e).daemon.phase.clients := by
  rcases s with ⟨⟨server,phase,stoppers⟩,kernel⟩
  cases e with
  | initializeRegistry calls =>
    by_cases hidle : phase = .idle
    · simp only [step,Daemon.step,if_pos hidle,RegistryInitializer.initializeRegistry]
      rw [createMemfd_clients]
      exact h
    · simp only [step,Daemon.step,if_neg hidle]
      exact h
  | run calls =>
    by_cases hidle : phase = .idle
    · subst hidle
      simp only [step,Daemon.step,if_true]
      rcases createSocket_cases server kernel calls with ⟨e,heq⟩ | ⟨e,heq⟩ | heq
      · rw [heq]
        exact h
      · rw [heq]
        exact h
      · rw [heq]
        exact h
    · simp only [step,Daemon.step,if_neg hidle]
      exact h
  | serve outcome =>
    cases phase with
    | idle => exact h
    | store => exact h
    | test =>
      simp only [step,Daemon.step,Daemon.serve]
      cases server.running <;> exact h
    | accept =>
      cases outcome with
      | done => exact h.acquire
      | failed => exact h
      | waiting =>
        simp only [step,Daemon.step,Daemon.serve]
        cases server.socketStopped kernel <;> exact h
    | handleClient client =>
      obtain ⟨mail,heq⟩ := sendMemfdToClient_eq server kernel client outcome
      simp only [step,Daemon.step,Daemon.serve,RegistryInitializer.handleClient,heq]
      exact h
    | close client => exact h.release
    | destroyed => exact h
  | shutdown t =>
    simp only [step,Daemon.step]
    split_ifs <;> exact h
  | stopSocket t =>
    simp only [step,Daemon.step]
    cases stoppers t with
    | none => exact h
    | some x =>
      obtain ⟨stopped,heq⟩ := stopSocket_eq server kernel
      simp only [heq]
      exact h
  | destroy =>
    by_cases hidle : phase = .idle
    · subst hidle
      obtain ⟨stopped,heq⟩ := stopSocket_eq server kernel
      simp only [step,Daemon.step,if_true,RegistryInitializer.destroy,RegistryInitializer.shutdown,
        heq]
      cases server.running <;> exact h
    · simp only [step,Daemon.step,if_neg hidle]
      exact h

end Steps

/-- Over every run every connection is closed once, and everything else is released once or held by
the server just where neither `Initialize` nor `Run` writes over what it has. -/
theorem resources_accounted_iff (σ : Nat → Event) (n : Nat) :
    (∀ k, k ≤ n → (systemAt σ k).kernel.clients.Holds (systemAt σ k).daemon.phase.clients) ∧
      ((∀ k, k < n → Accounted (systemAt σ (k+1))) ↔
        ∀ k, k < n → ¬ Overwrites (systemAt σ k) (σ k)) := by
  constructor
  · exact stateAt_invariant (C := fun _ _ => True) .initial (fun _ _ => trivial)
      fun s e h _ => step_clients (s := s) h e
  · exact forall_iff_of_invariant
      (I := fun k => Accounted (systemAt σ k) ∧ Paired (systemAt σ k))
      ⟨⟨.initial,.initial,.initial⟩,fun _ => rfl⟩
      (fun _ ⟨h,hpaired⟩ hkeeps =>
        ⟨(step_accounted_iff h hpaired _).mpr hkeeps,step_paired hpaired _ hkeeps⟩)
      fun _ ⟨h,hpaired⟩ => step_accounted_iff h hpaired _

end LapCom.Initializer
