import LapCom.Kernel.Ledger
import LapCom.Machine.Run
import Mathlib.Data.List.FinRange

set_option autoImplicit false

/-! The life of a `SocketEventPublisher`: its owner, which starts, stops and destroys it, the thread
of `acceptLoop`, and the threads that call `publish`. -/

namespace LapCom.Socket.EventLifecycle
open LapCom.Kernel LapCom.Machine

structure SocketEventPublisher where
  running : Bool
  serverFd : Option Nat
  subscribers : List Nat

/-- The thread of `acceptLoop`: before each test of `running_` and each `acceptConnection`, and
before an accepted connection is inserted. -/
inductive Acceptor where
  | absent
  | testing
  | accepting
  | accepted (fd : Nat)
  | refused
  | adding (fd : Nat)
  | ended
  deriving DecidableEq

/-- A thread in `publish`: in the loop that takes waiting connections, and before the section that
sends. -/
inductive Task where
  | idle
  | testing
  | accepting
  | adding (fd : Nat)
  | sending
  deriving DecidableEq

inductive Owner where
  | idle
  | closing
  | joining
  | clearing
  | destroyed
  deriving DecidableEq

structure System (n : Nat) where
  publisher : SocketEventPublisher
  owner : Owner
  acceptor : Acceptor
  tasks : Fin n → Task
  sockets : Ledger
  connections : Ledger

/-- `created` is what `createServerSocket` comes to, `accepted` what `accept` does, and `fails`
tells the connections that the message cannot be sent to. -/
inductive Event (n : Nat) where
  | start (initialized created : Bool)
  | stop
  | owner
  | destroy
  | acceptLoop (accepted : Bool)
  | publish (i : Fin n) (serialized : Bool)
  | absorb (i : Fin n) (accepted : Bool)
  | send (i : Fin n) (fails : Nat → Bool)

def Acceptor.carried : Acceptor → List Nat
  | .accepted fd | .adding fd => [fd]
  | _ => []

def Task.carried : Task → List Nat
  | .adding fd => [fd]
  | _ => []

namespace System
variable {n : Nat}

def initial (n : Nat) : System n :=
  ⟨⟨false,none,[]⟩,.idle,.absent,fun _ => .idle,.initial,.initial⟩

def goto (s : System n) (i : Fin n) (T : Task) : System n :=
  { s with tasks := Function.update s.tasks i T }

/-- A socket that could not be bound is closed by the connection manager. -/
def start (s : System n) (initialized created : Bool) : System n :=
  if s.publisher.running = true ∨ initialized = false ∨ created = false then s
  else
    { s with
      publisher := { s.publisher with running := true, serverFd := some s.sockets.acquired }
      acceptor := .testing
      sockets := s.sockets.acquire }

def stop (s : System n) : System n :=
  if s.publisher.running then
    { s with publisher := { s.publisher with running := false }, owner := .closing }
  else s

def advance (s : System n) : System n :=
  match s.owner with
  | .closing =>
    { s with
      publisher := { s.publisher with serverFd := none }
      sockets := s.sockets.releaseAll s.publisher.serverFd.toList
      owner := .joining }
  | .joining =>
    match s.acceptor with
    | .ended => { s with acceptor := .absent, owner := .clearing }
    | _ => s
  | .clearing =>
    { s with
      publisher := { s.publisher with subscribers := [] }
      connections := s.connections.releaseAll s.publisher.subscribers
      owner := .idle }
  | _ => s

def insert (s : System n) (fd : Nat) : System n :=
  { s with publisher := { s.publisher with subscribers := s.publisher.subscribers ++ [fd] } }

def acceptConnection (s : System n) (accepted : Bool) : Option Nat :=
  if accepted = true ∧ s.publisher.serverFd ≠ none then some s.connections.acquired else none

def acceptLoop (s : System n) (accepted : Bool) : System n :=
  match s.acceptor with
  | .testing => { s with acceptor := if s.publisher.running then .accepting else .ended }
  | .accepting =>
    match s.acceptConnection accepted with
    | some fd => { s with acceptor := .accepted fd, connections := s.connections.acquire }
    | none => { s with acceptor := .refused }
  | .accepted fd => { s with acceptor := if s.publisher.running then .adding fd else .ended }
  | .refused => { s with acceptor := if s.publisher.running then .testing else .ended }
  | .adding fd => { s.insert fd with acceptor := .testing }
  | _ => s

def absorb (s : System n) (i : Fin n) (accepted : Bool) : System n :=
  match s.tasks i with
  | .testing => s.goto i (if s.publisher.running then .accepting else .sending)
  | .accepting =>
    match s.acceptConnection accepted with
    | some fd => ({ s with connections := s.connections.acquire } : System n).goto i (.adding fd)
    | none => s.goto i .sending
  | .adding fd => (s.insert fd).goto i .testing
  | _ => s

def send (s : System n) (fails : Nat → Bool) : System n :=
  { s with
    publisher :=
      { s.publisher with subscribers := s.publisher.subscribers.filter fun fd => !fails fd }
    connections := s.connections.releaseAll (s.publisher.subscribers.filter fails) }

def step (s : System n) : Event n → System n
  | .start initialized created => if s.owner = .idle then s.start initialized created else s
  | .stop => if s.owner = .idle then s.stop else s
  | .owner => s.advance
  | .destroy =>
    if s.owner = .idle ∧ s.publisher.running = false ∧ ∀ i, s.tasks i = .idle then
      { s with publisher := { s.publisher with subscribers := [] }, owner := .destroyed }
    else s
  | .acceptLoop accepted => s.acceptLoop accepted
  | .publish i serialized =>
    if s.tasks i = .idle ∧ s.owner ≠ .destroyed ∧ s.publisher.running = true ∧
        serialized = true then
      s.goto i .testing
    else s
  | .absorb i accepted => s.absorb i accepted
  | .send i fails => if s.tasks i = .sending then (s.send fails).goto i .idle else s

/-- The connections that the object and the threads in it have. -/
def held (s : System n) : List Nat :=
  s.acceptor.carried ++ (List.finRange n).flatMap (fun i => (s.tasks i).carried) ++
    s.publisher.subscribers

end System

/-- Every socket and connection is closed once, or held. -/
structure Accounted {n : Nat} (s : System n) : Prop where
  sockets : s.sockets.Holds s.publisher.serverFd.toList
  connections : s.connections.Holds s.held

/-- A step that drops a connection: `acceptLoop` accepts one and then finds that it is to end, or
the object is destroyed when a thread in `publish` has inserted one after `stop` cleared the set. -/
def Drops {n : Nat} (s : System n) : Event n → Prop
  | .acceptLoop _ => s.publisher.running = false ∧ ∃ fd, s.acceptor = .accepted fd
  | .destroy => s.owner = .idle ∧ s.publisher.running = false ∧ (∀ i, s.tasks i = .idle) ∧
      s.publisher.subscribers ≠ []
  | _ => False

/-- While the publisher does not run, and `stop` has come so far, there is no server socket and no
thread. -/
structure Settled {n : Nat} (s : System n) : Prop where
  running : s.publisher.running = true → s.owner = .idle
  closed : s.publisher.running = false → s.owner ≠ .closing → s.publisher.serverFd = none
  joined : s.publisher.running = false → s.owner ≠ .closing → s.owner ≠ .joining →
    s.acceptor = .absent

section Held
variable {n : Nat}

theorem insert_held (s : System n) (fd : Nat) : (s.insert fd).held = s.held ++ [fd] := by
  simp [System.held,System.insert,List.append_assoc]

theorem goto_held (s : System n) (i : Fin n) :
    ∃ rest, s.held.Perm ((s.tasks i).carried ++ rest) ∧
      ∀ T, (s.goto i T).held.Perm (T.carried ++ rest) := by
  obtain ⟨rest,hrest⟩ := Ledger.flatMap_update_perm (List.nodup_finRange n) (List.mem_finRange i)
    fun j => (s.tasks j).carried
  have hgoto : ∀ T, (s.goto i T).held.Perm
      (T.carried ++ (rest ++ (s.acceptor.carried ++ s.publisher.subscribers))) := by
    intro T
    have htasks : (fun j => ((s.goto i T).tasks j).carried) =
        Function.update (fun j => (s.tasks j).carried) i T.carried :=
      Function.comp_update Task.carried s.tasks i T
    rw [System.held,htasks]
    have hall := ((hrest T.carried).append_left s.acceptor.carried).append_right
      s.publisher.subscribers
    refine hall.trans ?_
    rw [List.append_assoc,List.append_assoc]
    refine (List.perm_append_comm_assoc _ _ _).trans (List.Perm.append_left _ ?_)
    exact List.perm_append_comm_assoc _ _ _
  refine ⟨_,?_,hgoto⟩
  have hself : s.goto i (s.tasks i) = s := by
    rw [System.goto,Function.update_eq_self]
  have hi := hgoto (s.tasks i)
  rwa [hself] at hi

end Held

section Steps
variable {n : Nat} {s s' : System n}

theorem Settled.of_eq (h : Settled s) (hrunning : s'.publisher.running = s.publisher.running)
    (hfd : s'.publisher.serverFd = s.publisher.serverFd) (howner : s'.owner = s.owner)
    (hacceptor : s.acceptor = .absent → s'.acceptor = .absent) : Settled s' := by
  refine ⟨?_,?_,?_⟩
  · rw [hrunning,howner]
    exact h.running
  · rw [hrunning,hfd,howner]
    exact h.closed
  · rw [hrunning,howner]
    exact fun hr hc hj => hacceptor (h.joined hr hc hj)

theorem absorb_frame (s : System n) (i : Fin n) (accepted : Bool) :
    (s.absorb i accepted).publisher.running = s.publisher.running ∧
      (s.absorb i accepted).publisher.serverFd = s.publisher.serverFd ∧
      (s.absorb i accepted).owner = s.owner ∧ (s.absorb i accepted).acceptor = s.acceptor ∧
      (s.absorb i accepted).sockets = s.sockets := by
  unfold System.absorb
  split
  · exact ⟨rfl,rfl,rfl,rfl,rfl⟩
  · split <;> exact ⟨rfl,rfl,rfl,rfl,rfl⟩
  · exact ⟨rfl,rfl,rfl,rfl,rfl⟩
  · exact ⟨rfl,rfl,rfl,rfl,rfl⟩

theorem acceptLoop_frame (s : System n) (accepted : Bool) :
    (s.acceptLoop accepted).publisher.running = s.publisher.running ∧
      (s.acceptLoop accepted).publisher.serverFd = s.publisher.serverFd ∧
      (s.acceptLoop accepted).owner = s.owner ∧ (s.acceptLoop accepted).sockets = s.sockets ∧
      (s.acceptor = .absent → (s.acceptLoop accepted).acceptor = .absent) := by
  unfold System.acceptLoop
  cases hacceptor : s.acceptor with
  | accepting =>
    dsimp only
    split <;> exact ⟨rfl,rfl,rfl,rfl,nofun⟩
  | absent => exact ⟨rfl,rfl,rfl,rfl,fun _ => hacceptor⟩
  | _ => exact ⟨rfl,rfl,rfl,rfl,nofun⟩

theorem advance_settled (h : Settled s) : Settled s.advance := by
  have hstopped : s.owner ≠ .idle → s.publisher.running = false := by
    intro hne
    cases hr : s.publisher.running with
    | false => rfl
    | true => exact absurd (h.running hr) hne
  unfold System.advance
  cases howner : s.owner with
  | closing =>
    have hr := hstopped (by rw [howner]; exact nofun)
    exact ⟨fun hr' => absurd (hr.symm.trans hr') nofun,fun _ _ => rfl,fun _ _ hj => absurd rfl hj⟩
  | joining =>
    have hr := hstopped (by rw [howner]; exact nofun)
    cases hacceptor : s.acceptor with
    | ended =>
      exact ⟨fun hr' => absurd (hr.symm.trans hr') nofun,
        fun _ _ => h.closed hr (by rw [howner]; exact nofun),fun _ _ _ => rfl⟩
    | _ => exact h
  | clearing =>
    have hr := hstopped (by rw [howner]; exact nofun)
    exact ⟨fun _ => rfl,fun _ _ => h.closed hr (by rw [howner]; exact nofun),
      fun _ _ _ => h.joined hr (by rw [howner]; exact nofun) (by rw [howner]; exact nofun)⟩
  | idle => exact h
  | destroyed => exact h

theorem step_settled (h : Settled s) (e : Event n) : Settled (s.step e) := by
  cases e with
  | start initialized created =>
    simp only [System.step,System.start]
    split
    · rename_i howner
      split
      · exact h
      · exact ⟨fun _ => howner,nofun,nofun⟩
    · exact h
  | stop =>
    simp only [System.step,System.stop]
    split
    · split
      · exact ⟨nofun,fun _ hne => absurd rfl hne,fun _ hne => absurd rfl hne⟩
      · exact h
    · exact h
  | owner => exact advance_settled h
  | destroy =>
    simp only [System.step]
    split
    · rename_i hdone
      obtain ⟨howner,hr,_⟩ := hdone
      have hc : s.owner ≠ .closing := by rw [howner]; exact nofun
      have hj : s.owner ≠ .joining := by rw [howner]; exact nofun
      exact ⟨fun hr' => absurd (hr.symm.trans hr') nofun,fun _ _ => h.closed hr hc,
        fun _ _ _ => h.joined hr hc hj⟩
    · exact h
  | acceptLoop accepted =>
    obtain ⟨hr,hfd,howner,_,habsent⟩ := acceptLoop_frame s accepted
    exact h.of_eq hr hfd howner habsent
  | publish i serialized =>
    simp only [System.step]
    split
    · exact h.of_eq rfl rfl rfl id
    · exact h
  | absorb i accepted =>
    obtain ⟨hr,hfd,howner,hacceptor,_⟩ := absorb_frame s i accepted
    exact h.of_eq hr hfd howner hacceptor.trans
  | send i fails =>
    simp only [System.step]
    split
    · exact h.of_eq rfl rfl rfl id
    · exact h

theorem start_accounted (h : Accounted s) (hs : Settled s) (howner : s.owner = .idle)
    (initialized created : Bool) : Accounted (s.start initialized created) := by
  unfold System.start
  by_cases hskip : s.publisher.running = true ∨ initialized = false ∨ created = false
  · rw [if_pos hskip]
    exact h
  · rw [if_neg hskip]
    have hr : s.publisher.running = false := by simpa using (not_or.mp hskip).1
    have hc : s.owner ≠ .closing := by rw [howner]; exact nofun
    have hj : s.owner ≠ .joining := by rw [howner]; exact nofun
    have hsockets := h.sockets
    have hconnections := h.connections
    rw [hs.closed hr hc] at hsockets
    rw [System.held,hs.joined hr hc hj] at hconnections
    exact ⟨hsockets.acquire,hconnections⟩

theorem advance_accounted (h : Accounted s) : Accounted s.advance := by
  unfold System.advance
  cases howner : s.owner with
  | closing =>
    have hsockets : s.sockets.Holds (s.publisher.serverFd.toList ++ []) := by
      rw [List.append_nil]
      exact h.sockets
    exact ⟨hsockets.releaseAll,h.connections⟩
  | joining =>
    cases hacceptor : s.acceptor with
    | ended =>
      have hconnections := h.connections
      rw [System.held,hacceptor] at hconnections
      exact ⟨h.sockets,hconnections⟩
    | _ => exact h
  | clearing =>
    have hall := h.connections.perm List.perm_append_comm
    refine ⟨h.sockets,hall.releaseAll.perm ?_⟩
    exact List.Perm.of_eq (List.append_nil _).symm
  | idle => exact h
  | destroyed => exact h

theorem destroy_accounted_iff (h : Accounted s) :
    Accounted (s.step .destroy) ↔ ¬ Drops s .destroy := by
  simp only [System.step,Drops]
  by_cases hdone : s.owner = .idle ∧ s.publisher.running = false ∧ ∀ i, s.tasks i = .idle
  · rw [if_pos hdone]
    cases hsubs : s.publisher.subscribers with
    | nil =>
      have hconnections := h.connections
      rw [System.held,hsubs] at hconnections
      exact iff_of_true ⟨h.sockets,hconnections⟩ fun hdrops => hdrops.2.2.2 rfl
    | cons fd fds =>
      refine iff_of_false (fun h' => ?_) (not_not_intro ⟨hdone.1,hdone.2.1,hdone.2.2,nofun⟩)
      have hfd : fd ∈ s.publisher.subscribers := by rw [hsubs]; exact List.mem_cons_self
      have hdisjoint := (List.nodup_append.mp h.connections.nodup).2.2
      refine h.connections.lost (x := fd) (List.mem_append_right _ hfd) (Nat.le_refl _) rfl ?_
        h'.connections
      intro hmem
      rcases List.mem_append.mp hmem with hothers | hnil
      · exact hdisjoint fd hothers fd hfd rfl
      · cases hnil
  · rw [if_neg hdone]
    exact iff_of_true h fun hdrops => hdone ⟨hdrops.1,hdrops.2.1,hdrops.2.2.1⟩

theorem acceptConnection_eq_some {accepted : Bool} {fd : Nat}
    (h : s.acceptConnection accepted = some fd) : fd = s.connections.acquired := by
  unfold System.acceptConnection at h
  split at h
  · exact (Option.some.inj h).symm
  · cases h

theorem acceptLoop_cases (s : System n) (accepted : Bool) :
    (¬ Drops s (.acceptLoop accepted) ∧ (s.acceptLoop accepted).connections = s.connections ∧
      s.held.Perm (s.acceptLoop accepted).held) ∨
    (¬ Drops s (.acceptLoop accepted) ∧
      (s.acceptLoop accepted).connections = s.connections.acquire ∧
      (s.acceptLoop accepted).held = s.connections.acquired :: s.held) ∨
    (Drops s (.acceptLoop accepted) ∧ (s.acceptLoop accepted).connections = s.connections ∧
      ∃ fd, s.held = fd :: (s.acceptLoop accepted).held) := by
  have hkeeps : (∀ fd, s.acceptor ≠ .accepted fd) → ¬ Drops s (.acceptLoop accepted) :=
    fun hne hdrops => hdrops.2.elim hne
  have hquiet : ∀ T : Acceptor, s.acceptor.carried = T.carried →
      s.held.Perm ({ s with acceptor := T } : System n).held := by
    intro T hT
    rw [System.held,hT]
    exact List.Perm.refl _
  cases hacceptor : s.acceptor with
  | absent =>
    refine .inl ⟨hkeeps (by rw [hacceptor]; exact nofun),?_⟩
    rw [show s.acceptLoop accepted = s by simp only [System.acceptLoop,hacceptor]]
    exact ⟨rfl,List.Perm.refl _⟩
  | ended =>
    refine .inl ⟨hkeeps (by rw [hacceptor]; exact nofun),?_⟩
    rw [show s.acceptLoop accepted = s by simp only [System.acceptLoop,hacceptor]]
    exact ⟨rfl,List.Perm.refl _⟩
  | testing =>
    refine .inl ⟨hkeeps (by rw [hacceptor]; exact nofun),?_⟩
    simp only [System.acceptLoop,hacceptor]
    refine ⟨trivial,hquiet _ ?_⟩
    rw [hacceptor]
    split <;> rfl
  | refused =>
    refine .inl ⟨hkeeps (by rw [hacceptor]; exact nofun),?_⟩
    simp only [System.acceptLoop,hacceptor]
    refine ⟨trivial,hquiet _ ?_⟩
    rw [hacceptor]
    split <;> rfl
  | accepting =>
    have hno := hkeeps (by rw [hacceptor]; exact nofun)
    simp only [System.acceptLoop,hacceptor]
    cases haccept : s.acceptConnection accepted with
    | none => exact .inl ⟨hno,rfl,hquiet _ (by rw [hacceptor]; rfl)⟩
    | some fd =>
      refine .inr (.inl ⟨hno,rfl,?_⟩)
      rw [acceptConnection_eq_some haccept,System.held,System.held,hacceptor]
      rfl
  | adding fd =>
    refine .inl ⟨hkeeps (by rw [hacceptor]; exact nofun),?_⟩
    simp only [System.acceptLoop,hacceptor]
    refine ⟨rfl,?_⟩
    have hheld : s.held = [fd] ++ ({ s with acceptor := .testing } : System n).held := by
      rw [System.held,hacceptor]
      rfl
    rw [hheld]
    refine List.perm_append_comm.trans (List.Perm.of_eq ?_)
    exact (insert_held { s with acceptor := .testing } fd).symm
  | accepted fd =>
    cases hrunning : s.publisher.running with
    | true =>
      refine .inl ⟨fun hdrops => absurd (hrunning.symm.trans hdrops.1) nofun,?_⟩
      simp only [System.acceptLoop,hacceptor,hrunning,if_true]
      exact ⟨trivial,hquiet _ (by rw [hacceptor]; rfl)⟩
    | false =>
      refine .inr (.inr ⟨⟨hrunning,fd,hacceptor⟩,?_⟩)
      simp only [System.acceptLoop,hacceptor,hrunning]
      refine ⟨trivial,fd,?_⟩
      rw [System.held,hacceptor]
      rfl

theorem acceptLoop_accounted_iff (h : Accounted s) (accepted : Bool) :
    Accounted (s.acceptLoop accepted) ↔ ¬ Drops s (.acceptLoop accepted) := by
  obtain ⟨_,hfd,_,hsockets,_⟩ := acceptLoop_frame s accepted
  have hframe : (s.acceptLoop accepted).sockets.Holds
      (s.acceptLoop accepted).publisher.serverFd.toList := by
    rw [hsockets,hfd]
    exact h.sockets
  rcases acceptLoop_cases s accepted with ⟨hno,heq,hperm⟩ | ⟨hno,heq,hheld⟩ | ⟨hdrops,heq,fd,hheld⟩
  · exact iff_of_true ⟨hframe,by rw [heq]; exact h.connections.perm hperm⟩ hno
  · exact iff_of_true ⟨hframe,by rw [heq,hheld]; exact h.connections.acquire⟩ hno
  · refine iff_of_false (fun h' => ?_) (not_not_intro hdrops)
    have hconnections := h.connections
    rw [hheld] at hconnections
    exact hconnections.lost List.mem_cons_self (Nat.le_of_eq (congrArg _ heq.symm))
      (by rw [heq]) (List.nodup_cons.mp hconnections.nodup).1 h'.connections

theorem goto_accounted (h : Accounted s) {i : Fin n} {T : Task}
    (hT : T.carried = (s.tasks i).carried) : Accounted (s.goto i T) := by
  obtain ⟨rest,hself,hgoto⟩ := goto_held s i
  refine ⟨h.sockets,h.connections.perm (hself.trans ?_)⟩
  rw [← hT]
  exact (hgoto T).symm

theorem absorb_accounted (h : Accounted s) (i : Fin n) (accepted : Bool) :
    Accounted (s.absorb i accepted) := by
  obtain ⟨rest,hself,hgoto⟩ := goto_held s i
  unfold System.absorb
  cases htask : s.tasks i with
  | idle => exact h
  | sending => exact h
  | testing =>
    refine goto_accounted h ?_
    rw [htask]
    split <;> rfl
  | accepting =>
    rw [htask] at hself
    cases haccept : s.acceptConnection accepted with
    | none => exact goto_accounted h (by rw [htask]; rfl)
    | some fd =>
      refine ⟨h.sockets,?_⟩
      have hnew := (h.connections.perm hself).acquire
      rw [← acceptConnection_eq_some haccept] at hnew
      exact hnew.perm (hgoto (.adding fd)).symm
  | adding fd =>
    rw [htask] at hself
    refine ⟨h.sockets,h.connections.perm (hself.trans ?_)⟩
    have hinsert : ((s.insert fd).goto i .testing).held = (s.goto i .testing).held ++ [fd] :=
      insert_held (s.goto i .testing) fd
    rw [hinsert]
    exact List.perm_append_comm.trans ((hgoto .testing).symm.append_right [fd])

theorem send_accounted (h : Accounted s) (fails : Nat → Bool) : Accounted (s.send fails) := by
  have hsplit : s.held.Perm (s.publisher.subscribers.filter fails ++ (s.send fails).held) := by
    have hsubs := (List.filter_append_perm fails s.publisher.subscribers).symm
    rw [System.held,System.held]
    exact (hsubs.append_left _).trans (List.perm_append_comm_assoc _ _ _)
  exact ⟨h.sockets,(h.connections.perm hsplit).releaseAll⟩

theorem step_accounted_iff (h : Accounted s) (hs : Settled s) (e : Event n) :
    Accounted (s.step e) ↔ ¬ Drops s e := by
  cases e with
  | destroy => exact destroy_accounted_iff h
  | acceptLoop accepted => exact acceptLoop_accounted_iff h accepted
  | start initialized created =>
    refine iff_of_true ?_ id
    simp only [System.step]
    split
    · exact start_accounted h hs ‹_› initialized created
    · exact h
  | stop =>
    refine iff_of_true ?_ id
    simp only [System.step,System.stop]
    split
    · split
      · exact ⟨h.sockets,h.connections⟩
      · exact h
    · exact h
  | owner => exact iff_of_true (advance_accounted h) id
  | publish i serialized =>
    refine iff_of_true ?_ id
    simp only [System.step]
    split
    · rename_i hidle
      exact goto_accounted h (by rw [hidle.1]; rfl)
    · exact h
  | absorb i accepted => exact iff_of_true (absorb_accounted h i accepted) id
  | send i fails =>
    refine iff_of_true ?_ id
    simp only [System.step]
    split
    · rename_i hsending
      refine goto_accounted (send_accounted h fails) ?_
      show [] = (s.tasks i).carried
      rw [hsending]
      rfl
    · exact h

end Steps

abbrev systemAt {n : Nat} (σ : Nat → Event n) (k : Nat) : System n :=
  stateAt System.step (.initial n) σ k

/-- In every run of a publisher that is started, stopped and destroyed while any number of threads
publish, each socket and connection is closed once or held by the object or by one thread, so long
as `acceptLoop` never accepts a connection and then finds `running_` cleared, and no `publish` has
inserted a connection after the last `stop` when the object is destroyed. -/
theorem connections_accounted_iff {n : Nat} (σ : Nat → Event n) (m : Nat) :
    (∀ k, k < m → Accounted (systemAt σ (k+1))) ↔
      ∀ k, k < m → ¬ Drops (systemAt σ k) (σ k) := by
  have hinitial : Accounted (System.initial n) := by
    refine ⟨.initial,?_⟩
    have hheld : (System.initial n).held = [] := by
      simp [System.held,System.initial,Acceptor.carried,Task.carried]
    rw [hheld]
    exact .initial
  exact forall_iff_of_invariant (I := fun k => Accounted (systemAt σ k) ∧ Settled (systemAt σ k))
    ⟨hinitial,nofun,fun _ _ => rfl,fun _ _ _ => rfl⟩
    (fun _ ⟨h,hs⟩ hkeeps => ⟨(step_accounted_iff h hs _).mpr hkeeps,step_settled hs _⟩)
    fun _ ⟨h,hs⟩ => step_accounted_iff h hs _

end LapCom.Socket.EventLifecycle
