import LapCom.ComTypes
import LapCom.Container.Dictionary
import LapCom.Kernel.Descriptors
import LapCom.Machine.Run

set_option autoImplicit false

namespace LapCom.Socket.ServerFiles
open LapCom.Container LapCom.Kernel LapCom.Machine

/-- A path that `sun_path` holds with its end. -/
structure SocketPath where
  bytes : List Byte
  length_le : bytes.length ≤ 107
  deriving DecidableEq

def SocketPath.cleared : SocketPath := ⟨[],by decide⟩

/-- Which file a path leads to; more than one path may lead to one file. -/
structure Names (Name : Type) where
  resolve : SocketPath → Option Name
  resolve_cleared : resolve .cleared = none

/-- The manager, the descriptors of the process, the socket that each file name refers to, and what
the callers know: the descriptors they were given and have not closed, and what the last
`createServerSocket` for a path has returned, with its socket. -/
structure State (Name : Type) where
  initialized : Bool
  sockets : Dictionary Nat SocketPath
  descriptors : Descriptors
  files : Name → Option Nat
  given : Nat → Bool
  latest : SocketPath → Option (Nat × Nat)

/-- What the system calls return; `socket` is the descriptor. -/
structure ServerCalls where
  socket : Option Nat
  configured : Bool
  unlinked : Bool
  bound : Bool
  listening : Bool
  unlinkedAgain : Bool

structure ClientCalls where
  socket : Option Nat
  configured : Bool
  connected : Bool

/-- The calls. `listens` is false for datagrams only. -/
inductive Call where
  | init
  | deinit (unlinked : Nat → Bool)
  | createServerSocket (path : SocketPath) (listens : Bool) (calls : ServerCalls)
  | createClientSocket (calls : ClientCalls)
  | acceptConnection (serverFd : Nat) (client : Option Nat)
  | closeSocket (fd : Nat) (unlinked : Bool)

section Model
variable {Name : Type} [DecidableEq Name] (names : Names Name)

namespace Names

def unlink (files : Name → Option Nat) (path : SocketPath) (unlinked : Bool) :
    Name → Option Nat :=
  match names.resolve path with
  | some n => if unlinked then Function.update files n none else files
  | none => files

def bind (files : Name → Option Nat) (path : SocketPath) (x : Nat) (bound : Bool) :
    Option (Name → Option Nat) :=
  if bound then
    match names.resolve path with
    | some n => if files n = none then some (Function.update files n (some x)) else none
    | none => some files
  else none

/-- The file of a server goes with its descriptor. -/
def remove (files : Name → Option Nat) (path : SocketPath) (unlinked : Bool) :
    Name → Option Nat :=
  if path.bytes.isEmpty then files else names.unlink files path unlinked

end Names

namespace State

def initial : State Name := ⟨false,∅,.initial,fun _ => none,fun _ => false,fun _ => none⟩

def close (s : State Name) (fd : Nat) : State Name :=
  { s with descriptors := s.descriptors.close fd }

def free (s : State Name) (fd : Option Nat) : Option Nat :=
  fd.filter fun fd => (s.descriptors.owner fd).isNone

def register (s : State Name) (fd : Nat) (path : SocketPath) : State Name :=
  { s with sockets := s.sockets.insert fd path, given := Function.update s.given fd true }

def createServerSocket (s : State Name) (path : SocketPath) (listens : Bool)
    (calls : ServerCalls) : State Name :=
  let failed := { s with latest := Function.update s.latest path none }
  if s.initialized then
    match s.free calls.socket with
    | none => failed
    | some fd =>
      let x := s.descriptors.accepted
      let opened := { failed with descriptors := s.descriptors.accept fd }
      if calls.configured then
        let files := names.unlink s.files path calls.unlinked
        match names.bind files path x calls.bound with
        | none => { opened.close fd with files := files }
        | some files =>
          if listens && !calls.listening then
            { opened.close fd with files := names.unlink files path calls.unlinkedAgain }
          else
            { opened.register fd path with
              files := files, latest := Function.update s.latest path (some (fd,x)) }
      else opened.close fd
  else failed

def createClientSocket (s : State Name) (calls : ClientCalls) : State Name :=
  if s.initialized then
    match s.free calls.socket with
    | none => s
    | some fd =>
      let opened := { s with descriptors := s.descriptors.accept fd }
      if calls.configured && calls.connected then opened.register fd .cleared
      else opened.close fd
  else s

def acceptConnection (s : State Name) (serverFd : Nat) (client : Option Nat) : State Name :=
  if (s.descriptors.owner serverFd).isNone then s
  else match s.free client with
    | none => s
    | some fd =>
      let s := { s with descriptors := s.descriptors.accept fd }
      match s.sockets.lookup serverFd with
      | some _ => s.register fd .cleared
      | none => { s with given := Function.update s.given fd true }

def closeSocket (s : State Name) (fd : Nat) (unlinked : Bool) : State Name :=
  if s.given fd then
    let closed := { s.close fd with given := Function.update s.given fd false }
    match s.sockets.lookup fd with
    | some path =>
      { closed with files := names.remove s.files path unlinked, sockets := s.sockets.erase fd }
    | none => closed
  else s

def closeAll (unlinked : Nat → Bool) : List (Σ _ : Nat, SocketPath) → State Name → State Name
  | [], s => s
  | ⟨fd,path⟩ :: rest, s =>
    closeAll unlinked rest
      { s.close fd with files := names.remove s.files path (unlinked fd) }

def deinit (s : State Name) (unlinked : Nat → Bool) : State Name :=
  if s.initialized then
    { s.closeAll names unlinked s.sockets.entries with sockets := ∅, initialized := false }
  else s

end State

def step (s : State Name) : Call → State Name
  | .init => { s with initialized := true }
  | .deinit unlinked => s.deinit names unlinked
  | .createServerSocket path listens calls => s.createServerSocket names path listens calls
  | .createClientSocket calls => s.createClientSocket calls
  | .acceptConnection serverFd client => s.acceptConnection serverFd client
  | .closeSocket fd unlinked => s.closeSocket names fd unlinked

end Model

section Servers
variable {Name : Type} (names : Names Name)

/-- The last call for `p` has returned `fd`, which is still open with the socket `x`. -/
def State.Live (s : State Name) (p : SocketPath) (fd x : Nat) : Prop :=
  s.latest p = some (fd,x) ∧ s.descriptors.owner fd = some x

def Named (s : State Name) : Prop :=
  ∀ p fd x n, s.Live p fd x → names.resolve p = some n → s.files n = some x

/-- Another server than `fd` is live under a path to the same file, and under another one than
`except`. -/
def Shared (s : State Name) (path : SocketPath) (fd : Option Nat) (except : Option SocketPath) :
    Prop :=
  ∃ p a x n, s.Live p a x ∧ some a ≠ fd ∧ some p ≠ except ∧ names.resolve p = some n ∧
    names.resolve path = some n

/-- A call of `createServerSocket` removes what the name of its path refers to. -/
def unlinksOld (s : State Name) (calls : ServerCalls) : Bool :=
  s.initialized && (s.free calls.socket).isSome && calls.configured && calls.unlinked

/-- The call removes the name of a server that it neither closes nor replaces. -/
def TakesName (s : State Name) : Call → Prop
  | .createServerSocket path _ calls =>
    unlinksOld s calls = true ∧ Shared names s path none (some path)
  | .closeSocket fd unlinked =>
    s.given fd = true ∧ unlinked = true ∧
      ∃ path, s.sockets.lookup fd = some path ∧ Shared names s path (some fd) none
  | _ => False

structure Valid (s : State Name) : Prop where
  descriptors : s.descriptors.Valid
  latest_lt : ∀ p fd x, s.latest p = some (fd,x) → x < s.descriptors.accepted
  registered : ∀ p fd x, s.Live p fd x → s.sockets.lookup fd = some p
  opened : ∀ fd p, s.sockets.lookup fd = some p → s.descriptors.owner fd ≠ none

/-- The open descriptors and their entries stay as they are; there may be a new one. -/
structure Opens (s : State Name) (d : Descriptors) (sockets : Dictionary Nat SocketPath) :
    Prop where
  descriptors : d.Valid
  accepted_le : s.descriptors.accepted ≤ d.accepted
  owner : ∀ fd x, x < s.descriptors.accepted →
    (d.owner fd = some x ↔ s.descriptors.owner fd = some x)
  lookup : ∀ fd, s.descriptors.owner fd ≠ none → sockets.lookup fd = s.sockets.lookup fd
  opened : ∀ fd p, sockets.lookup fd = some p → d.owner fd ≠ none

/-- What `createServerSocket` can do to a state; `unlinks` says that its first `unlink` succeeds. -/
structure Outcome (s : State Name) (path : SocketPath) (unlinks : Bool) (s' : State Name) :
    Prop where
  latest_ne : ∀ p, p ≠ path → s'.latest p = s.latest p
  latest_path : s'.latest path = none ∨ ∃ fd, s'.latest path = some (fd,s.descriptors.accepted) ∧
    s.descriptors.accepted < s'.descriptors.accepted ∧ s'.sockets.lookup fd = some path ∧
    ∀ n, names.resolve path = some n → s'.files n = some s.descriptors.accepted
  opens : Opens s s'.descriptors s'.sockets
  files_ne : ∀ n, names.resolve path ≠ some n → s'.files n = s.files n
  files_eq : ∀ n, names.resolve path = some n →
    if unlinks then s'.files n = none ∨ s'.files n = some s.descriptors.accepted
    else s.files n ≠ none → s'.files n = s.files n

section Outcome
variable {names} {s s' : State Name} {path : SocketPath} {unlinks : Bool}

theorem free_eq_some {fd : Option Nat} {a : Nat} (h : s.free fd = some a) :
    s.descriptors.owner a = none := by
  have hfree := Option.filter_eq_some_iff.mp h
  simpa using hfree.2

theorem Opens.closed (hvalid : Valid s) {d : Descriptors} (hd : d.Valid)
    (howner : d.owner = s.descriptors.owner) (haccepted : s.descriptors.accepted ≤ d.accepted) :
    Opens s d s.sockets := by
  refine ⟨hd,haccepted,fun fd x _ => ?_,fun _ _ => rfl,fun fd p hlookup => ?_⟩
  · rw [howner]
  · rw [howner]
    exact hvalid.opened fd p hlookup

theorem Opens.opened_and_closed (hvalid : Valid s) {fd : Nat}
    (hopen : s.descriptors.owner fd = none) :
    Opens s ((s.descriptors.accept fd).close fd) s.sockets := by
  refine .closed hvalid ((hvalid.descriptors.accept hopen).close fd) ?_ ?_
  · funext a
    by_cases ha : a = fd
    · rw [ha,Descriptors.close_owner_self,hopen]
    · rw [Descriptors.close_owner_of_ne _ ha,Descriptors.accept_owner_of_ne _ ha]
  · rw [Descriptors.close_accepted]
    exact Nat.le_succ _

theorem Opens.kept (hvalid : Valid s) {fd : Nat} (hopen : s.descriptors.owner fd = none) :
    Opens s (s.descriptors.accept fd) s.sockets := by
  refine ⟨hvalid.descriptors.accept hopen,Nat.le_succ _,?_,fun _ _ => rfl,?_⟩
  · intro a x hx
    by_cases ha : a = fd
    · subst ha
      rw [Descriptors.accept_owner_self,hopen]
      simp only [Option.some.injEq,reduceCtorEq,iff_false]
      omega
    · rw [Descriptors.accept_owner_of_ne _ ha]
  · intro a p hlookup
    have ha : a ≠ fd := by
      rintro rfl
      exact hvalid.opened a p hlookup hopen
    rw [Descriptors.accept_owner_of_ne _ ha]
    exact hvalid.opened a p hlookup

theorem Opens.registered (hvalid : Valid s) {fd : Nat} (hopen : s.descriptors.owner fd = none)
    (path : SocketPath) :
    Opens s (s.descriptors.accept fd) (s.sockets.insert fd path) := by
  have hkept := Opens.kept hvalid hopen
  refine ⟨hkept.descriptors,hkept.accepted_le,hkept.owner,?_,?_⟩
  · intro a ha
    have hne : a ≠ fd := by
      rintro rfl
      exact ha hopen
    exact AList.lookup_insert_ne hne
  · intro a p hlookup
    by_cases ha : a = fd
    · subst ha
      simp
    · exact hkept.opened a p ((AList.lookup_insert_ne ha).symm.trans hlookup)

theorem Opens.live_iff (h : Opens s s'.descriptors s'.sockets) (hvalid : Valid s)
    {p : SocketPath} (hlatest : s'.latest p = s.latest p) (fd x : Nat) :
    s'.Live p fd x ↔ s.Live p fd x := by
  rw [State.Live,State.Live,hlatest]
  exact and_congr_right fun hsome => h.owner fd x (hvalid.latest_lt p fd x hsome)

theorem Opens.valid (h : Opens s s'.descriptors s'.sockets) (hvalid : Valid s)
    (hlatest : s'.latest = s.latest) : Valid s' := by
  refine ⟨h.descriptors,fun p fd x hsome => ?_,fun p fd x hlive => ?_,h.opened⟩
  · rw [hlatest] at hsome
    exact Nat.lt_of_lt_of_le (hvalid.latest_lt p fd x hsome) h.accepted_le
  · have hlive := (h.live_iff hvalid (congrFun hlatest p) fd x).mp hlive
    rw [h.lookup fd (by simp [hlive.2])]
    exact hvalid.registered p fd x hlive

theorem Opens.named (h : Opens s s'.descriptors s'.sockets) (hvalid : Valid s)
    (hnamed : Named names s) (hlatest : s'.latest = s.latest) (hfiles : s'.files = s.files) :
    Named names s' := by
  intro p fd x n hlive hn
  rw [hfiles]
  exact hnamed p fd x n ((h.live_iff hvalid (congrFun hlatest p) fd x).mp hlive) hn

theorem Outcome.failed {d : Descriptors} {files : Name → Option Nat} (h : Opens s d s.sockets)
    (hne : ∀ n, names.resolve path ≠ some n → files n = s.files n)
    (heq : ∀ n, names.resolve path = some n →
      if unlinks then files n = none ∨ files n = some s.descriptors.accepted
      else s.files n ≠ none → files n = s.files n) :
    Outcome names s path unlinks
      { s with
        latest := Function.update s.latest path none, descriptors := d, files := files } :=
  ⟨fun _ hp => Function.update_of_ne hp _ _,.inl (Function.update_self _ _ _),h,hne,heq⟩

theorem Outcome.live_path (h : Outcome names s path unlinks s') {fd x : Nat}
    (hlive : s'.Live path fd x) : s'.sockets.lookup fd = some path ∧
      ∀ n, names.resolve path = some n → s'.files n = some x := by
  rcases h.latest_path with hnone | ⟨a,hsome,_,hlookup,hfiles⟩
  · rw [hlive.1] at hnone
    cases hnone
  · have heq := hlive.1.symm.trans hsome
    simp only [Option.some.injEq,Prod.mk.injEq] at heq
    obtain ⟨rfl,rfl⟩ := heq
    exact ⟨hlookup,hfiles⟩

theorem Outcome.valid (h : Outcome names s path unlinks s') (hvalid : Valid s) : Valid s' := by
  refine ⟨h.opens.descriptors,fun p fd x hlatest => ?_,fun p fd x hlive => ?_,h.opens.opened⟩
  · by_cases hp : p = path
    · subst hp
      rcases h.latest_path with hnone | ⟨a,hsome,hlt,_⟩
      · rw [hlatest] at hnone
        cases hnone
      · rw [hlatest] at hsome
        simp only [Option.some.injEq,Prod.mk.injEq] at hsome
        omega
    · rw [h.latest_ne p hp] at hlatest
      exact Nat.lt_of_lt_of_le (hvalid.latest_lt p fd x hlatest) h.opens.accepted_le
  · by_cases hp : p = path
    · subst hp
      exact (h.live_path hlive).1
    · have hlive := (h.opens.live_iff hvalid (h.latest_ne p hp) fd x).mp hlive
      rw [h.opens.lookup fd (by simp [hlive.2])]
      exact hvalid.registered p fd x hlive

/-- The other servers keep their names just where the file of `path` belongs to none of them, or is
not removed. -/
theorem Outcome.named_iff (h : Outcome names s path unlinks s') (hvalid : Valid s)
    (hnamed : Named names s) :
    Named names s' ↔ ¬ (unlinks = true ∧ Shared names s path none (some path)) := by
  constructor
  · rintro hnamed' ⟨hunlinks,p,fd,x,n,hlive,_,hp,hn,hpath⟩
    have hne : p ≠ path := fun heq => hp (congrArg some heq)
    have hlive' := (h.opens.live_iff hvalid (h.latest_ne p hne) fd x).mpr hlive
    have hlost := h.files_eq n hpath
    rw [if_pos hunlinks,hnamed' p fd x n hlive' hn] at hlost
    have hlt := hvalid.latest_lt p fd x hlive.1
    simp only [reduceCtorEq,Option.some.injEq,false_or] at hlost
    omega
  · intro hkeeps p fd x n hlive hn
    by_cases hp : p = path
    · subst hp
      exact (h.live_path hlive).2 n hn
    · have hlive := (h.opens.live_iff hvalid (h.latest_ne p hp) fd x).mp hlive
      have hfile := hnamed p fd x n hlive hn
      by_cases hpath : names.resolve path = some n
      · have hunlinks : ¬ unlinks = true := fun hunlinks =>
          hkeeps ⟨hunlinks,p,fd,x,n,hlive,by simp,by simpa using hp,hn,hpath⟩
        have hkept := h.files_eq n hpath
        rw [if_neg hunlinks,hfile] at hkept
        exact hkept (by simp)
      · rw [h.files_ne n hpath]
        exact hfile

end Outcome

section Calls
variable {s s' : State Name}

theorem createClientSocket_opens (hvalid : Valid s) (calls : ClientCalls) :
    Opens s (s.createClientSocket calls).descriptors (s.createClientSocket calls).sockets ∧
      (s.createClientSocket calls).latest = s.latest ∧
      (s.createClientSocket calls).files = s.files := by
  have hidle := Opens.closed hvalid hvalid.descriptors rfl (Nat.le_refl _)
  unfold State.createClientSocket
  by_cases hinit : s.initialized = true
  · rw [if_pos hinit]
    cases hfree : s.free calls.socket with
    | none => exact ⟨hidle,rfl,rfl⟩
    | some fd =>
      dsimp only
      have hopen := free_eq_some hfree
      by_cases hconnected : (calls.configured && calls.connected) = true
      · rw [if_pos hconnected]
        exact ⟨.registered hvalid hopen _,rfl,rfl⟩
      · rw [if_neg hconnected]
        exact ⟨.opened_and_closed hvalid hopen,rfl,rfl⟩
  · rw [if_neg hinit]
    exact ⟨hidle,rfl,rfl⟩

theorem acceptConnection_opens (hvalid : Valid s) (serverFd : Nat) (client : Option Nat) :
    Opens s (s.acceptConnection serverFd client).descriptors
        (s.acceptConnection serverFd client).sockets ∧
      (s.acceptConnection serverFd client).latest = s.latest ∧
      (s.acceptConnection serverFd client).files = s.files := by
  have hidle := Opens.closed hvalid hvalid.descriptors rfl (Nat.le_refl _)
  unfold State.acceptConnection
  by_cases hserver : (s.descriptors.owner serverFd).isNone = true
  · rw [if_pos hserver]
    exact ⟨hidle,rfl,rfl⟩
  · rw [if_neg hserver]
    cases hfree : s.free client with
    | none => exact ⟨hidle,rfl,rfl⟩
    | some fd =>
      dsimp only
      have hopen := free_eq_some hfree
      cases s.sockets.lookup serverFd with
      | none => exact ⟨.kept hvalid hopen,rfl,rfl⟩
      | some path => exact ⟨.registered hvalid hopen _,rfl,rfl⟩

theorem close_live_iff (fd : Nat) (hlatest : s'.latest = s.latest)
    (hdescriptors : s'.descriptors = s.descriptors.close fd) (p : SocketPath) (a x : Nat) :
    s'.Live p a x ↔ a ≠ fd ∧ s.Live p a x := by
  rw [State.Live,State.Live,hlatest,hdescriptors]
  by_cases ha : a = fd
  · subst ha
    simp
  · rw [Descriptors.close_owner_of_ne _ ha]
    simp [ha]

theorem close_valid (fd : Nat) (hvalid : Valid s) (hlatest : s'.latest = s.latest)
    (hdescriptors : s'.descriptors = s.descriptors.close fd)
    (hne : ∀ a, a ≠ fd → s'.sockets.lookup a = s.sockets.lookup a)
    (heq : s'.sockets.lookup fd = none) : Valid s' := by
  refine ⟨?_,fun p a x hsome => ?_,fun p a x hlive => ?_,fun a p hlookup => ?_⟩
  · rw [hdescriptors]
    exact hvalid.descriptors.close fd
  · rw [hlatest] at hsome
    rw [hdescriptors,Descriptors.close_accepted]
    exact hvalid.latest_lt p a x hsome
  · obtain ⟨ha,hlive⟩ := (close_live_iff fd hlatest hdescriptors p a x).mp hlive
    rw [hne a ha]
    exact hvalid.registered p a x hlive
  · have ha : a ≠ fd := by
      rintro rfl
      rw [heq] at hlookup
      cases hlookup
    rw [hne a ha] at hlookup
    rw [hdescriptors,Descriptors.close_owner_of_ne _ ha]
    exact hvalid.opened a p hlookup

theorem initial_valid : Valid (State.initial : State Name) :=
  ⟨Descriptors.Valid.initial,by simp [State.initial],by simp [State.initial,State.Live],
    by simp [State.initial]⟩

theorem initial_named : Named names State.initial := by
  intro p fd x n hlive
  simp [State.initial,State.Live] at hlive

end Calls

end Servers

section Steps
variable {Name : Type} [DecidableEq Name] {names : Names Name}

section Files
variable {files files' : Name → Option Nat} {path : SocketPath} {n : Name}

theorem Names.unlink_of_eq (h : names.resolve path = some n) (unlinked : Bool) :
    names.unlink files path unlinked n = if unlinked then none else files n := by
  cases unlinked <;> simp [unlink,h]

theorem Names.unlink_of_ne (h : names.resolve path ≠ some n) (unlinked : Bool) :
    names.unlink files path unlinked n = files n := by
  rw [unlink]
  cases hpath : names.resolve path with
  | none => rfl
  | some m =>
    have hne : n ≠ m := by
      rintro rfl
      exact h hpath
    cases unlinked <;> simp [hne]

theorem Names.bind_of_eq {x : Nat} {bound : Bool} (h : names.bind files path x bound = some files')
    (hn : names.resolve path = some n) : files n = none ∧ files' n = some x := by
  cases bound with
  | false => simp [bind] at h
  | true =>
    by_cases hfree : files n = none
    · simp only [bind,hn,hfree,if_true,Option.some.injEq] at h
      subst h
      exact ⟨hfree,Function.update_self _ _ _⟩
    · simp [bind,hn,hfree] at h

theorem Names.bind_of_ne {x : Nat} {bound : Bool} (h : names.bind files path x bound = some files')
    (hn : names.resolve path ≠ some n) : files' n = files n := by
  cases bound with
  | false => simp [bind] at h
  | true =>
    cases hpath : names.resolve path with
    | none =>
      simp only [bind,hpath,if_true,Option.some.injEq] at h
      rw [h]
    | some m =>
      have hne : n ≠ m := by
        rintro rfl
        exact hn hpath
      by_cases hfree : files m = none
      · simp only [bind,hpath,hfree,if_true,Option.some.injEq] at h
        subst h
        exact Function.update_of_ne hne _ _
      · simp [bind,hpath,hfree] at h

end Files

variable {s : State Name}

theorem createServerSocket_outcome (hvalid : Valid s) (path : SocketPath) (listens : Bool)
    (calls : ServerCalls) :
    Outcome names s path (unlinksOld s calls)
      (s.createServerSocket names path listens calls) := by
  have hidle : unlinksOld s calls = false → Outcome names s path (unlinksOld s calls)
      { s with latest := Function.update s.latest path none } := fun hno =>
    .failed (.closed hvalid hvalid.descriptors rfl (Nat.le_refl _)) (fun _ _ => rfl) (by simp [hno])
  unfold State.createServerSocket
  by_cases hinit : s.initialized = true
  · rw [if_pos hinit]
    cases hfree : s.free calls.socket with
    | none => exact hidle (by simp [unlinksOld,hfree])
    | some fd =>
      dsimp only
      have hopen := free_eq_some hfree
      have hclosed := Opens.opened_and_closed hvalid hopen
      by_cases hconf : calls.configured = true
      · rw [if_pos hconf]
        have hunlinks : unlinksOld s calls = calls.unlinked := by
          simp [unlinksOld,hinit,hfree,hconf]
        rw [hunlinks]
        cases hbind : names.bind (names.unlink s.files path calls.unlinked) path
            s.descriptors.accepted calls.bound with
        | none =>
          refine .failed hclosed (fun n hn => Names.unlink_of_ne hn _) fun n hn => ?_
          rw [Names.unlink_of_eq hn]
          cases calls.unlinked <;> simp
        | some files =>
          dsimp only
          have hne : ∀ n, names.resolve path ≠ some n → files n = s.files n := fun n hn =>
            (Names.bind_of_ne hbind hn).trans (Names.unlink_of_ne hn _)
          have hbound : ∀ n, names.resolve path = some n →
              files n = some s.descriptors.accepted := fun n hn => (Names.bind_of_eq hbind hn).2
          have hfreed : ∀ n, names.resolve path = some n → calls.unlinked = false →
              s.files n = none := by
            intro n hn hkept
            have h := (Names.bind_of_eq hbind hn).1
            rwa [Names.unlink_of_eq hn,hkept] at h
          by_cases hlisten : (listens && !calls.listening) = true
          · rw [if_pos hlisten]
            refine .failed hclosed (fun n hn => (Names.unlink_of_ne hn _).trans (hne n hn))
              fun n hn => ?_
            rw [Names.unlink_of_eq hn,hbound n hn]
            cases hkept : calls.unlinked with
            | true => cases calls.unlinkedAgain <;> simp
            | false => simp [hfreed n hn hkept]
          · rw [if_neg hlisten]
            refine ⟨fun p hp => Function.update_of_ne hp _ _,.inr ⟨fd,Function.update_self _ _ _,
              Nat.lt_succ_self _,AList.lookup_insert _,hbound⟩,.registered hvalid hopen path,hne,
              fun n hn => ?_⟩
            cases hkept : calls.unlinked with
            | true => exact .inr (hbound n hn)
            | false => exact fun hused => absurd (hfreed n hn hkept) hused
      · rw [if_neg hconf]
        exact .failed hclosed (fun _ _ => rfl) (by simp [unlinksOld,hconf])
  · rw [if_neg hinit]
    exact hidle (by simp [unlinksOld,hinit])

section Close
variable {s' : State Name}

theorem Names.remove_eq (files : Name → Option Nat) (path : SocketPath) (unlinked : Bool) :
    names.remove files path unlinked = names.unlink files path unlinked := by
  rw [remove]
  by_cases hempty : path.bytes.isEmpty = true
  · have hpath : path = .cleared := by
      cases path
      simpa [SocketPath.cleared] using hempty
    rw [if_pos hempty,hpath,unlink,names.resolve_cleared]
  · rw [if_neg hempty]

theorem close_named_iff (fd : Nat) (hnamed : Named names s) (hlatest : s'.latest = s.latest)
    (hdescriptors : s'.descriptors = s.descriptors.close fd) {path : SocketPath} {unlinked : Bool}
    (hfiles : s'.files = names.unlink s.files path unlinked) :
    Named names s' ↔ ¬ (unlinked = true ∧ Shared names s path (some fd) none) := by
  constructor
  · rintro hnamed' ⟨hunlinked,p,a,x,n,hlive,ha,_,hn,hpath⟩
    have hlive' := (close_live_iff fd hlatest hdescriptors p a x).mpr ⟨by simpa using ha,hlive⟩
    have hfile := hnamed' p a x n hlive' hn
    rw [hfiles,Names.unlink_of_eq hpath,if_pos hunlinked] at hfile
    cases hfile
  · intro hkeeps p a x n hlive hn
    obtain ⟨ha,hlive⟩ := (close_live_iff fd hlatest hdescriptors p a x).mp hlive
    rw [hfiles]
    by_cases hpath : names.resolve path = some n
    · have hunlinked : ¬ unlinked = true := fun hunlinked =>
        hkeeps ⟨hunlinked,p,a,x,n,hlive,by simpa using ha,by simp,hn,hpath⟩
      rw [Names.unlink_of_eq hpath,if_neg hunlinked]
      exact hnamed p a x n hlive hn
    · rw [Names.unlink_of_ne hpath]
      exact hnamed p a x n hlive hn

end Close

theorem closeSocket_valid (hvalid : Valid s) (fd : Nat) (unlinked : Bool) :
    Valid (s.closeSocket names fd unlinked) := by
  unfold State.closeSocket
  by_cases hgiven : s.given fd = true
  · rw [if_pos hgiven]
    cases hlookup : s.sockets.lookup fd with
    | none =>
      refine close_valid fd hvalid ?_ ?_ ?_ ?_
      · rfl
      · rfl
      · exact fun _ _ => rfl
      · exact hlookup
    | some path =>
      refine close_valid fd hvalid ?_ ?_ ?_ ?_
      · rfl
      · rfl
      · exact fun a ha => AList.lookup_erase_ne ha
      · show (s.sockets.erase fd).lookup fd = none
        rw [AList.lookup_erase]
  · rwa [if_neg hgiven]

theorem closeSocket_named_iff (hnamed : Named names s) (fd : Nat) (unlinked : Bool) :
    Named names (s.closeSocket names fd unlinked) ↔
      ¬ TakesName names s (.closeSocket fd unlinked) := by
  unfold State.closeSocket
  simp only [TakesName]
  by_cases hgiven : s.given fd = true
  · rw [if_pos hgiven,and_iff_right hgiven]
    cases hlookup : s.sockets.lookup fd with
    | none =>
      refine iff_of_true (fun p a x n hlive hn => ?_) (by simp)
      have hlive : a ≠ fd ∧ s.Live p a x := by
        refine (close_live_iff fd ?_ ?_ p a x).mp hlive <;> rfl
      exact hnamed p a x n hlive.2 hn
    | some path =>
      simp only [Option.some.injEq,exists_eq_left']
      refine close_named_iff fd hnamed ?_ ?_ ?_
      · rfl
      · rfl
      · exact Names.remove_eq _ _ _
  · rw [if_neg hgiven]
    exact iff_of_true hnamed fun h => hgiven h.1

variable (names) in
theorem closeAll_facts (unlinked : Nat → Bool) (l : List (Σ _ : Nat, SocketPath))
    (hd : s.descriptors.Valid) :
    (s.closeAll names unlinked l).latest = s.latest ∧
      (s.closeAll names unlinked l).descriptors.Valid ∧
      (s.closeAll names unlinked l).descriptors.accepted = s.descriptors.accepted ∧
      ∀ a x, (s.closeAll names unlinked l).descriptors.owner a = some x →
        a ∉ l.map Sigma.fst ∧ s.descriptors.owner a = some x := by
  induction l generalizing s with
  | nil => exact ⟨rfl,hd,rfl,fun a x h => ⟨by simp,h⟩⟩
  | cons e l ih =>
    obtain ⟨fd,path⟩ := e
    obtain ⟨hlatest,hvalid,haccepted,howner⟩ :=
      ih (s := { s.close fd with files := names.remove s.files path (unlinked fd) }) (hd.close fd)
    refine ⟨hlatest,hvalid,haccepted.trans (s.descriptors.close_accepted fd),fun a x h => ?_⟩
    obtain ⟨hnot,hclosed⟩ := howner a x h
    have ha : a ≠ fd := by
      rintro rfl
      simp [State.close] at hclosed
    simp only [State.close,Descriptors.close_owner_of_ne _ ha] at hclosed
    exact ⟨by simpa [ha] using hnot,hclosed⟩

theorem deinit_facts (hvalid : Valid s) (hnamed : Named names s) (unlinked : Nat → Bool) :
    Valid (s.deinit names unlinked) ∧ Named names (s.deinit names unlinked) := by
  unfold State.deinit
  by_cases hinit : s.initialized = true
  · rw [if_pos hinit]
    obtain ⟨hlatest,hd,haccepted,howner⟩ :=
      closeAll_facts names unlinked s.sockets.entries hvalid.descriptors
    have hnone : ∀ p a x, ¬ State.Live { s.closeAll names unlinked s.sockets.entries with
        sockets := ∅, initialized := false } p a x := by
      rintro p a x ⟨hsome,hopen⟩
      obtain ⟨hnot,hopen⟩ := howner a x hopen
      have hlookup := hvalid.registered p a x ⟨hlatest ▸ hsome,hopen⟩
      exact hnot (AList.lookup_isSome.mp (Option.isSome_of_eq_some hlookup))
    refine ⟨⟨hd,fun p a x hsome => ?_,fun p a x hlive => absurd hlive (hnone p a x),?_⟩,
      fun p a x n hlive => absurd hlive (hnone p a x)⟩
    · rw [haccepted]
      exact hvalid.latest_lt p a x (hlatest ▸ hsome)
    · simp
  · rw [if_neg hinit]
    exact ⟨hvalid,hnamed⟩

theorem step_valid (hvalid : Valid s) (hnamed : Named names s) (call : Call) :
    Valid (step names s call) := by
  cases call with
  | init => exact ⟨hvalid.descriptors,hvalid.latest_lt,hvalid.registered,hvalid.opened⟩
  | deinit unlinked => exact (deinit_facts hvalid hnamed unlinked).1
  | createServerSocket path listens calls =>
    exact (createServerSocket_outcome hvalid path listens calls).valid hvalid
  | createClientSocket calls =>
    obtain ⟨hopens,hlatest,_⟩ := createClientSocket_opens hvalid calls
    exact hopens.valid hvalid hlatest
  | acceptConnection serverFd client =>
    obtain ⟨hopens,hlatest,_⟩ := acceptConnection_opens hvalid serverFd client
    exact hopens.valid hvalid hlatest
  | closeSocket fd unlinked => exact closeSocket_valid hvalid fd unlinked

theorem step_named_iff (hvalid : Valid s) (hnamed : Named names s) (call : Call) :
    Named names (step names s call) ↔ ¬ TakesName names s call := by
  cases call with
  | init => exact iff_of_true hnamed id
  | deinit unlinked => exact iff_of_true (deinit_facts hvalid hnamed unlinked).2 id
  | createServerSocket path listens calls =>
    exact (createServerSocket_outcome hvalid path listens calls).named_iff hvalid hnamed
  | createClientSocket calls =>
    obtain ⟨hopens,hlatest,hfiles⟩ := createClientSocket_opens hvalid calls
    exact iff_of_true (hopens.named hvalid hnamed hlatest hfiles) id
  | acceptConnection serverFd client =>
    obtain ⟨hopens,hlatest,hfiles⟩ := acceptConnection_opens hvalid serverFd client
    exact iff_of_true (hopens.named hvalid hnamed hlatest hfiles) id
  | closeSocket fd unlinked => exact closeSocket_named_iff hnamed fd unlinked

end Steps

/-- Over every run, the live servers keep their names just where no call takes the name of another
one: in the close of a server behind which another was created for the same file, or in a creation
under another path to the file. -/
theorem servers_keep_names_iff {Name : Type} [DecidableEq Name] (names : Names Name)
    (calls : Nat → Call) (n : Nat) :
    (∀ k, k < n → Named names (stateAt (step names) .initial calls (k+1))) ↔
      ∀ k, k < n → ¬ TakesName names (stateAt (step names) .initial calls k) (calls k) := by
  have hinit : Valid (State.initial : State Name) ∧ Named names .initial :=
    ⟨initial_valid,initial_named names⟩
  exact forall_iff_of_invariant
    (I := fun k => Valid (stateAt (step names) .initial calls k) ∧
      Named names (stateAt (step names) .initial calls k)) hinit
    (fun _ ⟨hvalid,hnamed⟩ hkeeps =>
      ⟨step_valid hvalid hnamed _,(step_named_iff hvalid hnamed _).mpr hkeeps⟩)
    fun _ ⟨hvalid,hnamed⟩ => step_named_iff hvalid hnamed _

section Restart

def plainNames : Names (List Byte) where
  resolve path := if path.bytes.isEmpty then none else some path.bytes
  resolve_cleared := rfl

def servicePath : SocketPath := ⟨[0x73],by decide⟩

def created (fd : Nat) : ServerCalls := ⟨some fd,true,true,true,true,true⟩

/-- A service is created anew under its path before its old server is closed. -/
def restart : Nat → Call :=
  schedule [.init,.createServerSocket servicePath true (created 3),
    .createServerSocket servicePath true (created 4),.closeSocket 3 true] .init

/-- The new server is live, and its name is gone. -/
theorem restart_removes_name :
    (stateAt (step plainNames) .initial restart 4).Live servicePath 4 1 ∧
      (stateAt (step plainNames) .initial restart 4).files servicePath.bytes = none ∧
      ¬ Named plainNames (stateAt (step plainNames) .initial restart 4) := by
  have hlive : (stateAt (step plainNames) .initial restart 4).Live servicePath 4 1 := by
    constructor <;> decide +kernel
  have hgone : (stateAt (step plainNames) .initial restart 4).files servicePath.bytes = none := by
    decide +kernel
  refine ⟨hlive,hgone,fun hnamed => ?_⟩
  have hfile := hnamed servicePath 4 1 servicePath.bytes hlive rfl
  rw [hgone] at hfile
  cases hfile

end Restart

end LapCom.Socket.ServerFiles
