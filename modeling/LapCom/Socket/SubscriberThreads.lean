import LapCom.Kernel.Descriptors
import LapCom.Machine.Run

set_option autoImplicit false

/-! `SocketEventSubscriber`: its calls beside the thread of its `recvLoop`. -/

namespace LapCom.Socket.SubscriberThreads
open LapCom.Kernel LapCom.Machine

inductive Part where
  | length
  | payload
  deriving DecidableEq

/-- Where the thread stands: at `calling` before it reads `clientFd_`, at `receiving` with what it
has read, at `checking` before it reads `running_` again. -/
inductive Recv where
  | absent
  | looping
  | calling (part : Part)
  | receiving (part : Part) (fd : Option Nat)
  | checking (length : Bool)
  | parsing
  | ended
  deriving DecidableEq

/-- What `receive` returns: an error, the end of the stream, or bytes. With `whole` these are a
length that is taken, or the last ones of the payload. -/
inductive Received where
  | failed
  | closed
  | bytes (whole : Bool)
  deriving DecidableEq

/-- What becomes of a payload. The callback calls `stop` at `stopped` and `start` at `started`,
which gets a connection or not, and lets out what these throw. -/
inductive Delivery where
  | refused
  | returned
  | threw
  | stopped
  | started (connected : Bool)
  deriving DecidableEq

/-- A `stop` waits for its own thread, where `join` throws; a `start` puts a new thread in the place
of this one, which is joinable; and `recvLoop` catches nothing. -/
def Delivery.ends (running : Bool) : Delivery → Bool
  | .refused | .returned => false
  | .threw => true
  | .stopped => running
  | .started connected => !running && connected

inductive Stopper where
  | idle
  | closing
  | clearing
  | joining
  deriving DecidableEq

/-- `clientFd` is none for -1. `connection` is what the last `start` was given; the process ends in
`std::terminate`. -/
structure Subscriber where
  descriptors : Descriptors
  running : Bool
  clientFd : Option Nat
  joinable : Bool
  recv : Recv
  stopper : Stopper
  connection : Option Nat
  terminated : Bool

/-- The calls of the owner, the last of which is the `stop` of the destructor, the steps of the
thread, and the other connections of the process. -/
inductive Event where
  | start (cli : Option Nat) (spawned : Bool)
  | stop
  | recvLoop
  | receive (r : Received)
  | deliver (d : Delivery)
  | connect (fd : Nat)
  | disconnect (fd : Nat)
  deriving DecidableEq

def Received.next : Part → Received → Recv
  | .length, .bytes whole => .checking whole
  | .length, _ => .checking false
  | .payload, .bytes whole => if whole then .parsing else .calling .payload
  | .payload, _ => .looping

namespace Subscriber

def initial : Subscriber := ⟨.initial,false,none,false,.absent,.idle,none,false⟩

def connected (s : Subscriber) (fd : Nat) : Subscriber :=
  { s with
    descriptors := s.descriptors.accept fd
    connection := some s.descriptors.accepted
    clientFd := some fd
    running := true }

/-- Of a thread that cannot be started the caller gets an exception. -/
def start (s : Subscriber) (cli : Option Nat) (spawned : Bool) : Subscriber :=
  if s.running || s.stopper ≠ .idle then s
  else match cli with
    | none => s
    | some fd =>
      if s.descriptors.owner fd ≠ none then s
      else if spawned then
        if s.joinable then { s.connected fd with terminated := true }
        else { s.connected fd with recv := .looping, joinable := true }
      else s.connected fd

def stop (s : Subscriber) : Subscriber :=
  match s.stopper with
  | .idle => if s.running then { s with running := false, stopper := .closing } else s
  | .closing =>
    match s.clientFd with
    | some fd => { s with descriptors := s.descriptors.close fd, stopper := .clearing }
    | none => { s with stopper := .joining }
  | .clearing => { s with clientFd := none, stopper := .joining }
  | .joining =>
    if s.joinable then
      if s.recv = .ended then { s with joinable := false, stopper := .idle } else s
    else { s with stopper := .idle }

def recvLoop (s : Subscriber) : Subscriber :=
  match s.recv with
  | .looping => { s with recv := if s.running then .calling .length else .ended }
  | .calling part => { s with recv := .receiving part s.clientFd }
  | .checking length =>
    { s with
      recv := if s.running then if length then .calling .payload else .looping else .ended }
  | _ => s

def peer (s : Subscriber) : Option Nat :=
  match s.recv with
  | .receiving _ fd => fd.bind s.descriptors.owner
  | _ => none

def receive (s : Subscriber) (r : Received) : Subscriber :=
  match s.recv with
  | .receiving part _ =>
    { s with recv := Received.next part (if s.peer.isSome then r else .failed) }
  | _ => s

def deliver (s : Subscriber) (d : Delivery) : Subscriber :=
  match s.recv with
  | .parsing =>
    if d.ends s.running then { s with terminated := true } else { s with recv := .looping }
  | _ => s

def exec (s : Subscriber) : Event → Subscriber
  | .start cli spawned => s.start cli spawned
  | .stop => s.stop
  | .recvLoop => s.recvLoop
  | .receive r => s.receive r
  | .deliver d => s.deliver d
  | .connect fd =>
    if s.descriptors.owner fd = none then { s with descriptors := s.descriptors.accept fd } else s
  | .disconnect fd =>
    if s.descriptors.owner fd = s.connection then s
    else { s with descriptors := s.descriptors.close fd }

end Subscriber

def step (s : Subscriber) (e : Event) : Subscriber := if s.terminated then s else s.exec e

abbrev subscriberAt (σ : Nat → Event) (k : Nat) : Subscriber := stateAt step .initial σ k

def Subscriber.reads (s : Subscriber) : Event → Option Nat
  | .receive (.bytes _) => if s.terminated then none else s.peer
  | _ => none

def Subscriber.Held (s : Subscriber) : Prop := s.running = true ∨ s.stopper = .closing

structure Sound (s : Subscriber) : Prop where
  valid : s.descriptors.Valid
  running : s.running = true → s.stopper = .idle
  held : s.Held → ∃ fd x, s.clientFd = some fd ∧ s.connection = some x ∧
    s.descriptors.owner fd = some x
  carried : s.Held → ∀ part fd, s.recv = .receiving part fd → fd = s.clientFd
  released : ¬ s.Held → ∀ x, s.connection = some x → s.descriptors.closes x = 1
  cleared : ¬ s.Held → s.stopper ≠ .clearing → s.clientFd = none
  thread : s.joinable = false → s.recv = .absent ∨ s.recv = .ended
  joined : s.running = false → s.stopper = .idle → s.joinable = false
  absent : s.recv = .absent → s.joinable = false

section Steps
variable {s : Subscriber}

theorem not_held (hrunning : s.running = false) (hstopper : s.stopper ≠ .closing) : ¬ s.Held := by
  rintro (h | h)
  · rw [hrunning] at h
    cases h
  · exact hstopper h

theorem next_ne_receiving (part : Part) (r : Received) (part' : Part) (fd : Option Nat) :
    Received.next part r ≠ .receiving part' fd := by
  cases part <;> rcases r with _ | _ | ⟨_ | _⟩ <;> simp [Received.next]

theorem next_ne_absent (part : Part) (r : Received) : Received.next part r ≠ .absent := by
  cases part <;> rcases r with _ | _ | ⟨_ | _⟩ <;> simp [Received.next]

theorem peer_cases {x : Nat} (h : s.peer = some x) :
    ∃ part fd, s.recv = .receiving part (some fd) ∧ s.descriptors.owner fd = some x := by
  unfold Subscriber.peer at h
  cases hrecv : s.recv with
  | receiving part fd =>
    rw [hrecv] at h
    cases fd with
    | none => cases h
    | some fd => exact ⟨part,fd,rfl,h⟩
  | _ =>
    rw [hrecv] at h
    cases h

theorem Sound.joinable (h : Sound s) (habsent : s.recv ≠ .absent) (hended : s.recv ≠ .ended) :
    s.joinable = true := by
  rw [← Bool.not_eq_false]
  intro hnot
  exact (h.thread hnot).elim habsent hended

theorem Sound.goto (h : Sound s) (habsent : s.recv ≠ .absent) (hended : s.recv ≠ .ended)
    {T : Recv} (hT : T ≠ .absent)
    (hcarried : ∀ part fd, T = .receiving part fd → fd = s.clientFd) :
    Sound { s with recv := T } := by
  have hjoinable := h.joinable habsent hended
  refine ⟨h.valid,h.running,h.held,fun _ => hcarried,h.released,h.cleared,fun hnot => ?_,h.joined,
    fun hno => absurd hno hT⟩
  have hfalse : s.joinable = false := hnot
  rw [hjoinable] at hfalse
  cases hfalse

theorem Sound.recvLoop (h : Sound s) : Sound s.recvLoop := by
  unfold Subscriber.recvLoop
  cases hrecv : s.recv with
  | looping =>
    refine h.goto (by simp [hrecv]) (by simp [hrecv]) ?_ fun part fd heq => ?_
    · split_ifs <;> simp
    · split_ifs at heq
  | calling part =>
    refine h.goto (by simp [hrecv]) (by simp [hrecv]) (by simp) fun part' fd heq => ?_
    cases heq
    rfl
  | checking length =>
    refine h.goto (by simp [hrecv]) (by simp [hrecv]) ?_ fun part fd heq => ?_
    · split_ifs <;> simp
    · split_ifs at heq
  | _ => exact h

theorem Sound.receive (h : Sound s) (r : Received) : Sound (s.receive r) := by
  unfold Subscriber.receive
  cases hrecv : s.recv with
  | receiving part fd =>
    exact h.goto (by simp [hrecv]) (by simp [hrecv]) (next_ne_absent part _)
      fun part' fd' heq => absurd heq (next_ne_receiving part _ part' fd')
  | _ => exact h

theorem Sound.terminate (h : Sound s) : Sound { s with terminated := true } :=
  ⟨h.valid,h.running,h.held,h.carried,h.released,h.cleared,h.thread,h.joined,h.absent⟩

theorem Sound.deliver (h : Sound s) (d : Delivery) : Sound (s.deliver d) := by
  unfold Subscriber.deliver
  cases hrecv : s.recv with
  | parsing =>
    simp only
    split_ifs
    · rw [← hrecv]
      exact h.terminate
    · exact h.goto (by simp [hrecv]) (by simp [hrecv]) (by simp) (by simp)
  | _ => exact h

theorem Sound.connected (h : Sound s) (hrunning : s.running = false) (hidle : s.stopper = .idle)
    {fd : Nat} (hfree : s.descriptors.owner fd = none) : Sound (s.connected fd) := by
  have hjoinable := h.joined hrunning hidle
  have hheld : (s.connected fd).Held := .inl rfl
  refine ⟨h.valid.accept hfree,fun _ => hidle,fun _ => ?_,fun _ part fd' heq => ?_,
    fun hno => absurd hheld hno,fun hno => absurd hheld hno,h.thread,?_,h.absent⟩
  · exact ⟨fd,s.descriptors.accepted,rfl,rfl,Descriptors.accept_owner_self _ _⟩
  · have hrecv : s.recv = .receiving part fd' := heq
    rcases h.thread hjoinable with hno | hno <;> rw [hrecv] at hno <;> cases hno
  · intro hno
    cases hno

theorem Sound.start (h : Sound s) (cli : Option Nat) (spawned : Bool) :
    Sound (s.start cli spawned) ∧ (s.start cli spawned).terminated = s.terminated := by
  cases cli with
  | none =>
    have heq : s.start none spawned = s := by simp [Subscriber.start]
    rw [heq]
    exact ⟨h,rfl⟩
  | some fd =>
    rw [Subscriber.start]
    by_cases hbusy : (s.running || s.stopper ≠ .idle) = true
    · rw [if_pos hbusy]
      exact ⟨h,rfl⟩
    · rw [if_neg hbusy]
      obtain ⟨hrunning,hidle⟩ : s.running = false ∧ s.stopper = .idle := by simpa using hbusy
      have hjoinable := h.joined hrunning hidle
      by_cases hfree : s.descriptors.owner fd = none
      · have hconnected := h.connected hrunning hidle hfree
        rw [if_neg (not_not.mpr hfree)]
        cases spawned with
        | false => exact ⟨hconnected,rfl⟩
        | true =>
          rw [if_pos rfl,if_neg (by simp [hjoinable])]
          exact ⟨⟨hconnected.valid,hconnected.running,hconnected.held,by simp,hconnected.released,
            hconnected.cleared,by simp,by simp [Subscriber.connected],by simp⟩,rfl⟩
      · rw [if_pos hfree]
        exact ⟨h,rfl⟩

theorem Sound.not_running (h : Sound s) (hstopper : s.stopper ≠ .idle) : s.running = false := by
  rw [← Bool.not_eq_true]
  exact fun hrunning => hstopper (h.running hrunning)

theorem Sound.join (h : Sound s) (hstopper : s.stopper = .joining)
    (hrecv : s.recv = .absent ∨ s.recv = .ended) :
    Sound { s with joinable := false, stopper := .idle } := by
  have hrunning := h.not_running (by simp [hstopper])
  have hbefore := not_held hrunning (by simp [hstopper])
  have hno : ¬ Subscriber.Held { s with joinable := false, stopper := .idle } :=
    not_held hrunning (by simp)
  exact ⟨h.valid,fun _ => rfl,fun hheld => absurd hheld hno,fun hheld => absurd hheld hno,
    fun _ => h.released hbefore,fun _ _ => h.cleared hbefore (by simp [hstopper]),fun _ => hrecv,
    fun _ _ => rfl,fun _ => rfl⟩

theorem Sound.stop (h : Sound s) : Sound s.stop ∧ s.stop.terminated = s.terminated := by
  unfold Subscriber.stop
  cases hstopper : s.stopper with
  | idle =>
    simp only
    cases hrunning : s.running with
    | false => exact ⟨h,rfl⟩
    | true =>
      have hheld : s.Held := .inl hrunning
      refine ⟨⟨h.valid,by simp,fun _ => h.held hheld,fun _ => h.carried hheld,?_,?_,h.thread,
        by simp,h.absent⟩,rfl⟩
      · exact fun hno => absurd (.inr rfl) hno
      · exact fun hno => absurd (.inr rfl) hno
  | closing =>
    obtain ⟨fd,x,hfd,hconnection,howner⟩ := h.held (.inr hstopper)
    have hrunning := h.not_running (by simp [hstopper])
    have hclosed : (s.descriptors.close fd).closes x = 1 := by
      rw [Descriptors.close_closes_self howner,h.valid.unclosed fd x howner]
    have hno : ¬ Subscriber.Held { s with
        descriptors := s.descriptors.close fd, stopper := .clearing } :=
      not_held hrunning (by simp)
    simp only [hfd]
    refine ⟨⟨h.valid.close fd,by simp [hrunning],fun hheld => absurd hheld hno,
      fun hheld => absurd hheld hno,fun _ y hy => ?_,by simp,h.thread,by simp,h.absent⟩,trivial⟩
    obtain rfl : x = y := Option.some.inj (hconnection.symm.trans hy)
    exact hclosed
  | clearing =>
    have hrunning := h.not_running (by simp [hstopper])
    have hno : ¬ Subscriber.Held { s with clientFd := none, stopper := .joining } :=
      not_held hrunning (by simp)
    exact ⟨⟨h.valid,by simp [hrunning],fun hheld => absurd hheld hno,
      fun hheld => absurd hheld hno,fun _ => h.released (not_held hrunning (by simp [hstopper])),
      fun _ _ => rfl,h.thread,by simp,h.absent⟩,rfl⟩
  | joining =>
    simp only
    cases hjoinable : s.joinable with
    | false =>
      simp only [Bool.false_eq_true,if_false]
      exact ⟨h.join hstopper (h.thread hjoinable),trivial⟩
    | true =>
      by_cases hended : s.recv = .ended
      · simp only [hended,if_true]
        have hsound := h.join hstopper (.inr hended)
        rw [hended] at hsound
        exact ⟨hsound,trivial⟩
      · simp only [hended,if_true,if_false]
        exact ⟨h,trivial⟩

theorem Sound.connect (h : Sound s) {fd : Nat} (hfree : s.descriptors.owner fd = none) :
    Sound { s with descriptors := s.descriptors.accept fd } := by
  refine ⟨h.valid.accept hfree,h.running,fun hheld => ?_,h.carried,h.released,h.cleared,h.thread,
    h.joined,h.absent⟩
  obtain ⟨fd',x,hfd,hconnection,howner⟩ := h.held hheld
  exact ⟨fd',x,hfd,hconnection,(Descriptors.accept_owner_of_some hfree howner).2⟩

theorem Sound.disconnect (h : Sound s) {fd : Nat} (hother : s.descriptors.owner fd ≠ s.connection) :
    Sound { s with descriptors := s.descriptors.close fd } := by
  refine ⟨h.valid.close fd,h.running,fun hheld => ?_,h.carried,fun hno x hx => ?_,h.cleared,
    h.thread,h.joined,h.absent⟩
  · obtain ⟨fd',x,hfd,hconnection,howner⟩ := h.held hheld
    have hne : fd' ≠ fd := by
      rintro rfl
      exact hother (howner.trans hconnection.symm)
    exact ⟨fd',x,hfd,hconnection,(Descriptors.close_owner_of_ne _ hne).trans howner⟩
  · have hclosed := h.released hno x hx
    cases howner : s.descriptors.owner fd with
    | none => rwa [Descriptors.close_of_none howner]
    | some y =>
      have hne : x ≠ y := by
        rintro rfl
        exact hother (howner.trans hx.symm)
      rwa [Descriptors.close_closes_of_ne howner hne]

/-- The callback throws, calls `stop` while the subscriber runs, or gets a connection from a call
of `start` after `stop` has cleared the flag. -/
def Fatal (s : Subscriber) (e : Event) : Prop :=
  s.recv = .parsing ∧ ∃ d, e = .deliver d ∧ (d = .threw ∨ d = .stopped ∧ s.running = true ∨
    d = .started true ∧ s.running = false)

theorem ends_iff (running : Bool) (d : Delivery) : d.ends running = true ↔
    d = .threw ∨ d = .stopped ∧ running = true ∨ d = .started true ∧ running = false := by
  cases d <;> simp [Delivery.ends,and_comm]

theorem deliver_terminated (s : Subscriber) (d : Delivery) (h : s.terminated = false) :
    (s.deliver d).terminated = false ↔ ¬ Fatal s (.deliver d) := by
  have hfatal : Fatal s (.deliver d) ↔ s.recv = .parsing ∧ d.ends s.running = true := by
    rw [ends_iff]
    simp [Fatal]
  rw [hfatal,Subscriber.deliver]
  cases hrecv : s.recv with
  | parsing => by_cases hends : d.ends s.running = true <;> simp [hends,h]
  | _ => simp [h]

theorem Sound.exec (h : Sound s) (e : Event) : Sound (s.exec e) ∧
    (s.terminated = false → ((s.exec e).terminated = false ↔ ¬ Fatal s e)) := by
  have hother : ∀ s' : Subscriber, Sound s' ∧ s'.terminated = s.terminated →
      (∀ d, e ≠ .deliver d) → Sound s' ∧
        (s.terminated = false → (s'.terminated = false ↔ ¬ Fatal s e)) := by
    intro s' hs' he
    refine ⟨hs'.1,fun hterminated => iff_of_true (hs'.2.trans hterminated) ?_⟩
    rintro ⟨_,d,heq,_⟩
    exact he d heq
  cases e with
  | start cli spawned => exact hother _ (h.start cli spawned) (by simp)
  | stop => exact hother _ h.stop (by simp)
  | recvLoop =>
    have hflag : s.recvLoop.terminated = s.terminated := by
      unfold Subscriber.recvLoop
      cases s.recv <;> rfl
    exact hother _ ⟨h.recvLoop,hflag⟩ (by simp)
  | receive r =>
    have hflag : (s.receive r).terminated = s.terminated := by
      unfold Subscriber.receive
      cases s.recv <;> rfl
    exact hother _ ⟨h.receive r,hflag⟩ (by simp)
  | deliver d => exact ⟨h.deliver d,deliver_terminated s d⟩
  | connect fd =>
    rw [Subscriber.exec]
    by_cases hfree : s.descriptors.owner fd = none
    · rw [if_pos hfree]
      exact hother _ ⟨h.connect hfree,rfl⟩ (by simp)
    · rw [if_neg hfree]
      exact hother _ ⟨h,rfl⟩ (by simp)
  | disconnect fd =>
    rw [Subscriber.exec]
    by_cases hown : s.descriptors.owner fd = s.connection
    · rw [if_pos hown]
      exact hother _ ⟨h,rfl⟩ (by simp)
    · rw [if_neg hown]
      exact hother _ ⟨h.disconnect hown,rfl⟩ (by simp)

theorem Sound.step (h : Sound s) (e : Event) : Sound (step s e) := by
  unfold SubscriberThreads.step
  split_ifs
  · exact h
  · exact (h.exec e).1

theorem Sound.initial : Sound .initial := by
  have hno : ¬ Subscriber.initial.Held := not_held rfl (by simp [Subscriber.initial])
  exact ⟨.initial,fun _ => rfl,fun h => absurd h hno,fun h => absurd h hno,
    by simp [Subscriber.initial],fun _ _ => rfl,fun _ => .inl rfl,fun _ _ => rfl,fun _ => rfl⟩

theorem sound_at (σ : Nat → Event) (k : Nat) : Sound (subscriberAt σ k) :=
  stateAt_invariant (C := fun _ _ => True) (n := k) .initial (fun _ _ => trivial)
    (fun _ e h _ => h.step e) k (Nat.le_refl k)

/-- The thread takes bytes after `stop` has closed the descriptor. -/
def Late (s : Subscriber) (e : Event) : Prop :=
  (s.stopper = .clearing ∨ s.stopper = .joining) ∧ (s.reads e).isSome

theorem peer_of_reads {e : Event} {x : Nat} (h : s.reads e = some x) : s.peer = some x := by
  unfold Subscriber.reads at h
  split at h
  · split_ifs at h
    exact h
  · cases h

/-- While the descriptor is held it is the one that is read; what is read later is not its own. -/
theorem Sound.reads_own_iff (h : Sound s) (e : Event) :
    (∀ x, s.reads e = some x → s.connection = some x) ↔ ¬ Late s e := by
  cases hreads : s.reads e with
  | none => simp [Late,hreads]
  | some x =>
    obtain ⟨part,fd,hrecv,howner⟩ := peer_cases (peer_of_reads hreads)
    by_cases hheld : s.Held
    · obtain ⟨fd',y,hfd,hconnection,hown⟩ := h.held hheld
      have hcarried := h.carried hheld part _ hrecv
      obtain rfl : fd = fd' := Option.some.inj (hcarried.trans hfd)
      refine iff_of_true (fun z hz => ?_) ?_
      · obtain rfl := Option.some.inj hz
        rw [hconnection,← hown,howner]
      · rintro ⟨hlate,_⟩
        rcases hheld with hrunning | hclosing
        · rw [h.running hrunning] at hlate
          simp at hlate
        · rw [hclosing] at hlate
          simp at hlate
    · refine iff_of_false (fun hown => ?_) (not_not.mpr ⟨?_,by simp [hreads]⟩)
      · have hclosed := h.released hheld x (hown x rfl)
        rw [h.valid.unclosed fd x howner] at hclosed
        cases hclosed
      · cases hstopper : s.stopper with
        | clearing => exact .inl rfl
        | joining => exact .inr rfl
        | closing => exact absurd (.inr hstopper) hheld
        | idle =>
          have hrunning : s.running = false := Bool.not_eq_true _ ▸ fun hr => hheld (.inl hr)
          rcases h.thread (h.joined hrunning hstopper) with hno | hno <;>
            rw [hrecv] at hno <;> cases hno

end Steps

/-- In every run the process is never ended by its subscriber just where no callback is fatal, and
all that the thread reads comes from the connection of its own subscriber just where it takes no
bytes after `stop` has closed the descriptor. -/
theorem reads_own_connection_iff (σ : Nat → Event) (n : Nat) :
    ((∀ k, k ≤ n → (subscriberAt σ k).terminated = false) ↔
      ∀ k, k < n → ¬ Fatal (subscriberAt σ k) (σ k)) ∧
    ((∀ k, k < n → ∀ x, (subscriberAt σ k).reads (σ k) = some x →
        (subscriberAt σ k).connection = some x) ↔
      ∀ k, k < n → ¬ Late (subscriberAt σ k) (σ k)) := by
  constructor
  · refine holds_iff_of_step (I := fun k => (subscriberAt σ k).terminated = false) rfl ?_
    intro k hterminated
    rw [subscriberAt,stateAt_succ,step,if_neg (by simp [hterminated])]
    exact ((sound_at σ k).exec (σ k)).2 hterminated
  · exact forall_congr' fun k => imp_congr_right fun _ => (sound_at σ k).reads_own_iff (σ k)

def Recv.expects : Recv → Event → Bool
  | .looping, .recvLoop | .calling _, .recvLoop | .checking _, .recvLoop => true
  | .receiving _ _, .receive _ => true
  | .parsing, .deliver _ => true
  | _, _ => false

/-- How many steps the thread takes at most once `clientFd_` is -1. -/
def Recv.rank : Recv → Nat
  | .absent | .ended => 0
  | .looping | .checking _ => 1
  | .parsing => 2
  | .calling _ => 3
  | .receiving _ none | .receiving .length _ => 2
  | .receiving .payload (some _) => 4

structure Joining (s : Subscriber) : Prop where
  sound : Sound s
  stopper : s.stopper = .joining
  terminated : s.terminated = false

section Join
variable {s : Subscriber}

theorem Joining.running (h : Joining s) : s.running = false :=
  h.sound.not_running (by simp [h.stopper])

theorem Joining.clientFd (h : Joining s) : s.clientFd = none :=
  h.sound.cleared (not_held h.running (by simp [h.stopper])) (by simp [h.stopper])

theorem rank_next (part : Part) (r : Received) (fd : Nat) :
    (Received.next part r).rank+1 ≤ (Recv.receiving part (some fd)).rank := by
  cases part <;> rcases r with _ | _ | ⟨_ | _⟩ <;> simp [Received.next,Recv.rank]

theorem rank_failed (part : Part) (fd : Option Nat) :
    (Received.next part .failed).rank+1 ≤ (Recv.receiving part fd).rank := by
  cases part <;> cases fd <;> simp [Received.next,Recv.rank]

theorem rank_le (T : Recv) : T.rank ≤ 4 := by
  cases T with
  | receiving part fd => cases part <;> cases fd <;> simp [Recv.rank]
  | _ => simp [Recv.rank]

theorem rank_pos {T : Recv} (habsent : T ≠ .absent) (hended : T ≠ .ended) : 0 < T.rank := by
  cases T with
  | absent => exact absurd rfl habsent
  | ended => exact absurd rfl hended
  | receiving part fd => cases part <;> cases fd <;> simp [Recv.rank]
  | _ => simp [Recv.rank]

theorem Joining.rank (h : Joining s) (e : Event) (hstart : ∀ cli spawned, e ≠ .start cli spawned)
    (hstop : e ≠ .stop) (halive : (s.exec e).terminated = false) :
    (s.exec e).recv.rank+(if s.recv.expects e = true then 1 else 0) ≤ s.recv.rank := by
  have hrunning := h.running
  cases e with
  | start cli spawned => exact absurd rfl (hstart cli spawned)
  | stop => exact absurd rfl hstop
  | recvLoop =>
    rw [Subscriber.exec,Subscriber.recvLoop]
    cases hrecv : s.recv with
    | calling part => simp [Recv.expects,Recv.rank,h.clientFd]
    | receiving part fd => simp [hrecv,Recv.expects]
    | _ => simp [hrecv,Recv.expects,Recv.rank,hrunning]
  | receive r =>
    rw [Subscriber.exec,Subscriber.receive]
    cases hrecv : s.recv with
    | receiving part fd =>
      simp only [Recv.expects,if_true]
      cases fd with
      | none =>
        rw [if_neg (by simp [Subscriber.peer,hrecv])]
        exact rank_failed part none
      | some fd => exact rank_next part _ fd
    | _ => simp [hrecv,Recv.expects]
  | deliver d =>
    rw [Subscriber.exec,Subscriber.deliver] at halive ⊢
    cases hrecv : s.recv with
    | parsing =>
      cases hends : d.ends s.running with
      | true => simp [hrecv,hends] at halive
      | false => simp [Recv.expects,Recv.rank]
    | _ => simp [hrecv,Recv.expects]
  | connect fd =>
    have hno : s.recv.expects (.connect fd) = false := by cases s.recv <;> rfl
    rw [hno,if_neg Bool.false_ne_true,Subscriber.exec]
    split_ifs <;> exact Nat.le_refl _
  | disconnect fd =>
    have hno : s.recv.expects (.disconnect fd) = false := by cases s.recv <;> rfl
    rw [hno,if_neg Bool.false_ne_true,Subscriber.exec]
    split_ifs <;> exact Nat.le_refl _

theorem exec_frame (s : Subscriber) (e : Event) (hstart : ∀ cli spawned, e ≠ .start cli spawned)
    (hstop : e ≠ .stop) : (s.exec e).stopper = s.stopper := by
  cases e with
  | start cli spawned => exact absurd rfl (hstart cli spawned)
  | stop => exact absurd rfl hstop
  | recvLoop =>
    rw [Subscriber.exec,Subscriber.recvLoop]
    cases s.recv <;> rfl
  | receive r =>
    rw [Subscriber.exec,Subscriber.receive]
    cases s.recv <;> rfl
  | deliver d =>
    rw [Subscriber.exec,Subscriber.deliver]
    cases s.recv with
    | parsing => simp only; split_ifs <;> rfl
    | _ => rfl
  | connect fd =>
    rw [Subscriber.exec]
    split_ifs <;> rfl
  | disconnect fd =>
    rw [Subscriber.exec]
    split_ifs <;> rfl

theorem Joining.returns (h : Joining s) (hrecv : s.joinable = false ∨ s.recv = .ended) :
    (step s .stop).stopper = .idle := by
  rw [step,if_neg (by simp [h.terminated]),Subscriber.exec,Subscriber.stop,h.stopper]
  cases hjoinable : s.joinable with
  | false => rfl
  | true =>
    have hended : s.recv = .ended := hrecv.resolve_left (by simp [hjoinable])
    simp [hended]

/-- Until the thread has ended `stop` waits, and each step of the thread brings its end nearer. -/
theorem Joining.step (h : Joining s) (hjoinable : s.joinable = true) (hended : s.recv ≠ .ended)
    (e : Event) (hcalm : ¬ Fatal s e) : Joining (step s e) ∧
      (SubscriberThreads.step s e).recv.rank+(if s.recv.expects e = true then 1 else 0) ≤
        s.recv.rank := by
  have hsound := h.sound.step e
  have hterminated := ((h.sound.exec e).2 h.terminated).mpr hcalm
  have hexec : SubscriberThreads.step s e = s.exec e := if_neg (by simp [h.terminated])
  rw [hexec] at hsound ⊢
  have hstays : s.exec e = s → s.recv.expects e = false → Joining (s.exec e) ∧
      (s.exec e).recv.rank+(if s.recv.expects e = true then 1 else 0) ≤ s.recv.rank := by
    intro heq hexpects
    rw [heq,hexpects]
    exact ⟨h,by simp⟩
  by_cases hstart : ∃ cli spawned, e = .start cli spawned
  · obtain ⟨cli,spawned,rfl⟩ := hstart
    refine hstays ?_ (by cases s.recv <;> rfl)
    rw [Subscriber.exec]
    cases cli <;> simp [Subscriber.start,h.stopper]
  · by_cases hstop : e = .stop
    · subst hstop
      refine hstays ?_ (by cases s.recv <;> rfl)
      simp [Subscriber.exec,Subscriber.stop,h.stopper,hjoinable,hended]
    · have hother : ∀ cli spawned, e ≠ .start cli spawned := fun cli spawned heq =>
        hstart ⟨cli,spawned,heq⟩
      exact ⟨⟨hsound,(exec_frame s e hother hstop).trans h.stopper,hterminated⟩,
        h.rank e hother hstop hterminated⟩

end Join

/-- The thread takes a step, or there is none to wait for. -/
def Moves (s : Subscriber) (e : Event) : Prop :=
  s.recv.expects e = true ∨ s.recv = .ended ∨ s.joinable = false

instance (s : Subscriber) (e : Event) : Decidable (Moves s e) :=
  inferInstanceAs (Decidable (_ ∨ _ ∨ _))

/-- Once `stop` has stored -1 the thread ends after at most four steps of its own, whatever the
other connections do, so long as no callback is fatal, and then `stop` returns with the connection
closed once. -/
theorem stop_returns (σ : Nat → Event) (i n : Nat) (hin : i ≤ n)
    (hjoining : (subscriberAt σ i).stopper = .joining)
    (hterminated : (subscriberAt σ i).terminated = false)
    (hcalm : ∀ k, i ≤ k → k < n → ¬ Fatal (subscriberAt σ k) (σ k))
    (hcount : Nat.count (fun k => Moves (subscriberAt σ k) (σ k)) i+4 ≤
      Nat.count (fun k => Moves (subscriberAt σ k) (σ k)) n) :
    ∃ k, i ≤ k ∧ k ≤ n ∧ (step (subscriberAt σ k) .stop).stopper = .idle ∧
      ∀ x, (subscriberAt σ k).connection = some x →
        (subscriberAt σ k).descriptors.closes x = 1 := by
  by_contra hnever
  have hwaits : ∀ k, i ≤ k → k ≤ n → Joining (subscriberAt σ k) →
      (subscriberAt σ k).joinable = true ∧ (subscriberAt σ k).recv ≠ .ended := by
    intro k hik hkn h
    by_contra hnot
    refine hnever ⟨k,hik,hkn,h.returns ?_,
      h.sound.released (not_held h.running (by simp [h.stopper]))⟩
    cases hjoinable : (subscriberAt σ k).joinable with
    | false => exact .inl rfl
    | true => exact .inr (by_contra fun hended => hnot ⟨hjoinable,hended⟩)
  have hall : ∀ k, i ≤ k → k ≤ n → Joining (subscriberAt σ k) := by
    refine between_invariant ⟨sound_at σ i,hjoining,hterminated⟩ fun k hik hkn h => ?_
    obtain ⟨hjoinable,hended⟩ := hwaits k hik (by omega) h
    rw [subscriberAt,stateAt_succ]
    exact (h.step hjoinable hended (σ k) (hcalm k hik hkn)).1
  have hdecreases : ∀ k, i ≤ k → k < n → (subscriberAt σ (k+1)).recv.rank+
      (if Moves (subscriberAt σ k) (σ k) then 1 else 0) ≤ (subscriberAt σ k).recv.rank := by
    intro k hik hkn
    have h := hall k hik (by omega)
    obtain ⟨hjoinable,hended⟩ := hwaits k hik (by omega) h
    have hmoves : Moves (subscriberAt σ k) (σ k) ↔
        (subscriberAt σ k).recv.expects (σ k) = true := by
      simp [Moves,hended,hjoinable]
    rw [subscriberAt,stateAt_succ]
    simp only [hmoves]
    exact (h.step hjoinable hended (σ k) (hcalm k hik hkn)).2
  have hrank := rank_le (subscriberAt σ i).recv
  obtain ⟨k,hik,hkn,hzero⟩ := reaches_of_rank
    (P := fun k => (subscriberAt σ k).recv.rank = 0)
    (T := fun k => Moves (subscriberAt σ k) (σ k))
    (r := fun k => (subscriberAt σ k).recv.rank) (a := i) (b := n) hin
    (fun _ _ _ hzero => hzero) (fun k hik hkn _ => .inr (hdecreases k hik hkn)) (by omega)
  have h := hall k hik hkn
  obtain ⟨hjoinable,hended⟩ := hwaits k hik hkn h
  have habsent : (subscriberAt σ k).recv ≠ .absent := by
    intro habsent
    rw [h.sound.absent habsent] at hjoinable
    cases hjoinable
  have hpos := rank_pos habsent hended
  omega

def interrupted : Nat → Event :=
  schedule [.start (some 7) true,.recvLoop,.recvLoop,.stop,.stop,.stop,.receive .failed] .recvLoop

theorem stop_returns_interrupted : ∃ k, 6 ≤ k ∧ k ≤ 10 ∧
    (step (subscriberAt interrupted k) .stop).stopper = .idle ∧
      ∀ x, (subscriberAt interrupted k).connection = some x →
        (subscriberAt interrupted k).descriptors.closes x = 1 := by
  have hquiet : ∀ k, k < 10 → (subscriberAt interrupted k).recv ≠ .parsing := by decide +kernel
  exact stop_returns interrupted 6 10 (by decide) (by decide +kernel) (by decide +kernel)
    (fun k _ hk hfatal => hquiet k hk hfatal.1) (by decide +kernel)

end LapCom.Socket.SubscriberThreads
