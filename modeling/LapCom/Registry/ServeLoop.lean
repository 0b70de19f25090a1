import LapCom.Registry.Initializer

set_option autoImplicit false

namespace LapCom.Initializer
open LapCom.Kernel LapCom.Machine

def Phase.rank : Phase → Nat
  | .accept => 4
  | .handleClient _ => 3
  | .close _ => 2
  | .test => 1
  | .idle | .store | .destroyed => 0

def Phase.expects : Phase → Nat
  | .accept => 1
  | _ => 0

def Event.isServe : Event → Bool
  | .serve _ => true
  | _ => false

def CallsShutdown (s : System) (e : Event) : Prop :=
  ∃ t, e = .shutdown t ∧ s.daemon.stoppers t = none

section Loop
variable {s : System}

theorem not_idle (h : s.daemon.phase.Looping) : ¬ s.daemon.phase = .idle := by
  intro hidle
  rw [hidle] at h
  exact h

theorem step_of_not_serve (h : ¬ s.daemon.phase = .idle) {e : Event} (he : e.isServe = false) :
    (step s e).daemon.phase = s.daemon.phase ∧ (step s e).kernel.clients = s.kernel.clients := by
  cases e with
  | initializeRegistry calls => simp [step,Daemon.step,h]
  | run calls => simp [step,Daemon.step,h]
  | serve outcome => cases he
  | shutdown t =>
    simp only [step,Daemon.step]
    split_ifs <;> exact ⟨rfl,rfl⟩
  | stopSocket t =>
    obtain ⟨stopped,heq⟩ := stopSocket_eq s.daemon.server s.kernel
    simp only [step,Daemon.step]
    cases s.daemon.stoppers t <;> simp [heq]
  | destroy => simp [step,Daemon.step,h]

theorem looping_step (h : s.daemon.phase.Looping) (e : Event) :
    (step s e).daemon.phase.Looping ∨
      ((step s e).daemon.phase = .idle ∧ s.daemon.server.running = false) := by
  cases he : e.isServe with
  | false =>
    rw [(step_of_not_serve (not_idle h) he).1]
    exact .inl h
  | true =>
    rcases s with ⟨⟨server,phase,stoppers⟩,kernel⟩
    cases e with
    | serve outcome =>
      cases phase with
      | idle => cases h
      | store => cases h
      | test =>
        cases hrunning : server.running with
        | true => exact .inl (by simp [step,Daemon.step,Daemon.serve,hrunning,Phase.Looping])
        | false => exact .inr ⟨by simp [step,Daemon.step,Daemon.serve,hrunning],rfl⟩
      | accept =>
        cases outcome with
        | done => exact .inl trivial
        | failed => exact .inl trivial
        | waiting =>
          simp only [step,Daemon.step,Daemon.serve]
          cases server.socketStopped kernel <;> exact .inl trivial
      | handleClient client => exact .inl trivial
      | close client => exact .inl trivial
      | destroyed => cases h
    | _ => cases he

theorem looping_running (h : s.daemon.phase.Looping) (e : Event) :
    (s.daemon.server.running = false → (step s e).daemon.server.running = false) ∧
      (s.daemon.server.running = true → ¬ CallsShutdown s e →
        (step s e).daemon.server.running = true) := by
  have hidle := not_idle h
  cases e with
  | initializeRegistry calls =>
    simp only [step,Daemon.step,if_neg hidle]
    exact ⟨id,fun h _ => h⟩
  | run calls =>
    simp only [step,Daemon.step,if_neg hidle]
    exact ⟨id,fun h _ => h⟩
  | serve outcome =>
    rcases s with ⟨⟨server,phase,stoppers⟩,kernel⟩
    cases phase with
    | accept =>
      cases outcome with
      | done => exact ⟨id,fun h _ => h⟩
      | failed => exact ⟨id,fun h _ => h⟩
      | waiting =>
        simp only [step,Daemon.step,Daemon.serve]
        cases server.socketStopped kernel <;> exact ⟨id,fun h _ => h⟩
    | store => cases h
    | _ => exact ⟨id,fun h _ => h⟩
  | shutdown t =>
    simp only [step,Daemon.step]
    split_ifs with hdestroyed hbusy hrunning
    · exact ⟨id,fun h _ => h⟩
    · exact ⟨fun _ => rfl,fun _ hno => absurd ⟨t,rfl,hbusy⟩ hno⟩
    · exact ⟨id,fun h _ => h⟩
    · exact ⟨id,fun h _ => h⟩
  | stopSocket t =>
    simp only [step,Daemon.step]
    cases s.daemon.stoppers t <;> exact ⟨id,fun h _ => h⟩
  | destroy =>
    simp only [step,Daemon.step,if_neg hidle]
    exact ⟨id,fun h _ => h⟩

theorem looping_socketFd (h : s.daemon.phase.Looping) (e : Event) :
    (step s e).daemon.server.socketFd = s.daemon.server.socketFd := by
  have hidle := not_idle h
  cases e with
  | initializeRegistry calls => simp [step,Daemon.step,hidle]
  | run calls => simp [step,Daemon.step,hidle]
  | serve outcome => exact (serve_same s outcome).socketFd
  | shutdown t => exact (shutdown_same s t).socketFd
  | stopSocket t => exact (stopSocket_same s t).socketFd
  | destroy => simp [step,Daemon.step,hidle]

theorem stopped_step {fd : Nat} (h : s.kernel.stopped fd = true) (e : Event) :
    (step s e).kernel.stopped fd = true := by
  have hstop : (s.daemon.server.stopSocket s.kernel).stopped fd = true := by
    unfold RegistryInitializer.stopSocket
    cases s.daemon.server.socketFd with
    | none => exact h
    | some x =>
      by_cases hx : fd = x
      · rw [hx]
        exact Function.update_self _ _ _
      · exact (Function.update_of_ne hx _ _).trans h
  cases e with
  | initializeRegistry calls =>
    simp only [step,Daemon.step,RegistryInitializer.initializeRegistry]
    split_ifs
    · rcases createMemfd_cases s.daemon.server s.kernel calls with ⟨e,heq⟩ | ⟨e,heq⟩ | heq <;>
        rw [heq] <;> exact h
    · exact h
  | run calls =>
    simp only [step,Daemon.step]
    split_ifs
    · rcases createSocket_cases s.daemon.server s.kernel calls with ⟨e,heq⟩ | ⟨e,heq⟩ | heq <;>
        rw [heq] <;> exact h
    · exact h
  | serve outcome =>
    rcases s with ⟨⟨server,phase,stoppers⟩,kernel⟩
    cases phase with
    | accept => cases outcome <;> exact h
    | handleClient client =>
      obtain ⟨mail,heq⟩ := sendMemfdToClient_eq server kernel client outcome
      simp only [step,Daemon.step,Daemon.serve,RegistryInitializer.handleClient,heq]
      exact h
    | _ => exact h
  | shutdown t =>
    simp only [step,Daemon.step]
    split_ifs <;> exact h
  | stopSocket t =>
    simp only [step,Daemon.step]
    cases s.daemon.stoppers t with
    | none => exact h
    | some x => exact hstop
  | destroy =>
    simp only [step,Daemon.step,RegistryInitializer.destroy,RegistryInitializer.shutdown]
    split_ifs
    · exact hstop
    · exact h
    · exact h

theorem stoppers_step {t : Nat} {x : Option Nat} (h : s.daemon.stoppers t = some x) (e : Event)
    (he : e ≠ .stopSocket t) : (step s e).daemon.stoppers t = some x := by
  cases e with
  | initializeRegistry calls =>
    simp only [step,Daemon.step]
    split_ifs <;> exact h
  | run calls =>
    simp only [step,Daemon.step]
    split_ifs
    · rcases createSocket_cases s.daemon.server s.kernel calls with ⟨e,heq⟩ | ⟨e,heq⟩ | heq <;>
        rw [heq] <;> exact h
    · exact h
  | serve outcome =>
    rcases s with ⟨⟨server,phase,stoppers⟩,kernel⟩
    cases phase with
    | accept =>
      cases outcome with
      | done => exact h
      | failed => exact h
      | waiting =>
        simp only [step,Daemon.step,Daemon.serve]
        cases server.socketStopped kernel <;> exact h
    | _ => exact h
  | shutdown u =>
    simp only [step,Daemon.step]
    split_ifs with hdestroyed hfree hrunning
    · exact h
    · have hu : t ≠ u := by
        rintro rfl
        rw [hfree] at h
        cases h
      exact (Function.update_of_ne hu _ _).trans h
    · exact h
    · exact h
  | stopSocket u =>
    have hu : t ≠ u := by
      rintro rfl
      exact he rfl
    simp only [step,Daemon.step]
    cases s.daemon.stoppers u with
    | none => exact h
    | some y => exact (Function.update_of_ne hu _ _).trans h
  | destroy =>
    simp only [step,Daemon.step]
    split_ifs <;> exact h

theorem stopSocket_stops {t fd : Nat} {x : Option Nat} (h : s.daemon.stoppers t = some x)
    (hfd : s.daemon.server.socketFd = some fd) :
    (step s (.stopSocket t)).kernel.stopped fd = true := by
  simp only [step,Daemon.step,h,RegistryInitializer.stopSocket,hfd]
  exact Function.update_self _ _ _

/-- Where the flag is cleared and the socket shut down, every step of the owner brings it nearer to
the end of the loop. -/
theorem rank_step {fd : Nat} (h : s.daemon.phase.Looping)
    (hrunning : s.daemon.server.running = false) (hfd : s.daemon.server.socketFd = some fd)
    (hstopped : s.kernel.stopped fd = true) (e : Event) :
    (step s e).daemon.phase.rank+(if e.isServe then 1 else 0) ≤ s.daemon.phase.rank := by
  cases he : e.isServe with
  | false => simp [(step_of_not_serve (not_idle h) he).1]
  | true =>
    rcases s with ⟨⟨server,phase,stoppers⟩,kernel⟩
    have hfalse : server.running = false := hrunning
    have hsocket : server.socketStopped kernel = true := by
      have hsome : server.socketFd = some fd := hfd
      rw [RegistryInitializer.socketStopped,hsome]
      exact hstopped
    cases e with
    | serve outcome =>
      cases phase with
      | idle => cases h
      | store => cases h
      | test => simp [step,Daemon.step,Daemon.serve,Phase.rank,hfalse]
      | accept => cases outcome <;> simp [step,Daemon.step,Daemon.serve,Phase.rank,hsocket]
      | handleClient client => simp [step,Daemon.step,Daemon.serve,Phase.rank]
      | close client => simp [step,Daemon.step,Daemon.serve,Phase.rank]
      | destroyed => cases h
    | _ => cases he

theorem expects_step (h : s.daemon.phase.Looping) (hrunning : s.daemon.server.running = false)
    (e : Event) :
    (step s e).kernel.clients.acquired+(step s e).daemon.phase.expects ≤
      s.kernel.clients.acquired+s.daemon.phase.expects := by
  cases he : e.isServe with
  | false =>
    obtain ⟨hphase,hclients⟩ := step_of_not_serve (not_idle h) he
    rw [hphase,hclients]
  | true =>
    rcases s with ⟨⟨server,phase,stoppers⟩,kernel⟩
    have hfalse : server.running = false := hrunning
    cases e with
    | serve outcome =>
      cases phase with
      | idle => cases h
      | store => cases h
      | test => simp [step,Daemon.step,Daemon.serve,Phase.expects,hfalse]
      | accept =>
        cases outcome with
        | done => simp [step,Daemon.step,Daemon.serve,Phase.expects,Ledger.acquire]
        | failed => simp [step,Daemon.step,Daemon.serve,Phase.expects]
        | waiting =>
          simp only [step,Daemon.step,Daemon.serve]
          cases server.socketStopped kernel <;> simp [Phase.expects]
      | handleClient client =>
        obtain ⟨mail,heq⟩ := sendMemfdToClient_eq server kernel client outcome
        simp [step,Daemon.step,Daemon.serve,RegistryInitializer.handleClient,heq,Phase.expects]
      | close client => simp [step,Daemon.step,Daemon.serve,Phase.expects,Ledger.release]
      | destroyed => cases h
    | _ => cases he

end Loop

section Reached
variable {s : System}

structure Consistent (s : System) : Prop where
  quiet : ¬ s.daemon.phase.Looping → s.daemon.server.running = false
  listening : s.daemon.phase = .store ∨ s.daemon.phase.Looping →
    ∃ fd, s.daemon.server.socketFd = some fd

theorem Consistent.step (h : Consistent s) (e : Event) : Consistent (step s e) := by
  by_cases hloop : s.daemon.phase.Looping
  · obtain ⟨fd,hfd⟩ := h.listening (.inr hloop)
    have hfd' := (looping_socketFd hloop e).trans hfd
    rcases looping_step hloop e with hloop' | ⟨hidle,hrunning⟩
    · exact ⟨fun hnot => absurd hloop' hnot,fun _ => ⟨fd,hfd'⟩⟩
    · exact ⟨fun _ => (looping_running hloop e).1 hrunning,fun _ => ⟨fd,hfd'⟩⟩
  · have hquiet := h.quiet hloop
    have hlistening := h.listening
    rcases s with ⟨⟨server,phase,stoppers⟩,kernel⟩
    have hfalse : server.running = false := hquiet
    cases e with
    | initializeRegistry calls =>
      by_cases hidle : phase = .idle
      · subst hidle
        simp only [Initializer.step,Daemon.step,if_true,RegistryInitializer.initializeRegistry]
        rcases createMemfd_cases server kernel calls with ⟨e,heq⟩ | ⟨e,heq⟩ | heq <;> rw [heq] <;>
          exact ⟨fun _ => hfalse,by simp [Phase.Looping]⟩
      · simp only [Initializer.step,Daemon.step,if_neg hidle]
        exact h
    | run calls =>
      by_cases hidle : phase = .idle
      · subst hidle
        simp only [Initializer.step,Daemon.step,if_true]
        rcases createSocket_cases server kernel calls with ⟨e,heq⟩ | ⟨e,heq⟩ | heq
        · rw [heq]
          exact ⟨fun _ => hfalse,by simp [Phase.Looping]⟩
        · rw [heq]
          exact ⟨fun _ => hfalse,by simp [Phase.Looping]⟩
        · rw [heq]
          exact ⟨fun _ => hfalse,fun _ => ⟨_,rfl⟩⟩
      · simp only [Initializer.step,Daemon.step,if_neg hidle]
        exact h
    | serve outcome =>
      cases phase with
      | store => exact ⟨fun hnot => absurd trivial hnot,fun _ => hlistening (.inl rfl)⟩
      | idle => exact h
      | destroyed => exact h
      | test => exact absurd trivial hloop
      | accept => exact absurd trivial hloop
      | handleClient client => exact absurd trivial hloop
      | close client => exact absurd trivial hloop
    | shutdown t =>
      simp only [Initializer.step,Daemon.step]
      split_ifs with hdestroyed hfree hrunning
      · exact h
      · rw [hfalse] at hrunning
        cases hrunning
      · exact h
      · exact h
    | stopSocket t =>
      simp only [Initializer.step,Daemon.step]
      cases stoppers t with
      | none => exact h
      | some x => exact ⟨h.quiet,h.listening⟩
    | destroy =>
      by_cases hidle : phase = .idle
      · subst hidle
        exact ⟨fun _ => rfl,by simp [Initializer.step,Daemon.step,Phase.Looping]⟩
      · simp only [Initializer.step,Daemon.step,if_neg hidle]
        exact h

theorem consistent_at (σ : Nat → Event) (k : Nat) : Consistent (systemAt σ k) :=
  stateAt_invariant (C := fun _ _ => True) (n := k)
    ⟨fun _ => rfl,by simp [System.initial,Daemon.new,Phase.Looping]⟩ (fun _ _ => trivial)
    (fun _ e h _ => h.step e) k (Nat.le_refl k)

theorem serves_on (σ : Nat → Event) {a n : Nat}
    (hloop : (systemAt σ a).daemon.phase.Looping)
    (hrunning : (systemAt σ a).daemon.server.running = true)
    (hno : ∀ k, a ≤ k → k < n → ¬ CallsShutdown (systemAt σ k) (σ k)) :
    ∀ k, a ≤ k → k ≤ n → (systemAt σ k).daemon.phase.Looping := by
  have hboth : ∀ k, a ≤ k → k ≤ n → (systemAt σ k).daemon.phase.Looping ∧
      (systemAt σ k).daemon.server.running = true := by
    refine between_invariant ⟨hloop,hrunning⟩ fun k hak hkn ⟨hloop,hrunning⟩ => ?_
    rw [systemAt,stateAt_succ]
    refine ⟨?_,(looping_running hloop _).2 hrunning (hno k hak hkn)⟩
    refine (looping_step hloop _).resolve_right fun ⟨_,hfalse⟩ => ?_
    rw [hrunning] at hfalse
    cases hfalse
  exact fun k hak hkn => (hboth k hak hkn).1

/-- A server that has been told to stop while it serves: until it leaves its loop the flag stays
cleared, and the thread `t` has shut the socket down or is about to. -/
structure Stopping (s : System) (t fd : Nat) : Prop where
  looping : s.daemon.phase.Looping
  running : s.daemon.server.running = false
  socketFd : s.daemon.server.socketFd = some fd
  stops : s.kernel.stopped fd = true ∨ s.daemon.stoppers t = some (some fd)

theorem Stopping.step {t fd : Nat} (h : Stopping s t fd) (e : Event) :
    (step s e).daemon.phase = .idle ∨ Stopping (step s e) t fd := by
  rcases looping_step h.looping e with hloop | ⟨hidle,_⟩
  · refine .inr ⟨hloop,(looping_running h.looping e).1 h.running,
      (looping_socketFd h.looping e).trans h.socketFd,?_⟩
    rcases h.stops with hstopped | hstopper
    · exact .inl (stopped_step hstopped e)
    · by_cases he : e = .stopSocket t
      · rw [he]
        exact .inl (stopSocket_stops hstopper h.socketFd)
      · exact .inr (stoppers_step hstopper e he)
  · exact .inl hidle

theorem Consistent.looping_of_running (hs : Consistent s)
    (hrunning : s.daemon.server.running = true) : s.daemon.phase.Looping := by
  by_contra hloop
  have hfalse := hs.quiet hloop
  rw [hrunning] at hfalse
  cases hfalse

theorem shutdown_stopping {t : Nat} (hs : Consistent s) (hrunning : s.daemon.server.running = true)
    (ht : s.daemon.stoppers t = none) : ∃ fd, Stopping (step s (.shutdown t)) t fd := by
  have hloop := hs.looping_of_running hrunning
  obtain ⟨fd,hfd⟩ := hs.listening (.inr hloop)
  have hdestroyed : ¬ s.daemon.phase = .destroyed := by
    intro hdestroyed
    rw [hdestroyed] at hloop
    exact hloop
  refine ⟨fd,?_⟩
  simp only [Initializer.step,Daemon.step,if_neg hdestroyed,if_pos ht,hrunning,if_true]
  refine ⟨hloop,rfl,hfd,.inr ?_⟩
  simp [hfd]

end Reached

def Left (σ : Nat → Event) (i n : Nat) : Prop :=
  ∃ m, i < m ∧ m ≤ n ∧ (systemAt σ m).daemon.phase = .idle

theorem stopping_until {σ : Nat → Event} {i n t fd : Nat}
    (hstart : Stopping (systemAt σ (i+1)) t fd) (hin : ¬ Left σ i n) :
    ∀ m, i+1 ≤ m → m ≤ n → Stopping (systemAt σ m) t fd := by
  refine between_invariant hstart fun m him hmn h => ?_
  refine (h.step (σ m)).resolve_left fun hidle => ?_
  exact hin ⟨m+1,by omega,hmn,hidle⟩

theorem one_more_client {σ : Nat → Event} {i m t fd : Nat} (hshutdown : σ i = .shutdown t)
    (hloop : (systemAt σ i).daemon.phase.Looping) (hstart : Stopping (systemAt σ (i+1)) t fd)
    (him : i ≤ m) (hleft : ¬ Left σ i m) :
    (systemAt σ m).kernel.clients.acquired ≤ (systemAt σ i).kernel.clients.acquired+1 := by
  have hstay := stopping_until hstart hleft
  have hfirst : (systemAt σ (i+1)).kernel.clients.acquired+(systemAt σ (i+1)).daemon.phase.expects ≤
      (systemAt σ i).kernel.clients.acquired+1 := by
    obtain ⟨hphase,hclients⟩ :=
      step_of_not_serve (not_idle hloop) (e := .shutdown t) rfl
    have hexpects : (systemAt σ i).daemon.phase.expects ≤ 1 := by
      cases (systemAt σ i).daemon.phase <;> simp [Phase.expects]
    rw [systemAt,stateAt_succ,hshutdown,hphase,hclients]
    omega
  have hsum : ∀ k, i+1 ≤ k → k ≤ m →
      (systemAt σ k).kernel.clients.acquired+(systemAt σ k).daemon.phase.expects ≤
        (systemAt σ i).kernel.clients.acquired+1 := by
    refine between_invariant hfirst fun k hik hkm h => ?_
    have hk := hstay k hik (by omega)
    exact (expects_step hk.looping hk.running (σ k)).trans h
  rcases Nat.eq_or_lt_of_le him with rfl | hlt
  · omega
  · have hm := hsum m hlt (Nat.le_refl m)
    omega

theorem left_of_stopped {σ : Nat → Event} {i j n t fd : Nat}
    (hstart : Stopping (systemAt σ (i+1)) t fd) (hij : i < j) (hjn : j < n)
    (hstop : σ j = .stopSocket t)
    (hcount : Nat.count (fun k => (σ k).isServe = true) (j+1)+4 ≤
      Nat.count (fun k => (σ k).isServe = true) n) : Left σ i n := by
  by_contra hleft
  have hstay := stopping_until hstart hleft
  have hstopped : ∀ k, j+1 ≤ k → k ≤ n → (systemAt σ k).kernel.stopped fd = true := by
    refine between_invariant ?_ fun k _ _ h => stopped_step h (σ k)
    have hj := hstay j hij (by omega)
    rw [systemAt,stateAt_succ,hstop]
    rcases hj.stops with hstopped | hstopper
    · exact stopped_step hstopped _
    · exact stopSocket_stops hstopper hj.socketFd
  have hrank : (systemAt σ (j+1)).daemon.phase.rank ≤ 4 := by
    cases (systemAt σ (j+1)).daemon.phase <;> simp [Phase.rank]
  obtain ⟨k,hjk,hkn,hidle⟩ := reaches_of_rank
    (P := fun k => (systemAt σ k).daemon.phase = .idle)
    (T := fun k => (σ k).isServe = true)
    (r := fun k => (systemAt σ k).daemon.phase.rank) (a := j+1) (b := n) hjn
    (fun k hjk hkn hzero => by
      have hloop := (hstay k (by omega) hkn).looping
      cases hphase : (systemAt σ k).daemon.phase <;> simp_all [Phase.rank,Phase.Looping])
    (fun k hjk hkn _ => .inr (by
      have hk := hstay k (by omega) (by omega)
      exact rank_step hk.looping hk.running hk.socketFd (hstopped k hjk (by omega)) (σ k)))
    (by omega)
  exact not_idle (hstay k (by omega) hkn).looping hidle

/-- In every run `Run` stays in its loop from its store of the flag until a call of `Shutdown` that
comes after the store. Where a call finds the server running, one more client is served at most, and
once the call has shut the socket down the owner leaves the loop within four steps, whatever the
others do. -/
theorem serves_until_shutdown (σ : Nat → Event) (a n : Nat) (outcome : Outcome)
    (hstore : (systemAt σ a).daemon.phase = .store) (hserve : σ a = .serve outcome) :
    ((∀ k, a < k → k < n → ¬ CallsShutdown (systemAt σ k) (σ k)) →
      ∀ k, a < k → k ≤ n → (systemAt σ k).daemon.phase.Looping) ∧
    ∀ i t, σ i = .shutdown t → (systemAt σ i).daemon.stoppers t = none →
      (systemAt σ i).daemon.server.running = true →
      (∀ m, i ≤ m → ¬ Left σ i m →
        (systemAt σ m).kernel.clients.acquired ≤ (systemAt σ i).kernel.clients.acquired+1) ∧
      ∀ j, i < j → j < n → σ j = .stopSocket t →
        Nat.count (fun k => (σ k).isServe = true) (j+1)+4 ≤
          Nat.count (fun k => (σ k).isServe = true) n →
        Left σ i n := by
  constructor
  · intro hno
    have hnext : (systemAt σ (a+1)).daemon.phase.Looping ∧
        (systemAt σ (a+1)).daemon.server.running = true := by
      rw [systemAt,stateAt_succ,hserve]
      simp [step,Daemon.step,Daemon.serve,hstore,Phase.Looping]
    exact fun k hak hkn => serves_on σ hnext.1 hnext.2 (fun k hk hkn => hno k hk hkn) k hak hkn
  · intro i t hshutdown ht hrunning
    have hstart : ∃ fd, Stopping (systemAt σ (i+1)) t fd := by
      rw [systemAt,stateAt_succ,hshutdown]
      exact shutdown_stopping (consistent_at σ i) hrunning ht
    obtain ⟨fd,hstart⟩ := hstart
    have hs := consistent_at σ i
    exact ⟨fun m him hleft => one_more_client hshutdown (hs.looping_of_running hrunning) hstart him
      hleft,fun j hij hjn hstop hcount => left_of_stopped hstart hij hjn hstop hcount⟩

def stopped : Nat → Event :=
  schedule [.initializeRegistry ⟨true,true,true⟩,.run ⟨true,true,true⟩,.serve .done,.serve .done,
    .shutdown 0,.stopSocket 0,.serve .waiting,.serve .waiting,.serve .waiting,.serve .waiting]
    .destroy

theorem serves_until_shutdown_stopped :
    (systemAt stopped 4).daemon.phase = .accept ∧ Left stopped 4 10 := by
  have hstop := (serves_until_shutdown stopped 2 10 .done (by decide +kernel) rfl).2 4 0 rfl
    (by decide +kernel) (by decide +kernel)
  exact ⟨by decide +kernel,hstop.2 5 (by decide) (by decide) rfl (by decide +kernel)⟩

section Late
variable {s : System}

def Serving (s : System) : Prop := s.daemon.phase = .store ∨ s.daemon.server.running = true

/-- `Run` serves on a socket that is shut down, where every `accept` fails. -/
def Stuck (s : System) : Prop :=
  Serving s ∧ s.daemon.server.socketStopped s.kernel = true

/-- A call of `Shutdown` that found the server running under another socket goes on now. -/
def Late (s : System) (e : Event) : Prop :=
  ∃ t x, e = .stopSocket t ∧ s.daemon.stoppers t = some x ∧ x ≠ s.daemon.server.socketFd ∧ Serving s

structure Dated (s : System) : Prop where
  socket_lt : ∀ fd, s.daemon.server.socketFd = some fd → fd < s.kernel.sockets.acquired
  stopped_lt : ∀ fd, s.kernel.stopped fd = true → fd < s.kernel.sockets.acquired
  stoppers_lt : ∀ t x, s.daemon.stoppers t = some x →
    ∃ fd, x = some fd ∧ fd < s.kernel.sockets.acquired
  own : ∀ t, s.daemon.stoppers t = some s.daemon.server.socketFd → ¬ Serving s

theorem serve_frame (s : System) (outcome : Outcome) :
    (step s (.serve outcome)).daemon.stoppers = s.daemon.stoppers ∧
      (step s (.serve outcome)).kernel.stopped = s.kernel.stopped ∧
      (Serving (step s (.serve outcome)) → Serving s) := by
  rcases s with ⟨⟨server,phase,stoppers⟩,kernel⟩
  cases phase with
  | idle => exact ⟨rfl,rfl,id⟩
  | store => exact ⟨rfl,rfl,fun _ => .inl rfl⟩
  | test =>
    refine ⟨rfl,rfl,fun h => .inr (h.resolve_left ?_)⟩
    cases hrunning : server.running <;> simp [step,Daemon.step,Daemon.serve,hrunning]
  | accept =>
    cases outcome with
    | done => exact ⟨rfl,rfl,fun h => .inr (h.resolve_left (by rintro ⟨⟩))⟩
    | failed => exact ⟨rfl,rfl,fun h => .inr (h.resolve_left (by rintro ⟨⟩))⟩
    | waiting =>
      simp only [step,Daemon.step,Daemon.serve]
      refine ⟨?_,trivial,fun h => .inr ?_⟩
      · cases server.socketStopped kernel <;> rfl
      · revert h
        cases server.socketStopped kernel <;> exact fun h => h.resolve_left (by rintro ⟨⟩)
  | handleClient client =>
    obtain ⟨mail,heq⟩ := sendMemfdToClient_eq server kernel client outcome
    simp only [step,Daemon.step,Daemon.serve,RegistryInitializer.handleClient,heq]
    exact ⟨trivial,trivial,fun h => .inr (h.resolve_left (by rintro ⟨⟩))⟩
  | close client => exact ⟨rfl,rfl,fun h => .inr (h.resolve_left (by rintro ⟨⟩))⟩
  | destroyed => exact ⟨rfl,rfl,id⟩

theorem Dated.stopSocket (h : Dated s) (fd : Nat)
    (hstopped : (s.daemon.server.stopSocket s.kernel).stopped fd = true) :
    fd < s.kernel.sockets.acquired := by
  unfold RegistryInitializer.stopSocket at hstopped
  cases hsocket : s.daemon.server.socketFd with
  | none =>
    rw [hsocket] at hstopped
    exact h.stopped_lt fd hstopped
  | some x =>
    simp only [hsocket] at hstopped
    by_cases hx : fd = x
    · rw [hx]
      exact h.socket_lt x hsocket
    · rw [Function.update_of_ne hx] at hstopped
      exact h.stopped_lt fd hstopped

theorem Dated.step (h : Dated s) (hs : Consistent s) (e : Event) : Dated (step s e) := by
  have hquiet := hs.quiet
  have hown := h.own
  rcases s with ⟨⟨server,phase,stoppers⟩,kernel⟩
  cases e with
  | initializeRegistry calls =>
    by_cases hidle : phase = .idle
    · simp only [Initializer.step,Daemon.step,if_pos hidle,RegistryInitializer.initializeRegistry]
      rcases createMemfd_cases server kernel calls with ⟨e,heq⟩ | ⟨e,heq⟩ | heq <;> rw [heq] <;>
        exact ⟨h.socket_lt,h.stopped_lt,h.stoppers_lt,h.own⟩
    · simp only [Initializer.step,Daemon.step,if_neg hidle]
      exact h
  | run calls =>
    by_cases hidle : phase = .idle
    · subst hidle
      have hfalse : server.running = false := hquiet id
      have hno : ∀ (fd : Option Nat) (k : Kernel),
          ¬ Serving ⟨⟨{ server with socketFd := fd },.idle,stoppers⟩,k⟩ := by
        rintro fd k (hstore | hrunning)
        · cases hstore
        · rw [show server.running = true from hrunning] at hfalse
          cases hfalse
      simp only [Initializer.step,Daemon.step,if_true]
      rcases createSocket_cases server kernel calls with ⟨e,heq⟩ | ⟨e,heq⟩ | heq
      · rw [heq]
        exact ⟨by simp,h.stopped_lt,h.stoppers_lt,fun _ _ => hno _ _⟩
      · rw [heq]
        refine ⟨by simp,fun fd hfd => Nat.lt_succ_of_lt (h.stopped_lt fd hfd),fun t x hx => ?_,
          fun _ _ => hno _ _⟩
        obtain ⟨fd,rfl,hfd⟩ := h.stoppers_lt t x hx
        exact ⟨fd,rfl,Nat.lt_succ_of_lt hfd⟩
      · rw [heq]
        refine ⟨fun fd hfd => ?_,fun fd hfd => Nat.lt_succ_of_lt (h.stopped_lt fd hfd),
          fun t x hx => ?_,fun t ht => ?_⟩
        · obtain rfl : kernel.sockets.acquired = fd := Option.some.inj hfd
          exact Nat.lt_succ_self _
        · obtain ⟨fd,rfl,hfd⟩ := h.stoppers_lt t x hx
          exact ⟨fd,rfl,Nat.lt_succ_of_lt hfd⟩
        · obtain ⟨fd,heq,hfd⟩ := h.stoppers_lt t _ ht
          obtain rfl : kernel.sockets.acquired = fd := Option.some.inj heq
          exact absurd hfd (Nat.lt_irrefl _)
    · simp only [Initializer.step,Daemon.step,if_neg hidle]
      exact h
  | serve outcome =>
    have hsame := serve_same ⟨⟨server,phase,stoppers⟩,kernel⟩ outcome
    obtain ⟨hstoppers,hstopped,hserving⟩ := serve_frame ⟨⟨server,phase,stoppers⟩,kernel⟩ outcome
    refine ⟨?_,?_,?_,?_⟩
    · rw [hsame.socketFd,hsame.sockets]
      exact h.socket_lt
    · rw [hstopped,hsame.sockets]
      exact h.stopped_lt
    · rw [hstoppers,hsame.sockets]
      exact h.stoppers_lt
    · rw [hstoppers,hsame.socketFd]
      exact fun t ht hserves => hown t ht (hserving hserves)
  | shutdown t =>
    simp only [Initializer.step,Daemon.step]
    split_ifs with hdestroyed hfree hrunning
    · exact h
    · obtain ⟨fd,hfd⟩ := hs.listening (.inr (hs.looping_of_running hrunning))
      have hno : ¬ Serving ⟨⟨{ server with running := false },phase,
          Function.update stoppers t (some server.socketFd)⟩,kernel⟩ := by
        rintro (hstore | hrunning')
        · have hloop := hs.looping_of_running hrunning
          rw [show phase = .store from hstore] at hloop
          exact hloop
        · cases hrunning'
      refine ⟨h.socket_lt,h.stopped_lt,fun u x hx => ?_,fun _ _ => hno⟩
      by_cases hu : u = t
      · subst hu
        obtain rfl : server.socketFd = x := by simpa using hx
        exact ⟨fd,hfd,h.socket_lt fd hfd⟩
      · exact h.stoppers_lt u x ((Function.update_of_ne hu _ _).symm.trans hx)
    · exact h
    · exact h
  | stopSocket t =>
    simp only [Initializer.step,Daemon.step]
    cases hx : stoppers t with
    | none => exact h
    | some x =>
      obtain ⟨stopped,heq⟩ := stopSocket_eq server kernel
      have hlt := h.stopSocket
      simp only [heq] at hlt ⊢
      have hkept : ∀ u y, Function.update stoppers t none u = some y → stoppers u = some y := by
        intro u y hy
        by_cases hu : u = t
        · subst hu
          simp at hy
        · exact (Function.update_of_ne hu _ _).symm.trans hy
      exact ⟨h.socket_lt,hlt,fun u y hy => h.stoppers_lt u y (hkept u y hy),
        fun u hu => hown u (hkept u _ hu)⟩
  | destroy =>
    by_cases hidle : phase = .idle
    · subst hidle
      have hfalse : server.running = false := hquiet id
      have hsockets : (kernel.sockets.releaseAll server.socketFd.toList).acquired =
          kernel.sockets.acquired := by
        cases server.socketFd <;> rfl
      simp only [Initializer.step,Daemon.step,if_true,RegistryInitializer.destroy,
        RegistryInitializer.shutdown,hfalse]
      refine ⟨by simp,?_,?_,fun t _ => ?_⟩
      · exact fun fd hfd => hsockets.symm ▸ h.stopped_lt fd hfd
      · exact fun t x hx => hsockets.symm ▸ h.stoppers_lt t x hx
      · rintro (hstore | hrunning)
        · cases hstore
        · cases hrunning
    · simp only [Initializer.step,Daemon.step,if_neg hidle]
      exact h

theorem not_late {e : Event} (he : ∀ t, e ≠ .stopSocket t) : ¬ Late s e :=
  fun ⟨t,_,heq,_⟩ => he t heq

theorem step_stuck_iff (hs : Consistent s) (h : Dated s) (hstuck : ¬ Stuck s) (e : Event) :
    ¬ Stuck (step s e) ↔ ¬ Late s e := by
  have hquiet := hs.quiet
  have hlistening := hs.listening
  cases e with
  | initializeRegistry calls =>
    refine iff_of_true ?_ (not_late (by simp))
    simp only [step,Daemon.step,RegistryInitializer.initializeRegistry]
    split_ifs
    · rcases createMemfd_cases s.daemon.server s.kernel calls with ⟨e,heq⟩ | ⟨e,heq⟩ | heq <;>
        rw [heq] <;> exact hstuck
    · exact hstuck
  | run calls =>
    refine iff_of_true ?_ (not_late (by simp))
    simp only [step,Daemon.step]
    split_ifs with hidle
    · have hfalse : s.daemon.server.running = false := hquiet (by simp [hidle,Phase.Looping])
      rcases createSocket_cases s.daemon.server s.kernel calls with ⟨e,heq⟩ | ⟨e,heq⟩ | heq
      · rw [heq]
        simp [Stuck,Serving,hidle,hfalse]
      · rw [heq]
        simp [Stuck,Serving,hidle,hfalse]
      · rw [heq]
        rintro ⟨_,hstopped⟩
        exact Nat.lt_irrefl _ (h.stopped_lt _ hstopped)
    · exact hstuck
  | serve outcome =>
    refine iff_of_true ?_ (not_late (by simp))
    obtain ⟨_,hstopped,hserving⟩ := serve_frame s outcome
    rintro ⟨hserves,hsocket⟩
    rw [RegistryInitializer.socketStopped,(serve_same s outcome).socketFd,hstopped] at hsocket
    exact hstuck ⟨hserving hserves,hsocket⟩
  | shutdown t =>
    refine iff_of_true ?_ (not_late (by simp))
    simp only [step,Daemon.step]
    split_ifs with hdestroyed hfree hrunning
    · exact hstuck
    · rintro ⟨hstore | hrunning',_⟩
      · have hloop := hs.looping_of_running hrunning
        rw [show s.daemon.phase = .store from hstore] at hloop
        exact hloop
      · cases hrunning'
    · exact hstuck
    · exact hstuck
  | stopSocket t =>
    cases hx : s.daemon.stoppers t with
    | none =>
      simp only [step,Daemon.step,hx]
      refine iff_of_true hstuck ?_
      rintro ⟨u,x,heq,hu,_⟩
      cases heq
      rw [hx] at hu
      cases hu
    | some x =>
      by_cases hserving : Serving s
      · have hne : x ≠ s.daemon.server.socketFd := by
          rintro rfl
          exact h.own t hx hserving
        refine iff_of_false (not_not_intro ?_) (not_not_intro ⟨t,x,rfl,hx,hne,hserving⟩)
        obtain ⟨fd,hfd⟩ := hlistening (hserving.imp_right hs.looping_of_running)
        refine ⟨?_,?_⟩
        · simp only [step,Daemon.step,hx]
          exact hserving
        · have hstopped := stopSocket_stops hx hfd
          have hsocket := (stopSocket_same s t).socketFd.trans hfd
          rw [RegistryInitializer.socketStopped,hsocket]
          exact hstopped
      · refine iff_of_true ?_ ?_
        · simp only [step,Daemon.step,hx]
          exact fun hstuck' => hserving hstuck'.1
        · rintro ⟨_,_,_,_,_,hserves⟩
          exact hserving hserves
  | destroy =>
    refine iff_of_true ?_ (not_late (by simp))
    by_cases hidle : s.daemon.phase = .idle
    · simp only [step,Daemon.step,if_pos hidle]
      rintro ⟨hstore | hrunning,_⟩
      · cases hstore
      · cases hrunning
    · simp only [step,Daemon.step,if_neg hidle]
      exact hstuck

/-- In every run `Run` never serves on a socket that is shut down just where no call of `Shutdown`
which found an earlier `Run` comes to its `shutdown` while a later one serves. -/
theorem never_stuck_iff (σ : Nat → Event) (n : Nat) :
    (∀ k, k < n → ¬ Stuck (systemAt σ (k+1))) ↔ ∀ k, k < n → ¬ Late (systemAt σ k) (σ k) := by
  have hinit : Dated System.initial ∧ ¬ Stuck System.initial := by
    refine ⟨⟨nofun,nofun,nofun,nofun⟩,?_⟩
    simp [Stuck,Serving,System.initial,Daemon.new,RegistryInitializer.new]
  exact forall_iff_of_invariant
    (I := fun k => Dated (systemAt σ k) ∧ ¬ Stuck (systemAt σ k)) hinit
    (fun k ⟨hdated,hstuck⟩ hlate =>
      ⟨hdated.step (consistent_at σ k) _,
        (step_stuck_iff (consistent_at σ k) hdated hstuck _).mpr hlate⟩)
    fun k ⟨hdated,hstuck⟩ => step_stuck_iff (consistent_at σ k) hdated hstuck _

end Late

end LapCom.Initializer
