import LapCom.Iceoryx2.Routing

set_option autoImplicit false

namespace LapCom.Iceoryx2
open LapCom.Machine

inductive Op (C : Type) where
  | call (a : Call C)
  | findService (serviceId : BitVec 64)
  | getMetrics

inductive Holder where
  | thread (t : Nat)
  | listener (key : BitVec 64)
  deriving DecidableEq

/-- Where a thread that calls the binding stands. `stopping` and `joining` are the two halves of
one turn of the loop in `Shutdown`, which `UnsubscribeEvent` takes once. -/
inductive Phase (C : Type) where
  | idle
  | calling (op : Op C)
  | holding (op : Op C)
  | stopping (a : Call C) (keys : List (BitVec 64))
  | joining (a : Call C) (key : BitVec 64) (keys : List (BitVec 64))
  | leaving

/-- Where `listenerThread` stands: before it reads `running`, before it receives, in the
callback, before it has `mutex_` for the metrics, and with it. -/
inductive Position where
  | head
  | polling
  | callback (data : List Byte)
  | waiting (data : List Byte)
  | counting (data : List Byte)
  | ended

structure Listener where
  running : Bool
  position : Position

/-- A binding with the threads that call it and its listener threads, which have the keys of
their subscriptions. -/
structure Process (C : Type) where
  binding : Iceoryx2Binding C
  mutex : Option Holder
  threads : Nat → Phase C
  listeners : BitVec 64 → Option Listener

inductive Move (C : Type) where
  | enter (t : Nat) (op : Op C)
  | acquire (t : Nat)
  | perform (t : Nat)
  | stop (t : Nat)
  | join (t : Nat)
  | release (t : Nat)
  | check (key : BitVec 64)
  | receive (key : BitVec 64) (sample : Option (List Byte))
  | finish (key : BitVec 64)
  | lock (key : BitVec 64)
  | count (key : BitVec 64)

namespace Process
variable {C : Type}

def initial : Process C := ⟨.new,none,fun _ => .idle,fun _ => none⟩

def goto (s : Process C) (t : Nat) (p : Phase C) : Process C :=
  { s with threads := Function.update s.threads t p }

def place (s : Process C) (key : BitVec 64) (l : Listener) : Process C :=
  { s with listeners := Function.update s.listeners key (some l) }

def position (s : Process C) (key : BitVec 64) : Option Position :=
  (s.listeners key).map Listener.position

def become (s : Process C) (b : Iceoryx2Binding C) : Process C :=
  { s with
    binding := b
    listeners := fun key =>
      if key ∈ b.subscribers then
        if key ∈ s.binding.subscribers then s.listeners key else some ⟨true,.head⟩
      else none }

def run (s : Process C) (t : Nat) : Op C → Process C
  | .findService _ => s.goto t .leaving
  | .getMetrics => s.goto t .leaving
  | .call (.unsubscribeEvent x) =>
    if x.key ∈ s.binding.subscribers then s.goto t (.stopping (.unsubscribeEvent x) [x.key])
    else s.goto t .leaving
  | .call .shutdown =>
    if s.binding.initialized then
      s.goto t (.stopping .shutdown (s.binding.subscribers.keys.mergeSort fun a b => a ≤ b))
    else s.goto t .leaving
  | .call a => (s.become (a.exec s.binding).2.1).goto t .leaving

def step (s : Process C) : Move C → Process C
  | .enter t op =>
    match s.threads t with
    | .idle => s.goto t (.calling op)
    | _ => s
  | .acquire t =>
    match s.threads t,s.mutex with
    | .calling op,none => { s.goto t (.holding op) with mutex := some (.thread t) }
    | _,_ => s
  | .perform t =>
    match s.threads t with
    | .holding op => s.run t op
    | _ => s
  | .stop t =>
    match s.threads t with
    | .stopping a (key :: keys) =>
      let s' := s.goto t (.joining a key keys)
      match s.listeners key with
      | some l => s'.place key ⟨false,l.position⟩
      | none => s'
    | .stopping a [] => (s.become (a.exec s.binding).2.1).goto t .leaving
    | _ => s
  | .join t =>
    match s.threads t with
    | .joining a key keys =>
      match s.position key with
      | some .ended => s.goto t (.stopping a keys)
      | some _ => s
      | none => s.goto t (.stopping a keys)
    | _ => s
  | .release t =>
    match s.threads t with
    | .leaving => { s.goto t .idle with mutex := none }
    | _ => s
  | .check key =>
    match s.listeners key with
    | some ⟨running,.head⟩ => s.place key ⟨running,if running then .polling else .ended⟩
    | _ => s
  | .receive key sample =>
    match s.listeners key with
    | some ⟨running,.polling⟩ =>
      match sample with
      | none => s.place key ⟨running,.head⟩
      | some data => s.place key ⟨running,.callback data⟩
    | _ => s
  | .finish key =>
    match s.listeners key with
    | some ⟨running,.callback data⟩ => s.place key ⟨running,.waiting data⟩
    | _ => s
  | .lock key =>
    match s.listeners key,s.mutex with
    | some ⟨running,.waiting data⟩,none =>
      { s.place key ⟨running,.counting data⟩ with mutex := some (.listener key) }
    | _,_ => s
  | .count key =>
    match s.listeners key with
    | some ⟨running,.counting data⟩ =>
      { s.place key ⟨running,.head⟩ with
        mutex := none
        binding := { s.binding with metrics := s.binding.metrics.received data.length } }
    | _ => s

/-- A thread waits with `mutex_` for a listener to end that waits for `mutex_`. -/
def Deadlocked (s : Process C) : Prop :=
  ∃ t a key keys data, s.threads t = .joining a key keys ∧ s.mutex = some (.thread t) ∧
    s.position key = some (.waiting data)

def Busy (s : Process C) (key : BitVec 64) : Prop :=
  ∃ data, s.position key = some (.callback data) ∨ s.position key = some (.waiting data)

/-- A listener is stopped only where it is not busy, and one that is waited for receives nothing. -/
def Calm (s : Process C) : Move C → Prop
  | .stop t => ∀ a key keys, s.threads t = .stopping a (key :: keys) → ¬ s.Busy key
  | .receive key (some _) =>
    s.position key = some .polling → ∀ t a keys, s.threads t ≠ .joining a key keys
  | _ => True

@[simp] theorem goto_threads (s : Process C) (t : Nat) (p : Phase C) :
    (s.goto t p).threads = Function.update s.threads t p := rfl

@[simp] theorem goto_mutex (s : Process C) (t : Nat) (p : Phase C) :
    (s.goto t p).mutex = s.mutex := rfl

@[simp] theorem goto_listeners (s : Process C) (t : Nat) (p : Phase C) :
    (s.goto t p).listeners = s.listeners := rfl

@[simp] theorem place_threads (s : Process C) (key : BitVec 64) (l : Listener) :
    (s.place key l).threads = s.threads := rfl

@[simp] theorem place_mutex (s : Process C) (key : BitVec 64) (l : Listener) :
    (s.place key l).mutex = s.mutex := rfl

@[simp] theorem become_threads (s : Process C) (b : Iceoryx2Binding C) :
    (s.become b).threads = s.threads := rfl

@[simp] theorem become_mutex (s : Process C) (b : Iceoryx2Binding C) :
    (s.become b).mutex = s.mutex := rfl

inductive Turn (s : Process C) (t : Nat) : Move C → Phase C → Phase C → Prop where
  | enter (op : Op C) : Turn s t (.enter t op) .idle (.calling op)
  | acquire (op : Op C) : s.mutex = none → Turn s t (.acquire t) (.calling op) (.holding op)
  | perform (op : Op C) : Turn s t (.perform t) (.holding op) .leaving
  | stopFirst (op : Op C) (a : Call C) (keys : List (BitVec 64)) :
    Turn s t (.perform t) (.holding op) (.stopping a keys)
  | stop (a : Call C) (key : BitVec 64) (keys : List (BitVec 64)) :
    Turn s t (.stop t) (.stopping a (key :: keys)) (.joining a key keys)
  | conclude (a : Call C) : Turn s t (.stop t) (.stopping a []) .leaving
  | join (a : Call C) (key : BitVec 64) (keys : List (BitVec 64)) :
    (∀ p, s.position key = some p → p = .ended) →
      Turn s t (.join t) (.joining a key keys) (.stopping a keys)
  | release : Turn s t (.release t) .leaving .idle

theorem run_threads (s : Process C) (t : Nat) (op : Op C) :
    (s.run t op).threads = Function.update s.threads t .leaving ∨
      ∃ a keys, (s.run t op).threads = Function.update s.threads t (.stopping a keys) := by
  cases op with
  | findService i => exact .inl rfl
  | getMetrics => exact .inl rfl
  | call a =>
    cases a with
    | unsubscribeEvent x =>
      rw [run]
      split_ifs
      · exact .inr ⟨_,_,rfl⟩
      · exact .inl rfl
    | shutdown =>
      rw [run]
      split_ifs
      · exact .inr ⟨_,_,rfl⟩
      · exact .inl rfl
    | initializeBinding outcome => exact .inl rfl
    | offerService i j outcome => exact .inl rfl
    | stopOfferService i j => exact .inl rfl
    | sendEvent x data outcome => exact .inl rfl
    | subscribeEvent x callback outcome => exact .inl rfl

theorem update_turn {s s' : Process C} {e : Move C} {u : Nat} {p : Phase C}
    (h : s'.threads = Function.update s.threads u p) (hturn : Turn s u e (s.threads u) p)
    (t : Nat) : s'.threads t = s.threads t ∨ Turn s t e (s.threads t) (s'.threads t) := by
  by_cases ht : t = u
  · subst ht
    rw [h,Function.update_self]
    exact .inr hturn
  · rw [h,Function.update_of_ne ht]
    exact .inl rfl

theorem step_turn (s : Process C) (e : Move C) (t : Nat) :
    (s.step e).threads t = s.threads t ∨
      Turn s t e (s.threads t) ((s.step e).threads t) := by
  cases e with
  | enter u op =>
    simp only [step]
    split
    · rename_i hu
      exact update_turn rfl (by rw [hu]; exact .enter op) t
    · exact .inl rfl
  | acquire u =>
    simp only [step]
    split
    · rename_i op hu hfree
      exact update_turn rfl (by rw [hu]; exact .acquire op hfree) t
    · exact .inl rfl
  | perform u =>
    simp only [step]
    split
    · rename_i op hu
      obtain hrun | ⟨a,keys,hrun⟩ := run_threads s u op
      · exact update_turn hrun (by rw [hu]; exact .perform op) t
      · exact update_turn hrun (by rw [hu]; exact .stopFirst op a keys) t
    · exact .inl rfl
  | stop u =>
    simp only [step]
    split
    · rename_i a key keys hu
      cases s.listeners key with
      | none => exact update_turn rfl (by rw [hu]; exact .stop a key keys) t
      | some l => exact update_turn rfl (by rw [hu]; exact .stop a key keys) t
    · rename_i a hu
      exact update_turn rfl (by rw [hu]; exact .conclude a) t
    · exact .inl rfl
  | join u =>
    simp only [step]
    split
    · rename_i a key keys hu
      split
      · rename_i hended
        refine update_turn rfl ?_ t
        rw [hu]
        exact .join a key keys (fun p hp => by rw [hended] at hp; exact (Option.some.inj hp).symm)
      · exact .inl rfl
      · rename_i hnone
        refine update_turn rfl ?_ t
        rw [hu]
        exact .join a key keys (fun p hp => by rw [hnone] at hp; cases hp)
    · exact .inl rfl
  | release u =>
    simp only [step]
    split
    · rename_i hu
      exact update_turn rfl (by rw [hu]; exact .release) t
    · exact .inl rfl
  | check key =>
    simp only [step]
    split <;> exact .inl rfl
  | receive key sample =>
    simp only [step]
    split
    · cases sample <;> exact .inl rfl
    · exact .inl rfl
  | finish key =>
    simp only [step]
    split <;> exact .inl rfl
  | lock key =>
    simp only [step]
    split <;> exact .inl rfl
  | count key =>
    simp only [step]
    split <;> exact .inl rfl

inductive Shift (s : Process C) (key : BitVec 64) : Move C → Position → Position → Prop where
  | poll : Shift s key (.check key) .head .polling
  | leave : Shift s key (.check key) .head .ended
  | nothing : Shift s key (.receive key none) .polling .head
  | sample (data : List Byte) : Shift s key (.receive key (some data)) .polling (.callback data)
  | finish (data : List Byte) : Shift s key (.finish key) (.callback data) (.waiting data)
  | lock (data : List Byte) : s.mutex = none →
    Shift s key (.lock key) (.waiting data) (.counting data)
  | count (data : List Byte) : Shift s key (.count key) (.counting data) .head

theorem become_position (s : Process C) (b : Iceoryx2Binding C) (key : BitVec 64) :
    (s.become b).position key = s.position key ∨
      ∀ p, (s.become b).position key = some p → p = .head := by
  simp only [position,become]
  split_ifs
  · exact .inl rfl
  · exact .inr fun p hp => (Option.some.inj hp).symm
  · exact .inr fun p hp => nomatch hp

theorem run_position (s : Process C) (t : Nat) (op : Op C) (key : BitVec 64) :
    (s.run t op).position key = s.position key ∨
      ∀ p, (s.run t op).position key = some p → p = .head := by
  cases op with
  | findService i => exact .inl rfl
  | getMetrics => exact .inl rfl
  | call a =>
    cases a with
    | unsubscribeEvent x =>
      rw [run]
      split_ifs <;> exact .inl rfl
    | shutdown =>
      rw [run]
      split_ifs <;> exact .inl rfl
    | initializeBinding outcome => exact become_position s _ key
    | offerService i j outcome => exact become_position s _ key
    | stopOfferService i j => exact become_position s _ key
    | sendEvent x data outcome => exact become_position s _ key
    | subscribeEvent x callback outcome => exact become_position s _ key

theorem position_place (s : Process C) (u key : BitVec 64) (l : Listener) :
    (s.place u l).position key = if key = u then some l.position else s.position key := by
  by_cases hkey : key = u
  · subst hkey
    simp [position,place]
  · simp [position,place,hkey]

def Changing : Phase C → Prop
  | .holding _ => True
  | .stopping _ [] => True
  | _ => False

/-- What one step makes of the position of a listener: nothing, the next one, or it is a new
listener or none where a call has changed the table. -/
def Moves (s s' : Process C) (e : Move C) (key : BitVec 64) : Prop :=
  s'.position key = s.position key ∨
  (∃ p p', s.position key = some p ∧ s'.position key = some p' ∧ Shift s key e p p') ∨
  ((∃ t, Changing (s.threads t)) ∧ ∀ p, s'.position key = some p → p = .head)

theorem place_moves {s s' : Process C} {e : Move C} {u : BitVec 64} {l : Listener}
    {q : Position} (hs : ∀ key, s'.position key = (s.place u ⟨l.running,q⟩).position key)
    (hl : s.listeners u = some l) (hshift : Shift s u e l.position q) (key : BitVec 64) :
    Moves s s' e key := by
  by_cases hkey : key = u
  · subst hkey
    refine .inr (.inl ⟨l.position,q,by rw [position,hl]; rfl,?_,hshift⟩)
    rw [hs,position_place,if_pos rfl]
  · refine .inl ?_
    rw [hs,position_place,if_neg hkey]

theorem step_moves (s : Process C) (e : Move C) (key : BitVec 64) :
    Moves s (s.step e) e key := by
  cases e with
  | enter u op =>
    simp only [step]
    split <;> exact .inl rfl
  | acquire u =>
    simp only [step]
    split <;> exact .inl rfl
  | perform u =>
    simp only [step]
    split
    · rename_i op hu
      exact (run_position s u op key).imp_right fun h => .inr ⟨⟨u,by rw [hu]; trivial⟩,h⟩
    · exact .inl rfl
  | stop u =>
    simp only [step]
    split
    · split
      · rename_i l hl
        refine .inl ?_
        rw [position_place]
        split_ifs with hkey
        · rw [position,hkey,hl]
          rfl
        · rfl
      · exact .inl rfl
    · rename_i a hu
      exact (become_position s _ key).imp_right fun h => .inr ⟨⟨u,by rw [hu]; trivial⟩,h⟩
    · exact .inl rfl
  | join u =>
    simp only [step]
    split
    · split <;> exact .inl rfl
    · exact .inl rfl
  | release u =>
    simp only [step]
    split <;> exact .inl rfl
  | check u =>
    simp only [step]
    split
    · rename_i running hl
      refine place_moves (fun _ => rfl) hl ?_ key
      cases running
      · exact .leave
      · exact .poll
    · exact .inl rfl
  | receive u sample =>
    simp only [step]
    split
    · rename_i running hl
      cases sample with
      | none => exact place_moves (fun _ => rfl) hl .nothing key
      | some data => exact place_moves (fun _ => rfl) hl (.sample data) key
    · exact .inl rfl
  | finish u =>
    simp only [step]
    split
    · rename_i running data hl
      exact place_moves (fun _ => rfl) hl (.finish data) key
    · exact .inl rfl
  | lock u =>
    simp only [step]
    split
    · rename_i running data hl hfree
      exact place_moves (fun _ => rfl) hl (.lock data hfree) key
    · exact .inl rfl
  | count u =>
    simp only [step]
    split
    · rename_i running data hl
      exact place_moves (fun _ => rfl) hl (.count data) key
    · exact .inl rfl

/-- How a listener has come to where it is. A new one is at the head. -/
theorem step_shift {s : Process C} {e : Move C} {key : BitVec 64} {p' : Position}
    (h : (s.step e).position key = some p') :
    (s.position key = some p' ∨ ∃ p, s.position key = some p ∧ Shift s key e p p') ∨
      p' = .head := by
  obtain hsame | ⟨p,q,hp,hq,hshift⟩ | ⟨_,hhead⟩ := step_moves s e key
  · exact .inl (.inl (hsame.symm.trans h))
  · rw [h] at hq
    obtain rfl := Option.some.inj hq
    exact .inl (.inr ⟨p,hp,hshift⟩)
  · exact .inr (hhead p' h)

inductive Grip (s : Process C) : Move C → Prop where
  | acquire (t : Nat) : s.mutex = none → (s.step (.acquire t)).mutex = some (.thread t) →
    Grip s (.acquire t)
  | release (t : Nat) : s.threads t = .leaving → (s.step (.release t)).threads t = .idle →
    Grip s (.release t)
  | lock (key : BitVec 64) : s.mutex = none →
    (s.step (.lock key)).mutex = some (.listener key) → Grip s (.lock key)
  | count (key : BitVec 64) (data : List Byte) : s.position key = some (.counting data) →
    (s.step (.count key)).position key = some .head → Grip s (.count key)

theorem run_mutex (s : Process C) (t : Nat) (op : Op C) : (s.run t op).mutex = s.mutex := by
  cases op with
  | findService i => rfl
  | getMetrics => rfl
  | call a =>
    cases a with
    | unsubscribeEvent x =>
      rw [run]
      split_ifs <;> rfl
    | shutdown =>
      rw [run]
      split_ifs <;> rfl
    | initializeBinding outcome => rfl
    | offerService i j outcome => rfl
    | stopOfferService i j => rfl
    | sendEvent x data outcome => rfl
    | subscribeEvent x callback outcome => rfl

theorem acquire_mutex {s : Process C} {t : Nat} {op : Op C} (h : s.threads t = .calling op)
    (hfree : s.mutex = none) : (s.step (.acquire t)).mutex = some (.thread t) := by
  simp only [step,h,hfree]

theorem lock_mutex {s : Process C} {key : BitVec 64} {running : Bool} {data : List Byte}
    (h : s.listeners key = some ⟨running,.waiting data⟩) (hfree : s.mutex = none) :
    (s.step (.lock key)).mutex = some (.listener key) := by
  simp only [step,h,hfree]

theorem step_mutex (s : Process C) (e : Move C) : (s.step e).mutex = s.mutex ∨ Grip s e := by
  cases e with
  | enter u op =>
    simp only [step]
    split <;> exact .inl rfl
  | acquire u =>
    cases hu : s.threads u with
    | calling op =>
      cases hfree : s.mutex with
      | none => exact .inr (.acquire u hfree (acquire_mutex hu hfree))
      | some h => exact .inl (by simp only [step,hu,hfree])
    | idle => exact .inl (by simp only [step,hu])
    | holding op => exact .inl (by simp only [step,hu])
    | stopping a keys => exact .inl (by simp only [step,hu])
    | joining a key keys => exact .inl (by simp only [step,hu])
    | leaving => exact .inl (by simp only [step,hu])
  | perform u =>
    simp only [step]
    split
    · exact .inl (run_mutex s u _)
    · exact .inl rfl
  | stop u =>
    simp only [step]
    split
    · split <;> exact .inl rfl
    · exact .inl rfl
    · exact .inl rfl
  | join u =>
    simp only [step]
    split
    · split <;> exact .inl rfl
    · exact .inl rfl
  | release u =>
    by_cases hu : s.threads u = .leaving
    · exact .inr (.release u hu (by simp [step,hu]))
    · exact .inl (by simp only [step])
  | check key =>
    simp only [step]
    split <;> exact .inl rfl
  | receive key sample =>
    simp only [step]
    split
    · cases sample <;> exact .inl rfl
    · exact .inl rfl
  | finish key =>
    simp only [step]
    split <;> exact .inl rfl
  | lock key =>
    by_cases hkey : ∃ running data, s.listeners key = some ⟨running,.waiting data⟩ ∧ s.mutex = none
    · obtain ⟨running,data,hkey,hfree⟩ := hkey
      exact .inr (.lock key hfree (lock_mutex hkey hfree))
    · refine .inl ?_
      simp only [step]
      split
      · rename_i running data hl hfree
        exact absurd ⟨running,data,hl,hfree⟩ hkey
      · rfl
  | count key =>
    by_cases hkey : ∃ running data, s.listeners key = some ⟨running,.counting data⟩
    · obtain ⟨running,data,hkey⟩ := hkey
      refine .inr (.count key data ?_ ?_)
      · rw [position,hkey]
        rfl
      · simp [step,hkey,position,place]
    · refine .inl ?_
      simp only [step]
      split
      · rename_i running data hl
        exact absurd ⟨running,data,hl⟩ hkey
      · rfl

end Process

def Phase.Inside {C : Type} : Phase C → Prop
  | .idle => False
  | .calling _ => False
  | _ => True

namespace Process
variable {C : Type}

/-- Only the holder of `mutex_` is between taking it and giving it back. -/
structure Exclusive (s : Process C) : Prop where
  threads : ∀ t, (s.threads t).Inside → s.mutex = some (.thread t)
  listeners : ∀ key data, s.position key = some (.counting data) →
    s.mutex = some (.listener key)

theorem Exclusive.start : Exclusive (initial : Process C) := by
  refine ⟨?_,?_⟩
  · intro t ht
    exact ht.elim
  · intro key data h
    cases h

/-- While somebody has `mutex_`, only the holder's own step gives it back. -/
theorem Exclusive.given_back {s : Process C} (h : Exclusive s) {e : Move C} {x : Holder}
    (hmutex : s.mutex = some x) (hgrip : Grip s e) :
    (∃ t, x = .thread t ∧ (s.step e).threads t = .idle) ∨
      ∃ key, x = .listener key ∧ (s.step e).position key = some .head := by
  cases hgrip with
  | acquire u hfree _ =>
    rw [hmutex] at hfree
    cases hfree
  | release u hu hidle =>
    have hholder : s.mutex = some (.thread u) := h.threads u (by rw [hu]; trivial)
    rw [hmutex] at hholder
    exact .inl ⟨u,Option.some.inj hholder,hidle⟩
  | lock key hfree _ =>
    rw [hmutex] at hfree
    cases hfree
  | count key data hkey hhead =>
    have hholder := h.listeners key data hkey
    rw [hmutex] at hholder
    exact .inr ⟨key,Option.some.inj hholder,hhead⟩

theorem Exclusive.keeps {s : Process C} (h : Exclusive s) {e : Move C} {t : Nat}
    (hinside : (s.threads t).Inside) (hafter : ((s.step e).threads t).Inside) :
    (s.step e).mutex = some (.thread t) := by
  have hmutex : s.mutex = some (.thread t) := h.threads t hinside
  obtain hsame | hgrip := step_mutex s e
  · rw [hsame,hmutex]
  · rcases h.given_back hmutex hgrip with ⟨u,hu,hidle⟩ | ⟨key,hkey,_⟩
    · cases hu
      rw [hidle] at hafter
      exact hafter.elim
    · cases hkey

theorem Exclusive.step {s : Process C} (h : Exclusive s) (e : Move C) :
    Exclusive (s.step e) := by
  refine ⟨?_,?_⟩
  · intro t ht
    obtain hsame | hturn := step_turn s e t
    · exact h.keeps (by rwa [hsame] at ht) ht
    · by_cases hinside : (s.threads t).Inside
      · exact h.keeps hinside ht
      · generalize hp : s.threads t = p at hturn hinside
        generalize hp' : (s.step e).threads t = p' at hturn ht
        cases hturn with
        | enter op => exact ht.elim
        | acquire op hfree => exact acquire_mutex hp hfree
        | release => exact ht.elim
        | _ => exact absurd trivial hinside
  · intro key data hkey
    obtain (hsame | ⟨p,hp,hshift⟩) | hhead := step_shift hkey
    · have hmutex : s.mutex = some (.listener key) := h.listeners key data hsame
      obtain hsame | hgrip := step_mutex s e
      · rw [hsame,hmutex]
      · rcases h.given_back hmutex hgrip with ⟨u,hu,_⟩ | ⟨u,hu,hhead⟩
        · cases hu
        · cases hu
          rw [hhead] at hkey
          cases hkey
    · cases hshift with
      | lock _ hfree =>
        obtain ⟨⟨running,q⟩,hl,rfl⟩ := Option.map_eq_some_iff.mp hp
        exact lock_mutex hl hfree
    · cases hhead

def Quiet (s : Process C) : Prop :=
  ∀ t a key keys, s.threads t = .joining a key keys → ¬ s.Busy key

theorem Quiet.start : Quiet (initial : Process C) := by
  intro t a key keys ht
  cases ht

theorem step_joining {s : Process C} {e : Move C} {t : Nat} {a : Call C} {key : BitVec 64}
    {keys : List (BitVec 64)} (h : (s.step e).threads t = .joining a key keys) :
    s.threads t = .joining a key keys ∨
      (e = .stop t ∧ s.threads t = .stopping a (key :: keys)) := by
  obtain hsame | hturn := step_turn s e t
  · exact .inl (hsame.symm.trans h)
  · rw [h] at hturn
    generalize hp : s.threads t = p at hturn
    cases hturn with
    | stop => exact .inr ⟨rfl,rfl⟩

theorem step_busy {s : Process C} {e : Move C} {key : BitVec 64} (h : (s.step e).Busy key) :
    s.Busy key ∨ ∃ data, e = .receive key (some data) ∧ s.position key = some .polling := by
  obtain ⟨data,h⟩ := h
  obtain h | h := h
  · obtain (hsame | ⟨p,hp,hshift⟩) | hhead := step_shift h
    · exact .inl ⟨data,.inl hsame⟩
    · cases hshift with
      | sample => exact .inr ⟨data,rfl,hp⟩
    · cases hhead
  · obtain (hsame | ⟨p,hp,hshift⟩) | hhead := step_shift h
    · exact .inl ⟨data,.inr hsame⟩
    · cases hshift with
      | finish => exact .inl ⟨data,.inl hp⟩
    · cases hhead

theorem Quiet.step {s : Process C} (h : Quiet s) {e : Move C} (hcalm : s.Calm e) :
    Quiet (s.step e) := by
  intro t a key keys hjoining hbusy
  obtain ht | ⟨rfl,ht⟩ := step_joining hjoining
  · obtain hbusy | ⟨data,rfl,hpolling⟩ := step_busy hbusy
    · exact h t a key keys ht hbusy
    · exact hcalm hpolling t a keys ht
  · obtain hbusy | ⟨data,he,_⟩ := step_busy hbusy
    · exact hcalm a key keys ht hbusy
    · cases he

theorem Quiet.safe {s : Process C} (h : Quiet s) : ¬ s.Deadlocked := by
  rintro ⟨t,a,key,keys,data,ht,_,hkey⟩
  exact h t a key keys ht ⟨data,.inr hkey⟩

theorem Quiet.finish {s : Process C} (h : Quiet s) (key : BitVec 64) :
    ¬ (s.step (.finish key)).Deadlocked :=
  (h.step (e := .finish key) trivial).safe

theorem finish_waiting {s : Process C} {key : BitVec 64} {data : List Byte}
    (h : s.position key = some (.callback data)) :
    (s.step (.finish key)).position key = some (.waiting data) := by
  obtain ⟨⟨running,p⟩,hl,rfl⟩ := Option.map_eq_some_iff.mp h
  simp only [step,hl]
  rw [position_place,if_pos rfl]

theorem finish_threads (s : Process C) (key : BitVec 64) :
    (s.step (.finish key)).threads = s.threads := by
  simp only [step]
  split <;> rfl

theorem finish_mutex (s : Process C) (key : BitVec 64) :
    (s.step (.finish key)).mutex = s.mutex := by
  simp only [step]
  split <;> rfl

/-- Where a busy listener is waited for, the end of its callback is a deadlock. -/
theorem Exclusive.doomed {s : Process C} (h : Exclusive s) {t : Nat} {a : Call C}
    {key : BitVec 64} {keys : List (BitVec 64)} (ht : s.threads t = .joining a key keys)
    (hbusy : s.Busy key) : s.Deadlocked ∨ (s.step (.finish key)).Deadlocked := by
  have hmutex : s.mutex = some (.thread t) := h.threads t (by rw [ht]; trivial)
  obtain ⟨data,hcallback | hwaiting⟩ := hbusy
  · refine .inr ⟨t,a,key,keys,data,?_,?_,finish_waiting hcallback⟩
    · rw [finish_threads,ht]
    · rw [finish_mutex,hmutex]
  · exact .inl ⟨t,a,key,keys,data,ht,hmutex,hwaiting⟩

theorem Exclusive.broken {s : Process C} (h : Exclusive s) {e : Move C} (he : ¬ s.Calm e) :
    (s.step e).Deadlocked ∨ ∃ key, ((s.step e).step (.finish key)).Deadlocked := by
  cases e with
  | stop t =>
    simp only [Calm,not_forall,not_not] at he
    obtain ⟨a,key,keys,ht,data,hkey⟩ := he
    have hjoining : (s.step (.stop t)).threads t = .joining a key keys := by
      simp only [Process.step,ht]
      split <;> simp
    have hposition : (s.step (.stop t)).position key = s.position key := by
      simp only [Process.step,ht]
      split
      · rename_i l hl
        rw [position_place,if_pos rfl,position,hl]
        rfl
      · rfl
    have hbusy : (s.step (.stop t)).Busy key := by
      refine ⟨data,?_⟩
      rwa [hposition]
    exact ((h.step _).doomed hjoining hbusy).imp_right fun hdead => ⟨key,hdead⟩
  | receive key sample =>
    cases sample with
    | none => exact absurd trivial he
    | some data =>
      simp only [Calm,not_forall,not_not] at he
      obtain ⟨hpolling,t,a,keys,ht⟩ := he
      obtain ⟨⟨running,p⟩,hl,rfl⟩ := Option.map_eq_some_iff.mp hpolling
      have hjoining : (s.step (.receive key (some data))).threads t = .joining a key keys := by
        simp only [Process.step,hl]
        exact ht
      have hbusy : (s.step (.receive key (some data))).Busy key := by
        refine ⟨data,.inl ?_⟩
        simp only [Process.step,hl]
        rw [position_place,if_pos rfl]
      exact ((h.step _).doomed hjoining hbusy).imp_right fun hdead => ⟨key,hdead⟩
  | enter t op => exact absurd trivial he
  | acquire t => exact absurd trivial he
  | perform t => exact absurd trivial he
  | join t => exact absurd trivial he
  | release t => exact absurd trivial he
  | check key => exact absurd trivial he
  | finish key => exact absurd trivial he
  | lock key => exact absurd trivial he
  | count key => exact absurd trivial he

theorem Deadlocked.waits {s : Process C} (h : Exclusive s) {t : Nat} {a : Call C}
    {key : BitVec 64} {keys : List (BitVec 64)} {data : List Byte}
    (ht : s.threads t = .joining a key keys) (hkey : s.position key = some (.waiting data))
    (e : Move C) : (s.step e).position key = some (.waiting data) := by
  have hmutex : s.mutex = some (.thread t) := h.threads t (by rw [ht]; trivial)
  obtain hsame | ⟨p,q,hp,hq,hshift⟩ | ⟨⟨u,hu⟩,_⟩ := step_moves s e key
  · rw [hsame,hkey]
  · rw [hkey] at hp
    obtain rfl := Option.some.inj hp
    cases hshift with
    | lock _ hfree =>
      rw [hmutex] at hfree
      cases hfree
  · exfalso
    -- the thread that changes the table would hold `mutex_`
    have hinside : (s.threads u).Inside := by
      generalize s.threads u = p at hu
      cases p with
      | idle => exact hu
      | calling op => exact hu
      | _ => trivial
    have hholder : s.mutex = some (.thread u) := h.threads u hinside
    rw [hmutex] at hholder
    cases hholder
    rw [ht] at hu
    exact hu

/-- No step ends a deadlock. -/
theorem Deadlocked.step {s : Process C} (h : Exclusive s) (hdead : s.Deadlocked) (e : Move C) :
    (s.step e).Deadlocked := by
  obtain ⟨t,a,key,keys,data,ht,hmutex,hkey⟩ := hdead
  have hjoining : (s.step e).threads t = .joining a key keys := by
    obtain hsame | hturn := step_turn s e t
    · rw [hsame,ht]
    · rw [ht] at hturn
      generalize (s.step e).threads t = p at hturn
      cases hturn with
      | join _ _ _ hended => exact absurd (hended _ hkey) nofun
  refine ⟨t,a,key,keys,data,hjoining,?_,waits h ht hkey e⟩
  exact h.keeps (by rw [ht]; trivial) (by rw [hjoining]; trivial)

end Process

abbrev processAt {C : Type} (σ : Nat → Move C) (k : Nat) : Process C :=
  stateAt Process.step .initial σ k

theorem processAt_exclusive {C : Type} (σ : Nat → Move C) (k : Nat) :
    (processAt σ k).Exclusive := by
  induction k with
  | zero => exact .start
  | succ k ih => exact ih.step (σ k)

/-- No thread comes to wait with `mutex_` for a listener that waits for it, now or when a
callback returns, in exactly the runs of calm steps. -/
theorem deadlock_free_iff {C : Type} (σ : Nat → Move C) (n : Nat) :
    (∀ k, k ≤ n → ¬ (processAt σ k).Deadlocked ∧
      ∀ key, ¬ ((processAt σ k).step (.finish key)).Deadlocked) ↔
    ∀ k, k < n → (processAt σ k).Calm (σ k) := by
  constructor
  · intro h k hk
    by_contra hcalm
    obtain ⟨hsafe,hfinish⟩ := h (k+1) hk
    rw [processAt,stateAt_succ] at hsafe hfinish
    obtain hdead | ⟨key,hdead⟩ := (processAt_exclusive σ k).broken hcalm
    · exact hsafe hdead
    · exact hfinish key hdead
  · intro h k hk
    have hquiet : (processAt σ k).Quiet := by
      refine stateAt_invariant (I := Process.Quiet) (C := Process.Calm) .start h ?_ k hk
      intro s e hs he
      exact hs.step he
    exact ⟨hquiet.safe,hquiet.finish⟩

/-- A sample arrives between the check of `running` and the end of the subscription. -/
def sampleAtUnsubscribe : Nat → Move Unit :=
  schedule [.enter 0 (.call (.initializeBinding ⟨true,true,true⟩)),.acquire 0,.perform 0,
    .release 0,.enter 0 (.call (.subscribeEvent ⟨0x1001,1,1⟩ () ⟨true,true,true⟩)),.acquire 0,
    .perform 0,.release 0,.check 0x100100000001,
    .enter 0 (.call (.unsubscribeEvent ⟨0x1001,1,1⟩)),.acquire 0,.perform 0,.stop 0,
    .receive 0x100100000001 (some [7])] (.finish 0x100100000001)

theorem unsubscribe_deadlocks : (processAt sampleAtUnsubscribe 15).Deadlocked :=
  ⟨0,.unsubscribeEvent ⟨0x1001,1,1⟩,0x100100000001,[],[7],rfl,rfl,rfl⟩

end LapCom.Iceoryx2
