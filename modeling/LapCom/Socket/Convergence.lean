import LapCom.Machine.Run
import LapCom.Socket.FieldThreads
import Mathlib.Tactic.IntervalCases

set_option autoImplicit false

namespace LapCom.Socket.FieldThreads
open LapCom.Machine

variable {V : Type} {c : Protobuf V}

namespace Task

def notifies : Task V → Bool
  | .reply _ onward => onward
  | .replying _ _ _ onward => onward
  | .notify => true
  | _ => false

def inside : Task V → Bool
  | .notifying _ _ => true
  | .sending _ _ _ _ _ => true
  | _ => false

/-- The thread will still write the current value or a newer one to `fd`, or drop it. -/
def owes (value : V) (fd : Nat) : Task V → Prop
  | .idle => False
  | .reply a onward => a = fd ∨ onward = true
  | .replying a copy _ onward => a = fd ∧ copy = value ∨ onward = true
  | .notify => True
  | .notifying rest toRemove => fd ∈ rest ∨ fd ∈ toRemove
  | .sending a rest toRemove copy _ => a = fd ∧ copy = value ∨ fd ∈ rest ∨ fd ∈ toRemove

theorem owes_of_notifies {T : Task V} (h : T.notifies = true) (value : V) (fd : Nat) :
    T.owes value fd := by
  cases T with
  | reply a onward => exact .inr h
  | replying a copy total onward => exact .inr h
  | notify => trivial
  | _ => cases h

theorem advance_notifies (T : Task V) (size k : Nat) :
    (T.advance size k).notifies = T.notifies := by
  cases T with
  | replying a copy total onward =>
    simp only [advance]
    split
    · cases onward <;> rfl
    · rfl
  | sending a rest toRemove copy total =>
    simp only [advance]
    split <;> rfl
  | _ => rfl

theorem advance_eq_sending {T : Task V} {size k a total : Nat} {rest toRemove : List Nat} {v : V}
    (h : T.advance size k = .sending a rest toRemove v total) :
    ∃ n, T = .sending a rest toRemove v n := by
  cases T with
  | replying b u n onward =>
    simp only [advance] at h
    split at h
    · cases onward <;> cases h
    · cases h
  | sending b rest' toRemove' u n =>
    simp only [advance] at h
    split at h
    · cases h
    · cases h
      exact ⟨n,rfl⟩
  | _ => cases h

theorem advance_inside {T : Task V} {size k : Nat} (h : (T.advance size k).inside = true) :
    T.inside = true := by
  cases T with
  | replying a copy total onward =>
    simp only [advance] at h
    split at h
    · cases onward <;> cases h
    · cases h
  | sending a rest toRemove copy total => rfl
  | _ => exact h

theorem advance_owes {T : Task V} {size k fd : Nat} {value : V}
    (hlast : ∀ v total, T.writing = some (fd,v,total) → total+k ≠ size)
    (h : T.owes value fd) : (T.advance size k).owes value fd := by
  cases T with
  | replying a copy total onward =>
    simp only [advance]
    split
    · next hsize =>
      obtain ⟨rfl,_⟩ | honward := h
      · exact absurd hsize (hlast copy total rfl)
      · exact owes_of_notifies (by rw [honward]; rfl) value fd
    · exact h
  | sending a rest toRemove copy total =>
    simp only [advance]
    split
    · next hsize =>
      obtain ⟨rfl,_⟩ | hmem := h
      · exact absurd hsize (hlast copy total rfl)
      · exact hmem
    · exact h
  | _ => exact h

theorem afterReply_notifies (onward : Bool) : (afterReply onward : Task V).notifies = onward := by
  cases onward <;> rfl

end Task

namespace Server

def Owed (s : Server V) (fd : Nat) : Prop := ∃ t, (s.tasks t).owes s.value fd

/-- Nothing is written into the middle of another frame, a response that completes with an old
value on a subscribed connection is followed by another frame there, and the value has an
encoding that can be sent. -/
def Ordered (c : Protobuf V) (s : Server V) : Event V → Prop
  | .send t k =>
    (∀ fd, s.Clear fd (.send t k)) ∧
    ∀ fd v total onward, s.tasks t = .replying fd v total onward →
      total+k = (valueFrame c v).length → fd ∈ s.subscribers.fds →
        v = s.value ∨ onward = true ∨ ∃ t', t' ≠ t ∧ (s.tasks t').owes s.value fd
  | .copy t => ∀ fd, s.tasks t = .reply fd false → (c.serialize s.value).length < 2^31
  | _ => True

theorem goto_tasks_self (s : Server V) (t : Thread) (T : Task V) : (s.goto t T).tasks t = T :=
  Function.update_self _ _ _

theorem goto_tasks_of_ne (s : Server V) {t t' : Thread} (T : Task V) (h : t' ≠ t) :
    (s.goto t T).tasks t' = s.tasks t' :=
  Function.update_of_ne h _ _

theorem exists_goto {s : Server V} {t : Thread} {T : Task V} {P : Task V → Prop}
    (hT : P (s.tasks t) → P T) (h : ∃ t', P (s.tasks t')) : ∃ t', P ((s.goto t T).tasks t') := by
  obtain ⟨t',ht'⟩ := h
  by_cases he : t' = t
  · subst he
    exact ⟨t',by rw [goto_tasks_self]; exact hT ht'⟩
  · exact ⟨t',by rw [goto_tasks_of_ne s T he]; exact ht'⟩

/-- Only `lock` ends the wait of a thread that is to notify. -/
theorem Step.notifies {s s' : Server V} {e : Event V} (h : Step c s e s')
    (hlock : ∀ t order, e ≠ .lock t order) (hn : ∃ t, (s.tasks t).notifies = true) :
    ∃ t, (s'.tasks t).notifies = true := by
  have hkeep {s₀ : Server V} {t : Thread} {T : Task V} (h₀ : s₀.tasks = s.tasks)
      (hT : (s.tasks t).notifies = true → T.notifies = true) :
      ∃ t', ((s₀.goto t T).tasks t').notifies = true :=
    exists_goto (P := fun T => T.notifies = true) (by rw [h₀]; exact hT) (by rw [h₀]; exact hn)
  cases h with
  | arrive a q => exact hn
  | @serve a q rest ht hq hfree =>
    cases q with
    | unsubscribe => exact hn
    | _ => exact hkeep rfl fun h => by rw [ht] at h; cases h
  | setLocal v ht => exact hkeep rfl fun _ => rfl
  | copyReply ht hsize => exact hkeep rfl fun h => by rw [ht] at h; exact h
  | copyFails ht hsize =>
    exact hkeep rfl fun h => by rw [ht] at h; rw [Task.afterReply_notifies]; exact h
  | copyNotify ht hsize => exact hkeep rfl fun h => by rw [ht] at h; cases h
  | remove ht => exact hkeep rfl fun h => by rw [ht] at h; cases h
  | lock ht hfree hperm => exact absurd rfl (hlock _ _)
  | unlock ht => exact hkeep rfl fun h => by rw [ht] at h; cases h
  | send ht hk hle => exact hkeep rfl fun h => by rw [Task.advance_notifies]; exact h
  | failReply ht =>
    exact hkeep rfl fun h => by rw [ht] at h; rw [Task.afterReply_notifies]; exact h
  | failNotify ht => exact hkeep rfl fun h => by rw [ht] at h; cases h

def Held (s : Server V) : Prop := ∀ t, (s.tasks t).inside = true → s.holder = some t

theorem goto_held {s : Server V} {t : Thread} {T : Task V}
    (hs : ∀ t', t' ≠ t → (s.tasks t').inside = true → s.holder = some t')
    (hT : T.inside = true → s.holder = some t) : (s.goto t T).Held := by
  intro t' ht'
  by_cases he : t' = t
  · subst he
    rw [goto_tasks_self] at ht'
    exact hT ht'
  · rw [goto_tasks_of_ne s T he] at ht'
    exact hs t' he ht'

theorem Step.held {s s' : Server V} {e : Event V} (h : Step c s e s') (hs : s.Held) : s'.Held := by
  have hothers (t : Thread) : ∀ t', t' ≠ t → (s.tasks t').inside = true → s.holder = some t' :=
    fun t' _ => hs t'
  cases h with
  | arrive a q => exact hs
  | @serve a q rest ht hq hfree =>
    cases q with
    | unsubscribe => exact hs
    | _ => exact goto_held (hothers _) fun h => by cases h
  | setLocal v ht => exact goto_held (hothers _) fun h => by cases h
  | copyReply ht hsize => exact goto_held (hothers _) fun h => by cases h
  | @copyFails t a onward ht hsize =>
    exact goto_held (hothers _) fun h => by cases onward <;> cases h
  | copyNotify ht hsize => exact goto_held (hothers _) fun _ => hs _ (by rw [ht]; rfl)
  | remove ht => exact goto_held (hothers _) fun _ => hs _ (by rw [ht]; rfl)
  | lock ht hfree hperm =>
    refine goto_held (fun t' _ hin => ?_) fun _ => rfl
    have := hs t' hin
    rw [hfree] at this
    cases this
  | @unlock t toRemove ht =>
    refine goto_held (fun t' hne hin => ?_) fun h => by cases h
    have hself : s.holder = some t := hs t (by rw [ht]; rfl)
    rw [hs t' hin] at hself
    cases hself
    exact absurd rfl hne
  | @send t k a total v ht hk hle =>
    exact goto_held (hothers _) fun hin => hs t (Task.advance_inside hin)
  | @failReply t a total v onward ht =>
    exact goto_held (hothers _) fun h => by cases onward <;> cases h
  | failNotify ht => exact goto_held (hothers _) fun _ => hs _ (by rw [ht]; rfl)

def Stale (s : Server V) : Prop :=
  ∀ t a rest toRemove v total, s.tasks t = .sending a rest toRemove v total →
    v = s.value ∨ ∃ t', (s.tasks t').notifies = true

theorem goto_stale {s s₀ : Server V} {t : Thread} {T : Task V} (hs : s.Stale)
    (htasks : s₀.tasks = s.tasks)
    (hkeep : (∃ t', (s.tasks t').notifies = true) →
      ∃ t', ((s₀.goto t T).tasks t').notifies = true)
    (hvalue : s₀.value = s.value ∨ ∃ t', ((s₀.goto t T).tasks t').notifies = true)
    (hT : ∀ a rest toRemove v total, T = .sending a rest toRemove v total →
      v = s₀.value ∨ ∃ t', ((s₀.goto t T).tasks t').notifies = true) : (s₀.goto t T).Stale := by
  intro t' a rest toRemove v total ht'
  by_cases he : t' = t
  · subst he
    rw [goto_tasks_self] at ht'
    exact hT a rest toRemove v total ht'
  · rw [goto_tasks_of_ne s₀ T he,htasks] at ht'
    obtain hv | hn := hs t' a rest toRemove v total ht'
    · obtain h | h := hvalue
      · exact .inl (hv.trans h.symm)
      · exact .inr h
    · exact .inr (hkeep hn)

theorem Step.stale {s s' : Server V} {e : Event V} (h : Step c s e s') (hheld : s.Held)
    (hs : s.Stale) : s'.Stale := by
  have hkeep : (∀ t order, e ≠ .lock t order) → (∃ t, (s.tasks t).notifies = true) →
      ∃ t, (s'.tasks t).notifies = true := h.notifies
  cases h with
  | arrive a q => exact hs
  | @serve a q rest ht hq hfree =>
    cases q with
    | unsubscribe => exact hs
    | set v =>
      refine goto_stale hs rfl (hkeep nofun) (.inr ⟨.handler a,?_⟩) nofun
      rw [goto_tasks_self]
      rfl
    | _ => exact goto_stale hs rfl (hkeep nofun) (.inl rfl) nofun
  | @setLocal i v ht =>
    refine goto_stale hs rfl (hkeep nofun) (.inr ⟨.setter i,?_⟩) nofun
    rw [goto_tasks_self]
    rfl
  | copyReply ht hsize => exact goto_stale hs rfl (hkeep nofun) (.inl rfl) nofun
  | @copyFails t a onward ht hsize =>
    refine goto_stale hs rfl (hkeep nofun) (.inl rfl) fun _ _ _ _ _ h => ?_
    cases onward <;> cases h
  | copyNotify ht hsize =>
    exact goto_stale hs rfl (hkeep nofun) (.inl rfl) fun _ _ _ _ _ h => by cases h; exact .inl rfl
  | remove ht => exact goto_stale hs rfl (hkeep nofun) (.inl rfl) nofun
  | @lock t order ht hfree hperm =>
    intro t' a rest toRemove v total ht'
    by_cases he : t' = t
    · subst he
      rw [goto_tasks_self] at ht'
      cases ht'
    · rw [goto_tasks_of_ne _ _ he] at ht'
      have hholder := hheld t' (by rw [show s.tasks t' = _ from ht']; rfl)
      rw [hfree] at hholder
      cases hholder
  | unlock ht => exact goto_stale hs rfl (hkeep nofun) (.inl rfl) nofun
  | @send t k a total v ht hk hle =>
    refine goto_stale hs rfl (hkeep nofun) (.inl rfl) fun b rest toRemove u n h => ?_
    obtain ⟨n',hT⟩ := Task.advance_eq_sending h
    exact (hs t _ _ _ _ _ hT).imp id (hkeep nofun)
  | @failReply t a total v onward ht =>
    refine goto_stale hs rfl (hkeep nofun) (.inl rfl) fun _ _ _ _ _ h => ?_
    cases onward <;> cases h
  | failNotify ht => exact goto_stale hs rfl (hkeep nofun) (.inl rfl) nofun

/-! What is owed to a subscriber. -/

theorem goto_owed {s s₀ : Server V} {t : Thread} {T : Task V} {fd : Nat}
    (htasks : s₀.tasks = s.tasks) (hvalue : s₀.value = s.value)
    (hT : (s.tasks t).owes s.value fd → T.owes s.value fd) (h : s.Owed fd) :
    (s₀.goto t T).Owed fd := by
  have hex : ∃ t', ((s₀.goto t T).tasks t').owes s.value fd :=
    exists_goto (P := fun T => T.owes s.value fd) (by rw [htasks]; exact hT)
      (by rw [htasks]; exact h)
  obtain ⟨t',ht'⟩ := hex
  exact ⟨t',by rw [show (s₀.goto t T).value = s.value from hvalue]; exact ht'⟩

theorem goto_owed_self {s₀ : Server V} {t : Thread} {T : Task V} {fd : Nat}
    (hT : T.owes s₀.value fd) : (s₀.goto t T).Owed fd :=
  ⟨t,by rw [goto_tasks_self]; exact hT⟩

theorem mem_foldl_erase {fds : List Nat} {s : FdSet} {fd : Nat}
    (h : fd ∈ (fds.foldl FdSet.erase s).fds) : fd ∈ s.fds ∧ fd ∉ fds := by
  induction fds generalizing s with
  | nil => exact ⟨h,by simp⟩
  | cons a fds ih =>
    obtain ⟨hmem,hnot⟩ := ih h
    obtain ⟨hne,hmem⟩ := FdSet.mem_erase.mp hmem
    exact ⟨hmem,by simp [hne,hnot]⟩

theorem Step.owed {s s' : Server V} {e : Event V} (h : Step c s e s') {fd : Nat}
    (hfail : ∀ t, e ≠ .fail t)
    (hsize : ∀ t a, e = .copy t → s.tasks t = .reply a false → (c.serialize s.value).length < 2^31)
    (hcompletes : ∀ v, ¬ s.Completes c fd v e) {P : V → Prop}
    (hs : fd ∈ s.subscribers.fds → P s.value ∨ s.Owed fd) :
    fd ∈ s'.subscribers.fds → P s'.value ∨ s'.Owed fd := by
  cases h with
  | arrive a q => exact hs
  | @serve a q rest ht hq hfree =>
    cases q with
    | get =>
      exact fun hsub => (hs hsub).imp id
        (goto_owed (T := .reply a false) rfl rfl (by rw [ht]; exact False.elim))
    | set v => exact fun _ => .inr (goto_owed_self (.inr rfl))
    | subscribe =>
      intro hsub
      obtain rfl | hsub := FdSet.mem_insert.mp hsub
      · exact .inr (goto_owed_self (.inl rfl))
      · exact (hs hsub).imp id (goto_owed rfl rfl (by rw [ht]; exact False.elim))
    | unsubscribe => exact fun hsub => hs (FdSet.mem_erase.mp hsub).2
  | setLocal v ht => exact fun _ => .inr (goto_owed_self trivial)
  | copyReply ht hfits =>
    refine fun hsub => (hs hsub).imp id (goto_owed rfl rfl ?_)
    rw [ht]
    exact fun howes => howes.imp (fun ha => ⟨ha,rfl⟩) id
  | @copyFails t a onward ht hlong =>
    cases onward with
    | false => exact absurd (hsize t a rfl ht) hlong
    | true => exact fun _ => .inr (goto_owed_self trivial)
  | copyNotify ht hfits =>
    refine fun hsub => (hs hsub).imp id (goto_owed rfl rfl ?_)
    rw [ht]
    rintro (hmem | hmem)
    · obtain rfl | hmem := List.mem_cons.mp hmem
      · exact .inl ⟨rfl,rfl⟩
      · exact .inr (.inl hmem)
    · exact .inr (.inr hmem)
  | remove ht =>
    refine fun hsub => (hs hsub).imp id (goto_owed rfl rfl ?_)
    rw [ht]
    rintro (hmem | hmem)
    · obtain rfl | hmem := List.mem_cons.mp hmem
      · exact .inr (by simp)
      · exact .inl hmem
    · exact .inr (by simp [hmem])
  | lock ht hfree hperm =>
    exact fun hsub => .inr (goto_owed_self (.inl (hperm.mem_iff.mpr hsub)))
  | unlock ht =>
    intro hsub
    obtain ⟨hsub,hnot⟩ := mem_foldl_erase hsub
    refine (hs hsub).imp id (goto_owed rfl rfl ?_)
    rw [ht]
    rintro (hmem | hmem)
    · cases hmem
    · exact absurd hmem hnot
  | @send t k a total v ht hk hle =>
    refine fun hsub => (hs hsub).imp id (goto_owed rfl rfl (Task.advance_owes ?_))
    intro u n (hw : (s.tasks t).writing = some (fd,u,n)) hlast
    rw [ht] at hw
    cases hw
    exact hcompletes v ⟨total,ht,hlast⟩
  | failReply ht => exact absurd rfl (hfail _)
  | failNotify ht => exact absurd rfl (hfail _)

/-- The invariant of ordered runs. -/
structure Settling (c : Protobuf V) (s : Server V) : Prop where
  held : s.Held
  stale : s.Stale
  owed : ∀ fd, ∃ vs, s.Carries c fd (s.written fd) vs ∧
    (fd ∈ s.subscribers.fds → vs.getLast? = some s.value ∨ s.Owed fd)

theorem owed_of_other {s s₀ : Server V} {t t' : Thread} {T : Task V} {fd : Nat}
    (htasks : s₀.tasks = s.tasks) (hvalue : s₀.value = s.value) (hne : t' ≠ t)
    (h : (s.tasks t').owes s.value fd) : (s₀.goto t T).Owed fd := by
  refine ⟨t',?_⟩
  rw [goto_tasks_of_ne s₀ T hne,htasks]
  exact hvalue ▸ h

theorem Step.completed {s s' : Server V} {e : Event V} (h : Step c s e s') {fd : Nat} {v : V}
    (hordered : s.Ordered c e) (hstale : s.Stale) (hcompletes : s.Completes c fd v e) :
    fd ∈ s'.subscribers.fds → v = s'.value ∨ s'.Owed fd := by
  cases h with
  | @send t k a total u ht hk hle =>
    obtain ⟨n,hw,hlast⟩ := hcompletes
    rw [ht] at hw
    cases hw
    intro hsub
    cases hT : s.tasks t with
    | replying b w n onward =>
      rw [hT] at ht
      cases ht
      obtain hv | rfl | ⟨t',hne,howes⟩ := hordered.2 fd v total onward hT hlast hsub
      · exact .inl hv
      · refine .inr (goto_owed_self ?_)
        simp only [Task.advance,if_pos hlast]
        trivial
      · exact .inr (owed_of_other rfl rfl hne howes)
    | sending b rest toRemove w n =>
      rw [hT] at ht
      cases ht
      obtain hv | ⟨t',hn⟩ := hstale t fd rest toRemove v total hT
      · exact .inl hv
      · have hne : t' ≠ t := by
          rintro rfl
          rw [hT] at hn
          cases hn
        exact .inr (owed_of_other rfl rfl hne (Task.owes_of_notifies hn _ _))
    | _ =>
      rw [hT] at ht
      cases ht
  | _ => exact absurd hcompletes id

theorem Step.settling {s s' : Server V} {e : Event V} (h : Step c s e s')
    (hfail : ∀ t, e ≠ .fail t) (hordered : s.Ordered c e) (hs : s.Settling c) : s'.Settling c := by
  refine ⟨h.held hs.held,h.stale hs.held hs.stale,fun fd => ?_⟩
  have hclear : s.Clear fd e := by
    cases e with
    | send t k => exact hordered.1 fd
    | fail t => exact absurd rfl (hfail t)
    | _ => trivial
  have hsize : ∀ t a, e = .copy t → s.tasks t = .reply a false →
      (c.serialize s.value).length < 2^31 := by
    rintro t a rfl ht
    exact hordered a ht
  obtain ⟨vs,hcarries,hsub⟩ := hs.owed fd
  obtain ⟨more,hwritten,hmore⟩ := h.carries hclear
  rw [hwritten]
  obtain ⟨hno,hcarries'⟩ | ⟨v,hcompletes,hcarries'⟩ := hmore _ _ hcarries
  · exact ⟨vs,hcarries',h.owed (P := fun v => vs.getLast? = some v) hfail hsize hno hsub⟩
  · refine ⟨vs++[v],hcarries',fun hmem => ?_⟩
    refine (h.completed hordered hs.stale hcompletes hmem).imp (fun hv => ?_) id
    rw [List.getLast?_concat,hv]

/-- A server that nobody has called. -/
structure Started (s : Server V) : Prop where
  tasks : ∀ t, s.tasks t = .idle
  written : ∀ fd, s.written fd = []
  subscribers : s.subscribers.fds = []

theorem Started.settling {s : Server V} (h : s.Started) : s.Settling c := by
  refine ⟨fun t ht => ?_,fun t a rest toRemove v total ht => ?_,fun fd => ⟨[],.inl ⟨?_,?_⟩,?_⟩⟩
  · rw [h.tasks t] at ht
    cases ht
  · rw [h.tasks t] at ht
    cases ht
  · exact h.written fd
  · rintro t v total ⟨hw,_⟩
    rw [h.tasks t] at hw
    cases hw
  · intro hmem
    rw [h.subscribers] at hmem
    cases hmem

/-- No request, `setLocal` call or send is in progress. -/
structure AtRest (s : Server V) : Prop where
  tasks : ∀ t, s.tasks t = .idle
  requests : ∀ fd, s.requests fd = []

theorem Settling.last_frame {s : Server V} (h : s.Settling c) (hrest : s.AtRest) {fd : Nat}
    (hfd : fd ∈ s.subscribers.fds) : ∃ vs, s.written fd = wire c (vs++[s.value]) := by
  obtain ⟨vs,hcarries,hsub⟩ := h.owed fd
  have hlast : vs.getLast? = some s.value := by
    obtain hlast | ⟨t,howes⟩ := hsub hfd
    · exact hlast
    · rw [hrest.tasks t] at howes
      exact howes.elim
  obtain ⟨ys,rfl⟩ := List.getLast?_eq_some_iff.mp hlast
  obtain ⟨hdata,_⟩ | ⟨t,v,total,⟨hw,_⟩,_⟩ := hcarries
  · exact ⟨ys,hdata⟩
  · rw [hrest.tasks t] at hw
    cases hw

end Server

/-- In every run without failed sends whose steps are ordered: whenever the server is at rest,
the last frame written to each subscriber holds the current value. -/
theorem subscribers_converge (c : Protobuf V) (s : Server V) (σ : Nat → Event V) (n : Nat)
    (hs : s.Started) (hfail : ∀ k, k < n → ∀ t, σ k ≠ .fail t)
    (hordered : ∀ k, k < n → (stateAt (Server.step c) s σ k).Ordered c (σ k)) :
    ∀ k, k ≤ n → (stateAt (Server.step c) s σ k).AtRest →
      ∀ fd, fd ∈ (stateAt (Server.step c) s σ k).subscribers.fds →
        ∃ vs, (stateAt (Server.step c) s σ k).written fd =
          wire c (vs++[(stateAt (Server.step c) s σ k).value]) := by
  have hstep (t : Server V) (e : Event V) (ht : t.Settling c)
      (he : t.Ordered c e ∧ ∀ u, e ≠ .fail u) : (t.step c e).Settling c := by
    obtain heq | hstep := Server.step_cases (c := c) t e
    · rw [heq]
      exact ht
    · exact hstep.settling he.2 he.1 ht
  have hinv : ∀ k, k ≤ n → (stateAt (Server.step c) s σ k).Settling c :=
    stateAt_invariant (C := fun t e => t.Ordered c e ∧ ∀ u, e ≠ .fail u) hs.settling
      (fun k hk => ⟨hordered k hk,hfail k hk⟩) hstep
  intro k hk hrest fd hfd
  exact (hinv k hk).last_frame hrest hfd

/-! A run names the threads that move in it. -/

def Event.thread? : Event V → Option Thread
  | .arrive _ _ => none
  | .serve fd => some (.handler fd)
  | .setLocal i _ => some (.setter i)
  | .copy t => some t
  | .lock t _ => some t
  | .unlock t => some t
  | .send t _ => some t
  | .fail t => some t

theorem Server.Step.tasks_of_ne {s s' : Server V} {e : Event V} (h : Server.Step c s e s')
    {t : Thread} (ht : e.thread? ≠ some t) : s'.tasks t = s.tasks t := by
  have hne {t' : Thread} (he : e.thread? = some t') : t ≠ t' := fun heq => ht (heq ▸ he)
  cases h with
  | arrive fd q => rfl
  | @serve fd q rest hidle hq hfree =>
    cases q with
    | unsubscribe => rfl
    | _ => exact Server.goto_tasks_of_ne _ _ (hne rfl)
  | _ => exact Server.goto_tasks_of_ne _ _ (hne rfl)

def Event.fd? : Event V → Option Nat
  | .arrive fd _ => some fd
  | .serve fd => some fd
  | _ => none

theorem Server.Step.requests_of_ne {s s' : Server V} {e : Event V} (h : Server.Step c s e s')
    {fd : Nat} (hfd : e.fd? ≠ some fd) : s'.requests fd = s.requests fd := by
  have hne {a : Nat} (he : e.fd? = some a) : fd ≠ a := fun heq => hfd (heq ▸ he)
  cases h with
  | @arrive a q => exact Function.update_of_ne (hne rfl) _ _
  | @serve a q rest hidle hq hfree =>
    cases q <;> exact Function.update_of_ne (hne rfl) _ _
  | _ => rfl

section Named
variable {s : Server V} {σ : Nat → Event V} {n : Nat} {ts : List Thread} {fds : List Nat}

theorem stateAt_unnamed (hs : s.AtRest) (hts : ∀ k, k < n → ∀ t, t ∈ (σ k).thread? → t ∈ ts)
    (hfds : ∀ k, k < n → ∀ fd, fd ∈ (σ k).fd? → fd ∈ fds) :
    ∀ k, k ≤ n → (∀ t, t ∉ ts → (stateAt (Server.step c) s σ k).tasks t = .idle) ∧
      ∀ fd, fd ∉ fds → (stateAt (Server.step c) s σ k).requests fd = [] := by
  intro k
  induction k with
  | zero => exact fun _ => ⟨fun t _ => hs.tasks t,fun fd _ => hs.requests fd⟩
  | succ k ih =>
    intro hk
    obtain ⟨htask,hrequest⟩ := ih (by omega)
    rw [stateAt_succ]
    obtain heq | hstep := Server.step_cases (c := c) (stateAt (Server.step c) s σ k) (σ k)
    · rw [heq]
      exact ⟨htask,hrequest⟩
    · refine ⟨fun t ht => ?_,fun fd hfd => ?_⟩
      · rw [hstep.tasks_of_ne fun hthread => ht (hts k (by omega) t hthread)]
        exact htask t ht
      · rw [hstep.requests_of_ne fun hnamed => hfd (hfds k (by omega) fd hnamed)]
        exact hrequest fd hfd

theorem atRest_of_named (hs : s.AtRest) (hts : ∀ k, k < n → ∀ t, t ∈ (σ k).thread? → t ∈ ts)
    (hfds : ∀ k, k < n → ∀ fd, fd ∈ (σ k).fd? → fd ∈ fds)
    (htasks : ∀ t, t ∈ ts → (stateAt (Server.step c) s σ n).tasks t = .idle)
    (hrequests : ∀ fd, fd ∈ fds → (stateAt (Server.step c) s σ n).requests fd = []) :
    (stateAt (Server.step c) s σ n).AtRest := by
  obtain ⟨htask,hrequest⟩ := stateAt_unnamed (c := c) hs hts hfds n (Nat.le_refl n)
  refine ⟨fun t => ?_,fun fd => ?_⟩
  · by_cases ht : t ∈ ts
    · exact htasks t ht
    · exact htask t ht
  · by_cases hfd : fd ∈ fds
    · exact hrequests fd hfd
    · exact hrequest fd hfd

theorem not_midway_of_named (hs : s.AtRest)
    (hts : ∀ k, k < n → ∀ t, t ∈ (σ k).thread? → t ∈ ts)
    (hfds : ∀ k, k < n → ∀ fd, fd ∈ (σ k).fd? → fd ∈ fds) {k : Nat} (hk : k ≤ n)
    (hwriting : ∀ t, t ∈ ts → ∀ w, w ∈ ((stateAt (Server.step c) s σ k).tasks t).writing →
      w.2.2 = 0) (t : Thread) (fd : Nat) (v : V) (total : Nat) :
    ¬ (stateAt (Server.step c) s σ k).Midway t fd v total := by
  apply Server.not_midway
  intro v total hw
  by_cases ht : t ∈ ts
  · exact hwriting t ht _ hw
  · rw [(stateAt_unnamed (c := c) hs hts hfds k hk).1 t ht] at hw
    cases hw

end Named

def unused : Server (BitVec 7) :=
  { value := 1
    subscribers := FdSet.empty
    holder := none
    tasks := fun _ => .idle
    requests := fun _ => []
    written := fun _ => []
    closed := [] }

theorem unused_started : unused.Started := ⟨fun _ => rfl,fun _ => rfl,rfl⟩

theorem unused_atRest : unused.AtRest := ⟨fun _ => rfl,fun _ => rfl⟩

def subscribing : List (Event (BitVec 7)) :=
  [.arrive 3 .subscribe,.serve 3,.copy (.handler 3),.send (.handler 3) 6]

def notified : List (Event (BitVec 7)) :=
  subscribing++[.setLocal 0 5,.lock (.setter 0) [3],.copy (.setter 0),.send (.setter 0) 6,
    .unlock (.setter 0)]

def notifiedRun : Nat → Event (BitVec 7) := schedule notified (.copy (.setter 0))

theorem notifiedRun_named :
    (∀ k, k < 9 → ∀ t, t ∈ (notifiedRun k).thread? → t ∈ [.handler 3,.setter 0]) ∧
      ∀ k, k < 9 → ∀ fd, fd ∈ (notifiedRun k).fd? → fd ∈ [3] := by
  decide +kernel

theorem notifiedRun_ordered (k : Nat) (hk : k < 9) :
    (stateAt (Server.step valueInt) unused notifiedRun k).Ordered valueInt (notifiedRun k) := by
  obtain ⟨hts,hfds⟩ := notifiedRun_named
  interval_cases k
  case «2» => exact fun _ _ => by decide +kernel
  case «6» => exact fun _ _ => by decide +kernel
  case «3» =>
    have htask : (stateAt (Server.step valueInt) unused notifiedRun 3).tasks (.handler 3) =
        .replying 3 1 0 false := by decide +kernel
    refine ⟨fun fd v _ t => not_midway_of_named unused_atRest hts hfds (by omega)
      (by decide +kernel) t fd,fun fd v total onward ht _ _ => ?_⟩
    rw [htask] at ht
    cases ht
    exact .inl (by decide +kernel)
  case «7» =>
    have htask : (stateAt (Server.step valueInt) unused notifiedRun 7).tasks (.setter 0) =
        .sending 3 [] [] 5 0 := by decide +kernel
    refine ⟨fun fd v _ t => not_midway_of_named unused_atRest hts hfds (by omega)
      (by decide +kernel) t fd,fun fd v total onward ht _ _ => ?_⟩
    rw [htask] at ht
    cases ht
  all_goals trivial

theorem subscribers_converge_notified :
    ∃ vs, (stateAt (Server.step valueInt) unused notifiedRun 9).written 3 =
      wire valueInt (vs++[(stateAt (Server.step valueInt) unused notifiedRun 9).value]) := by
  obtain ⟨hts,hfds⟩ := notifiedRun_named
  have hfail : ∀ k, k < 9 → ∀ t, notifiedRun k ≠ .fail t := by
    intro k hk t
    interval_cases k <;> exact nofun
  exact subscribers_converge valueInt unused notifiedRun 9 unused_started hfail notifiedRun_ordered
    9 (Nat.le_refl 9)
    (atRest_of_named unused_atRest hts hfds (by decide +kernel) (by decide +kernel)) 3
    (by decide +kernel)

/-- The response to a GET request is copied before a `setLocal` and sent behind its
notification. -/
def overtaken : List (Event (BitVec 7)) :=
  subscribing++[.arrive 3 .get,.serve 3,.copy (.handler 3),.setLocal 0 5,.lock (.setter 0) [3],
    .copy (.setter 0),.send (.setter 0) 6,.unlock (.setter 0),.send (.handler 3) 6]

def overtakenRun : Nat → Event (BitVec 7) := schedule overtaken (.copy (.setter 0))

theorem subscriber_left_behind :
    unused.Started ∧ (∀ k, k < 13 → ∀ t, overtakenRun k ≠ .fail t) ∧
    (stateAt (Server.step valueInt) unused overtakenRun 13).AtRest ∧
    3 ∈ (stateAt (Server.step valueInt) unused overtakenRun 13).subscribers.fds ∧
    ¬ ∃ vs, (stateAt (Server.step valueInt) unused overtakenRun 13).written 3 =
      wire valueInt (vs++[(stateAt (Server.step valueInt) unused overtakenRun 13).value]) := by
  refine ⟨unused_started,?_,?_,by decide +kernel,?_⟩
  · intro k hk t
    interval_cases k <;> exact nofun
  · have hts : ∀ k, k < 13 → ∀ t, t ∈ (overtakenRun k).thread? → t ∈ [.handler 3,.setter 0] := by
      decide +kernel
    have hfds : ∀ k, k < 13 → ∀ fd, fd ∈ (overtakenRun k).fd? → fd ∈ [3] := by decide +kernel
    exact atRest_of_named unused_atRest hts hfds (by decide +kernel) (by decide +kernel)
  · rintro ⟨vs,h⟩
    have hvalue : (stateAt (Server.step valueInt) unused overtakenRun 13).value = 5 := by
      decide +kernel
    have hwritten : ((stateAt (Server.step valueInt) unused overtakenRun 13).written 3).getLast? =
        some 1 := by decide +kernel
    have hframe : (valueFrame valueInt 5).getLast? = some 5 := by decide +kernel
    rw [h,hvalue,Server.wire_concat,List.getLast?_append,hframe] at hwritten
    cases hwritten

end LapCom.Socket.FieldThreads
