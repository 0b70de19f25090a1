import LapCom.Socket.EventStreams

set_option autoImplicit false

namespace LapCom.Socket.EventThreads
open LapCom.Kernel LapCom.Machine

variable {V : Type} (c : Protobuf V)

namespace Publisher

def active (s : Publisher V) : Task V := s.holder.elim .idle s.tasks

/-- The event that the connection `x` is to get from this step: that of a call of `publish` which
takes `subMutex_` for sending. -/
def included (s : Publisher V) (x : Nat) : Event V → List V
  | .lock t order =>
    match s.tasks t,s.holder with
    | .ready evt,none =>
      if order.Perm s.subscribers.fds ∧
        ∃ fd, fd ∈ order ∧ s.descriptors.owner fd = some x then [evt] else []
    | _,_ => []
  | _ => []

structure Invariant (s : Publisher V) (events : Nat → List V) : Prop where
  streams : Streams c s.descriptors s.subscribers s.active s.written events
  inside : ∀ t, (s.tasks t).Inside ↔ s.holder = some t
  adding : ∀ t evt fd, s.tasks t = .adding evt fd →
    Absent s.subscribers s.active fd ∧ ∃ x, s.descriptors.owner fd = some x
  alone : ∀ t t' evt evt' fd, s.tasks t = .adding evt fd → s.tasks t' = .adding evt' fd → t = t'

variable {c}

theorem active_of_holder {s : Publisher V} {t : Thread} (h : s.holder = some t) :
    s.active = s.tasks t := by
  rw [active,h]
  rfl

theorem active_of_free {s : Publisher V} (h : s.holder = none) : s.active = .idle := by
  rw [active,h]
  rfl

theorem goto_holder (s : Publisher V) (t : Thread) (T : Task V) :
    (s.goto t T).holder = s.holder := rfl

theorem goto_tasks_self (s : Publisher V) (t : Thread) (T : Task V) : (s.goto t T).tasks t = T :=
  Function.update_self _ _ _

theorem goto_tasks_of_ne (s : Publisher V) {t t' : Thread} (h : t' ≠ t) (T : Task V) :
    (s.goto t T).tasks t' = s.tasks t' :=
  Function.update_of_ne h _ _

theorem goto_adding {s : Publisher V} {t t' : Thread} {T : Task V}
    (hT : ∀ evt fd, T ≠ .adding evt fd) {evt : Option V} {fd : Nat}
    (h : (s.goto t T).tasks t' = .adding evt fd) : t' ≠ t ∧ s.tasks t' = .adding evt fd := by
  by_cases ht : t' = t
  · subst ht
    rw [goto_tasks_self] at h
    exact absurd h (hT evt fd)
  · rw [goto_tasks_of_ne s ht] at h
    exact ⟨ht,h⟩

namespace Invariant
variable {s : Publisher V} {events : Nat → List V}

theorem active_goto (h : s.Invariant c events) {t : Thread} (ht : ¬ (s.tasks t).Inside)
    (T : Task V) : (s.goto t T).active = s.active := by
  rw [h.inside] at ht
  cases hh : s.holder with
  | none => rw [active_of_free hh,active_of_free (s := s.goto t T) hh]
  | some u =>
    have hne : u ≠ t := by
      rintro rfl
      exact ht hh
    rw [active_of_holder hh,active_of_holder (s := s.goto t T) hh,goto_tasks_of_ne s hne]

theorem outside (h : s.Invariant c events) {t : Thread} {T : Task V}
    (ht : ¬ (s.tasks t).Inside) (hT : ¬ T.Inside) (hadding : ∀ evt fd, T ≠ .adding evt fd) :
    (s.goto t T).Invariant c events := by
  have hactive := h.active_goto ht T
  refine ⟨by rw [hactive]; exact h.streams,?_,?_,?_⟩
  · intro u
    by_cases hu : u = t
    · subst hu
      rw [goto_tasks_self]
      exact iff_of_false hT fun hh => ht ((h.inside u).mpr hh)
    · rw [goto_tasks_of_ne s hu]
      exact h.inside u
  · intro u evt fd hu
    rw [hactive]
    exact h.adding u evt fd (goto_adding hadding hu).2
  · intro u u' evt evt' fd hu hu'
    exact h.alone u u' evt evt' fd (goto_adding hadding hu).2 (goto_adding hadding hu').2

theorem held (h : s.Invariant c events) {t : Thread} {T : Task V} (ht : s.tasks t = T)
    (hT : T.Inside) : Streams c s.descriptors s.subscribers T s.written events := by
  have hholder : s.holder = some t := (h.inside t).mp (by rw [ht]; exact hT)
  have hstreams := h.streams
  rwa [active_of_holder hholder,ht] at hstreams

theorem work (h : s.Invariant c events) {t : Thread} {T T' : Task V} {d : Descriptors}
    {subscribers : FdSet} {written : Nat → List Byte} (ht : s.tasks t = T) (hT : T.Inside)
    (hT' : T'.Inside) (hstreams : Streams c d subscribers T' written events)
    (hadding : ∀ fd, Absent s.subscribers T fd →
      Absent subscribers T' fd ∧ d.owner fd = s.descriptors.owner fd) :
    (({ s with descriptors := d, subscribers := subscribers, written := written } :
      Publisher V).goto t T').Invariant c events := by
  have hholder : s.holder = some t := (h.inside t).mp (by rw [ht]; exact hT)
  have hactive : (({ s with descriptors := d, subscribers := subscribers, written := written } :
      Publisher V).goto t T').active = T' := by
    rw [active,goto_holder,hholder]
    exact goto_tasks_self _ _ _
  have hnot : ∀ evt fd, T' ≠ .adding evt fd := by
    rintro evt fd rfl
    exact hT'
  refine ⟨by rw [hactive]; exact hstreams,?_,?_,?_⟩
  · intro u
    by_cases hu : u = t
    · subst hu
      rw [goto_tasks_self]
      exact iff_of_true hT' hholder
    · rw [goto_tasks_of_ne _ hu]
      exact h.inside u
  · intro u evt fd hu
    obtain ⟨habsent,x,hx⟩ := h.adding u evt fd (goto_adding hnot hu).2
    rw [active_of_holder hholder,ht] at habsent
    obtain ⟨habsent',howner⟩ := hadding fd habsent
    rw [hactive]
    exact ⟨habsent',x,howner.trans hx⟩
  · intro u u' evt evt' fd hu hu'
    exact h.alone u u' evt evt' fd (goto_adding hnot hu).2 (goto_adding hnot hu').2

theorem start : (initial : Publisher V).Invariant c fun _ => [] := by
  refine ⟨.start,?_,?_,?_⟩
  · intro t
    exact iff_of_false id nofun
  · intro t evt fd ht
    cases ht
  · intro t t' evt evt' fd ht
    cases ht

theorem not_inside_of_free (h : s.Invariant c events) (hfree : s.holder = none) (t : Thread) :
    ¬ (s.tasks t).Inside := by
  rw [h.inside,hfree]
  exact nofun

theorem accept (h : s.Invariant c events) {t : Thread} {fd : Nat} {evt : Option V}
    (ht : s.tasks t = afterAdd evt) (hfree : s.descriptors.owner fd = none) :
    (({ s with descriptors := s.descriptors.accept fd } : Publisher V).goto t
      (.adding evt fd)).Invariant c events := by
  have hout : ¬ (s.tasks t).Inside := by
    rw [ht]
    cases evt <;> exact id
  have hactive := h.active_goto hout (.adding evt fd)
  have habsent : Absent s.subscribers s.active fd := by
    by_contra hpresent
    obtain ⟨x,hx,_⟩ := h.streams.present fd hpresent
    rw [hfree] at hx
    cases hx
  -- the other insertions are of descriptors that were open before
  have hother : ∀ u evt' a, u ≠ t → s.tasks u = .adding evt' a → a ≠ fd := by
    intro u evt' a _ hu
    obtain ⟨_,x,hx⟩ := h.adding u evt' a hu
    exact (Descriptors.accept_owner_of_some hfree hx).1
  refine ⟨?_,?_,?_,?_⟩
  · show Streams c _ _ (s.goto t (.adding evt fd)).active _ _
    rw [hactive]
    exact h.streams.accept hfree
  · intro u
    by_cases hu : u = t
    · subst hu
      rw [goto_tasks_self]
      exact iff_of_false id fun hh => hout ((h.inside u).mpr hh)
    · rw [goto_tasks_of_ne _ hu]
      exact h.inside u
  · intro u evt' a hu
    show Absent _ (s.goto t (.adding evt fd)).active _ ∧ _
    rw [hactive]
    by_cases hut : u = t
    · subst hut
      rw [goto_tasks_self] at hu
      cases hu
      exact ⟨habsent,_,Descriptors.accept_owner_self _ _⟩
    · rw [goto_tasks_of_ne _ hut] at hu
      obtain ⟨habsent',x,hx⟩ := h.adding u evt' a hu
      exact ⟨habsent',x,(Descriptors.accept_owner_of_some hfree hx).2⟩
  · intro u u' evt₁ evt₂ a hu hu'
    by_cases hut : u = t
    · by_cases hut' : u' = t
      · rw [hut,hut']
      · rw [hut,goto_tasks_self] at hu
        rw [goto_tasks_of_ne _ hut'] at hu'
        cases hu
        exact absurd rfl (hother u' evt₂ fd hut' hu')
    · rw [goto_tasks_of_ne _ hut] at hu
      by_cases hut' : u' = t
      · rw [hut',goto_tasks_self] at hu'
        cases hu'
        exact absurd rfl (hother u evt₁ fd hut hu)
      · rw [goto_tasks_of_ne _ hut'] at hu'
        exact h.alone u u' evt₁ evt₂ a hu hu'

theorem add (h : s.Invariant c events) {t : Thread} {fd : Nat} {evt : Option V}
    (ht : s.tasks t = .adding evt fd) (hfree : s.holder = none) :
    (({ s with subscribers := s.subscribers.insert fd } : Publisher V).goto t
      (afterAdd evt)).Invariant c events := by
  have hidle : ∀ (subscribers : FdSet) a, Absent subscribers (.idle : Task V) a ↔
      a ∉ subscribers.fds := fun _ => absent_iff nofun
  have hnot : ∀ evt' a, (afterAdd evt : Task V) ≠ .adding evt' a := by
    cases evt <;> exact nofun
  have hactive := active_of_free hfree
  have hactive' : (({ s with subscribers := s.subscribers.insert fd } : Publisher V).goto t
      (afterAdd evt)).active = .idle := active_of_free hfree
  have hstreams := h.streams
  obtain ⟨habsent,x,hx⟩ := h.adding t evt fd ht
  rw [hactive] at hstreams habsent
  refine ⟨?_,?_,?_,?_⟩
  · rw [hactive']
    exact hstreams.insert hx ((hidle _ fd).mp habsent)
  · intro u
    show _ ↔ s.holder = some u
    rw [hfree]
    refine iff_of_false ?_ nofun
    by_cases hu : u = t
    · rw [hu,goto_tasks_self]
      cases evt <;> exact id
    · rw [goto_tasks_of_ne _ hu]
      exact h.not_inside_of_free hfree u
  · intro u evt' a hu
    obtain ⟨hne,hu⟩ := goto_adding hnot hu
    obtain ⟨habsent',y,hy⟩ := h.adding u evt' a hu
    have hafd : a ≠ fd := by
      rintro rfl
      exact hne (h.alone u t evt' evt a hu ht)
    rw [hactive,hidle] at habsent'
    rw [hactive',hidle]
    refine ⟨?_,y,hy⟩
    intro hmem
    rcases FdSet.mem_insert.mp hmem with hmem | hmem
    · exact hafd hmem
    · exact habsent' hmem
  · intro u u' evt₁ evt₂ a hu hu'
    exact h.alone u u' evt₁ evt₂ a (goto_adding hnot hu).2 (goto_adding hnot hu').2

theorem lock (h : s.Invariant c events) {t : Thread} {evt : V} {order : List Nat}
    (ht : s.tasks t = .ready evt) (hfree : s.holder = none)
    (hperm : order.Perm s.subscribers.fds) :
    (({ s with holder := some t } : Publisher V).goto t (nextTask evt order [])).Invariant c
      fun x => events x++s.included x (.lock t order) := by
  have hevents : (fun x => events x++s.included x (.lock t order)) = fun x =>
      if ∃ fd, fd ∈ order ∧ s.descriptors.owner fd = some x then events x++[evt]
      else events x := by
    funext x
    simp only [included,ht,hfree,hperm,true_and]
    split <;> simp
  have hinside := nextTask_inside evt order []
  have hnot : ∀ evt' a, nextTask evt order [] ≠ .adding evt' a := by
    intro evt' a heq
    rw [heq] at hinside
    exact hinside
  have hactive := active_of_free hfree
  have hactive' : (({ s with holder := some t } : Publisher V).goto t
      (nextTask evt order [])).active = nextTask evt order [] :=
    (active_of_holder rfl).trans (goto_tasks_self _ _ _)
  have hstreams := h.streams
  rw [hactive] at hstreams
  rw [hevents]
  refine ⟨?_,?_,?_,?_⟩
  · rw [hactive']
    exact hstreams.lock hperm evt
  · intro u
    show _ ↔ some t = some u
    by_cases hu : u = t
    · rw [hu,goto_tasks_self]
      exact iff_of_true hinside rfl
    · rw [goto_tasks_of_ne _ hu]
      exact iff_of_false (h.not_inside_of_free hfree u) fun heq => hu (Option.some.inj heq).symm
  · intro u evt' a hu
    obtain ⟨habsent,x,hx⟩ := h.adding u evt' a (goto_adding hnot hu).2
    rw [hactive,absent_iff (T := .idle) nofun] at habsent
    exact ⟨.inl habsent,x,hx⟩
  · intro u u' evt₁ evt₂ a hu hu'
    exact h.alone u u' evt₁ evt₂ a (goto_adding hnot hu).2 (goto_adding hnot hu').2

theorem unlock (h : s.Invariant c events) {t : Thread} (ht : s.tasks t = .removing []) :
    (({ s with holder := none } : Publisher V).goto t .idle).Invariant c events := by
  have hholder : s.holder = some t := (h.inside t).mp (by rw [ht]; trivial)
  have hactive : s.active = .removing [] := (active_of_holder hholder).trans ht
  have hactive' : (({ s with holder := none } : Publisher V).goto t .idle).active = .idle := rfl
  have hnot : ∀ evt a, (.idle : Task V) ≠ .adding evt a := nofun
  refine ⟨?_,?_,?_,?_⟩
  · rw [hactive']
    exact (h.held ht trivial).unlock
  · intro u
    show _ ↔ none = some u
    refine iff_of_false ?_ nofun
    by_cases hu : u = t
    · rw [hu,goto_tasks_self]
      exact id
    · rw [goto_tasks_of_ne _ hu]
      intro hin
      have hsame := (h.inside u).mp hin
      rw [hholder] at hsame
      exact hu (Option.some.inj hsame).symm
  · intro u evt' a hu
    obtain ⟨habsent,x,hx⟩ := h.adding u evt' a (goto_adding hnot hu).2
    rw [hactive,absent_iff (T := .removing []) nofun] at habsent
    exact ⟨.inl habsent,x,hx⟩
  · intro u u' evt₁ evt₂ a hu hu'
    exact h.alone u u' evt₁ evt₂ a (goto_adding hnot hu).2 (goto_adding hnot hu').2

theorem step {s' : Publisher V} {e : Event V} (h : s.Invariant c events)
    (hstep : Step c s e s') : s'.Invariant c fun x => events x++s.included x e := by
  have hnone : (∀ x, s.included x e = []) → s'.Invariant c events →
      s'.Invariant c fun x => events x++s.included x e := by
    intro hincluded hs'
    simpa only [hincluded,List.append_nil] using hs'
  cases hstep with
  | publish ht => exact hnone (fun _ => rfl) (h.outside (by rw [ht]; exact id) id nofun)
  | accept evt ht hfree => exact hnone (fun _ => rfl) (h.accept ht hfree)
  | refuse ht => exact hnone (fun _ => rfl) (h.outside (by rw [ht]; exact id) id nofun)
  | add ht hfree => exact hnone (fun _ => rfl) (h.add ht hfree)
  | lock ht hfree hperm => exact h.lock ht hfree hperm
  | unlock ht => exact hnone (fun _ => rfl) (h.unlock ht)
  | @send t k fd x total evt rest toRemove ht hx hk hle =>
    refine hnone (fun _ => rfl) (h.work ht trivial ?_ ((h.held ht trivial).send hx hle) ?_)
    · split
      · exact nextTask_inside evt rest toRemove
      · trivial
    · intro a habsent
      rw [absent_iff (T := .sending evt fd rest toRemove total) nofun] at habsent
      exact ⟨.inl habsent,rfl⟩
  | @fail t fd total evt rest toRemove ht =>
    have hinside := nextTask_inside evt rest (toRemove++[fd])
    refine hnone (fun _ => rfl) (h.work ht trivial hinside (h.held ht trivial).fail ?_)
    intro a habsent
    rw [absent_iff (T := .sending evt fd rest toRemove total) nofun] at habsent
    exact ⟨.inl habsent,rfl⟩
  | @close t fd rest ht =>
    have hstreams := h.held ht trivial
    refine hnone (fun _ => rfl) (h.work ht trivial trivial hstreams.close ?_)
    intro a habsent
    rw [absent_iff (T := .removing (fd :: rest)) nofun] at habsent
    refine ⟨.inl habsent,Descriptors.close_owner_of_ne _ ?_⟩
    rintro rfl
    exact habsent (hstreams.listed a List.mem_cons_self)
  | @erase t fd rest ht =>
    refine hnone (fun _ => rfl) (h.work ht trivial trivial (h.held ht trivial).erase ?_)
    intro a habsent
    refine ⟨.inl ?_,rfl⟩
    intro hmem
    obtain ⟨hne,hmem⟩ := FdSet.mem_erase.mp hmem
    rcases habsent with hnot | ⟨rest',heq⟩
    · exact hnot hmem
    · cases heq
      exact hne rfl

/-- While nobody has `subMutex_`, the subscribers are open connections. -/
theorem subscriber_open (h : s.Invariant c events) (hfree : s.holder = none) {fd : Nat}
    (hfd : fd ∈ s.subscribers.fds) :
    ∃ x, s.descriptors.owner fd = some x ∧ s.descriptors.closes x = 0 := by
  have hpresent : ¬ Absent s.subscribers s.active fd := by
    rw [active_of_free hfree,absent_iff (T := .idle) nofun]
    exact not_not.mpr hfd
  obtain ⟨x,hx,_⟩ := h.streams.present fd hpresent
  exact ⟨x,hx,h.streams.valid.unclosed fd x hx⟩

/-- Nothing is sent to a connection that is closed, and it is not closed again. -/
theorem closed_step {s' : Publisher V} {e : Event V} (h : s.Invariant c events)
    (hstep : Step c s e s') {x : Nat} (hx : s.descriptors.closes x = 1) :
    s'.written x = s.written x ∧ s'.descriptors.closes x = 1 := by
  have hne : ∀ fd y, s.descriptors.owner fd = some y → x ≠ y := by
    rintro fd y hy rfl
    rw [h.streams.valid.unclosed fd x hy] at hx
    cases hx
  cases hstep with
  | @send _ _ fd y _ _ _ _ _ hy _ _ =>
    exact ⟨Function.update_of_ne (hne fd y hy) _ _,hx⟩
  | @close _ fd _ _ =>
    refine ⟨rfl,?_⟩
    show (s.descriptors.close fd).closes x = 1
    cases hy : s.descriptors.owner fd with
    | none => rwa [Descriptors.close_of_none hy]
    | some y => rwa [Descriptors.close_closes_of_ne hy (hne fd y hy)]
  | _ => exact ⟨rfl,hx⟩

end Invariant

theorem included_of_still {s : Publisher V} {e : Event V} (h : s.step c e = s) (x : Nat) :
    s.included x e = [] := by
  cases e with
  | lock t order =>
    simp only [included]
    split
    · next evt ht hfree =>
      refine if_neg ?_
      rintro ⟨hperm,_⟩
      have hholder : (s.step c (.lock t order)).holder = some t := by
        simp only [step,ht,hfree,if_pos hperm,goto_holder]
      rw [h,hfree] at hholder
      cases hholder
    · rfl
  | _ => rfl

end Publisher

section Runs
variable {c}

abbrev publisherAt (c : Protobuf V) (σ : Nat → Event V) (k : Nat) : Publisher V :=
  stateAt (Publisher.step c) .initial σ k

/-- The events of the calls of `publish` that have included the connection `x`, in the order in
which these took `subMutex_`. -/
def includedAt (c : Protobuf V) (σ : Nat → Event V) (x : Nat) : Nat → List V
  | 0 => []
  | k+1 => includedAt c σ x k++(publisherAt c σ k).included x (σ k)

theorem publisherAt_invariant (σ : Nat → Event V) (k : Nat) :
    (publisherAt c σ k).Invariant c fun x => includedAt c σ x k := by
  induction k with
  | zero => exact .start
  | succ k ih =>
    rw [publisherAt,stateAt_succ]
    rcases Publisher.step_cases (c := c) (publisherAt c σ k) (σ k) with heq | hstep
    · simp only [includedAt,Publisher.included_of_still heq,List.append_nil]
      rwa [heq]
    · exact ih.step hstep

theorem closed_run (σ : Nat → Event V) {x k : Nat}
    (hx : (publisherAt c σ k).descriptors.closes x = 1) {j : Nat} (hj : k ≤ j) :
    (publisherAt c σ j).written x = (publisherAt c σ k).written x ∧
      (publisherAt c σ j).descriptors.closes x = 1 := by
  induction j, hj using Nat.le_induction with
  | base => exact ⟨rfl,hx⟩
  | succ j hj ih =>
    rw [publisherAt,stateAt_succ]
    rcases Publisher.step_cases (c := c) (publisherAt c σ j) (σ j) with heq | hstep
    · rw [heq]
      exact ih
    · obtain ⟨hwritten,hcloses⟩ := (publisherAt_invariant σ j).closed_step hstep ih.2
      exact ⟨hwritten.trans ih.1,hcloses⟩

end Runs

/-- A connection has complete frames as long as it is open, except that the thread in `subMutex_`
may still have to send to it or to close it. After that a truncated frame is its last. -/
theorem frames_aligned (σ : Nat → Event V) (k x : Nat) :
    (((publisherAt c σ k).descriptors.closes x = 0 ∧
        (Whole c (includedAt c σ x k) ((publisherAt c σ k).written x) ∨
          (Cut c (includedAt c σ x k) ((publisherAt c σ k).written x) ∧
            ∃ fd, fd ∈ (publisherAt c σ k).active.listed ∧
              (publisherAt c σ k).descriptors.owner fd = some x))) ∨
      ((publisherAt c σ k).descriptors.closes x = 1 ∧
        Cut c (includedAt c σ x k) ((publisherAt c σ k).written x) ∧
        ∀ j, k ≤ j → (publisherAt c σ j).written x = (publisherAt c σ k).written x ∧
          (publisherAt c σ j).descriptors.closes x = 1)) ∧
    ((publisherAt c σ k).holder = none → (publisherAt c σ k).active.listed = [] ∧
      ∀ fd, fd ∈ (publisherAt c σ k).subscribers.fds →
        ∃ y, (publisherAt c σ k).descriptors.owner fd = some y ∧
          (publisherAt c σ k).descriptors.closes y = 0) := by
  have hinv := publisherAt_invariant (c := c) σ k
  refine ⟨?_,fun hfree => ⟨?_,fun fd hfd => hinv.subscriber_open hfree hfd⟩⟩
  · rcases hinv.streams.connection x with hopen | ⟨hclosed,hcut⟩
    · exact .inl hopen
    · exact .inr ⟨hclosed,hcut,fun j hj => closed_run σ hclosed hj⟩
  · rw [Publisher.active_of_free hfree]
    rfl

end LapCom.Socket.EventThreads
