import LapCom.Socket.EventThreads

set_option autoImplicit false

namespace LapCom.Socket.EventThreads
open LapCom.Kernel

variable {V : Type} (c : Protobuf V)

/-- The bytes of a connection are the frames of the events that it was to get. -/
def Whole (events : List V) (data : List Byte) : Prop := data = wire c events

def Partway (evt : V) (total : Nat) (events : List V) (data : List Byte) : Prop :=
  ∃ vs, events = vs++[evt] ∧ total < (eventFrame c evt).length ∧
    data = wire c vs++(eventFrame c evt).take total

def Cut (events : List V) (data : List Byte) : Prop := ∃ evt total, Partway c evt total events data

namespace Task

def Inside : Task V → Prop
  | .sending _ _ _ _ _ => True
  | .removing _ => True
  | .erasing _ _ => True
  | _ => False

def listed : Task V → List Nat
  | .sending _ fd rest toRemove _ => fd :: (rest++toRemove)
  | .removing toRemove => toRemove
  | .erasing fd rest => fd :: rest
  | _ => []

/-- What the thread in `subMutex_` has made of the bytes of a subscriber. -/
def Mark (fd : Nat) (events : List V) (data : List Byte) : Task V → Prop
  | .sending evt a rest toRemove total =>
    if fd = a then Partway c evt total events data
    else if fd ∈ rest then Partway c evt 0 events data
    else if fd ∈ toRemove then Cut c events data
    else Whole c events data
  | .removing toRemove => if fd ∈ toRemove then Cut c events data else Whole c events data
  | .erasing _ rest => if fd ∈ rest then Cut c events data else Whole c events data
  | _ => Whole c events data

end Task

section Tasks
variable {c}

theorem wire_concat (vs : List V) (evt : V) : wire c (vs++[evt]) = wire c vs++eventFrame c evt := by
  rw [wire_append]
  exact congrArg _ (List.append_nil _)

theorem eventFrame_pos (evt : V) : 0 < (eventFrame c evt).length := by
  rw [eventFrame,List.length_append,htonl_length]
  omega

theorem nextTask_inside (evt : V) (rest toRemove : List Nat) :
    (nextTask evt rest toRemove).Inside := by
  cases rest <;> trivial

theorem nextTask_listed (evt : V) (rest toRemove : List Nat) :
    (nextTask evt rest toRemove).listed = rest++toRemove := by
  cases rest <;> rfl

theorem nextTask_ne_erasing (evt : V) (rest toRemove : List Nat) (fd : Nat) (fds : List Nat) :
    nextTask evt rest toRemove ≠ .erasing fd fds := by
  cases rest <;> exact nofun

theorem nextTask_mark (evt : V) (rest toRemove : List Nat) (fd : Nat) (events : List V)
    (data : List Byte) :
    (nextTask evt rest toRemove).Mark c fd events data ↔
      if fd ∈ rest then Partway c evt 0 events data
      else if fd ∈ toRemove then Cut c events data
      else Whole c events data := by
  cases rest with
  | nil => simp [nextTask,Task.Mark]
  | cons a rest =>
    by_cases ha : fd = a <;> simp [nextTask,Task.Mark,ha]

theorem Partway.start {events : List V} {data : List Byte} (h : Whole c events data) (evt : V) :
    Partway c evt 0 (events++[evt]) data :=
  ⟨events,rfl,eventFrame_pos evt,by rw [List.take_zero,List.append_nil]; exact h⟩

theorem Partway.more {evt : V} {total : Nat} {events : List V} {data : List Byte}
    (h : Partway c evt total events data) {k : Nat}
    (hlt : total+k < (eventFrame c evt).length) :
    Partway c evt (total+k) events (data++((eventFrame c evt).drop total).take k) := by
  obtain ⟨vs,hevents,_,hdata⟩ := h
  refine ⟨vs,hevents,hlt,?_⟩
  rw [hdata,List.append_assoc,List.take_add]

theorem Partway.done {evt : V} {total : Nat} {events : List V} {data : List Byte}
    (h : Partway c evt total events data) {k : Nat}
    (heq : total+k = (eventFrame c evt).length) :
    Whole c events (data++((eventFrame c evt).drop total).take k) := by
  obtain ⟨vs,hevents,_,hdata⟩ := h
  rw [Whole,hevents,wire_concat,hdata,List.append_assoc,← List.take_add,heq,List.take_length]

theorem mark_cases {T : Task V} {fd : Nat} {events : List V} {data : List Byte}
    (h : T.Mark c fd events data) :
    Whole c events data ∨ (Cut c events data ∧ fd ∈ T.listed) := by
  cases T with
  | sending evt a rest toRemove total =>
    simp only [Task.Mark] at h
    simp only [Task.listed,List.mem_cons,List.mem_append]
    split at h
    · next ha => exact .inr ⟨⟨evt,total,h⟩,.inl ha⟩
    · split at h
      · next hrest => exact .inr ⟨⟨evt,0,h⟩,.inr (.inl hrest)⟩
      · split at h
        · next hremove => exact .inr ⟨h,.inr (.inr hremove)⟩
        · exact .inl h
  | removing toRemove =>
    simp only [Task.Mark] at h
    split at h
    · next hremove => exact .inr ⟨h,hremove⟩
    · exact .inl h
  | erasing a rest =>
    simp only [Task.Mark] at h
    split at h
    · next hrest => exact .inr ⟨h,List.mem_cons_of_mem a hrest⟩
    · exact .inl h
  | idle => exact .inl h
  | absorbing _ => exact .inl h
  | adding _ _ => exact .inl h
  | ready _ => exact .inl h

end Tasks

/-- The descriptor is not among the subscribers, or on its way out after it was closed. -/
def Absent (subscribers : FdSet) (T : Task V) (fd : Nat) : Prop :=
  fd ∉ subscribers.fds ∨ ∃ rest, T = .erasing fd rest

theorem absent_iff {subscribers : FdSet} {T : Task V} (hT : ∀ fd rest, T ≠ .erasing fd rest)
    (fd : Nat) : Absent subscribers T fd ↔ fd ∉ subscribers.fds := by
  constructor
  · rintro (hfd | ⟨rest,h⟩)
    · exact hfd
    · exact absurd h (hT fd rest)
  · exact .inl

/-- The bytes of all connections while the thread in `subMutex_` is at `T`; `events x` are those
that the connection `x` was to get. -/
structure Streams (d : Descriptors) (subscribers : FdSet) (T : Task V)
    (written : Nat → List Byte) (events : Nat → List V) : Prop where
  valid : d.Valid
  nodup : T.listed.Nodup
  listed : ∀ fd, fd ∈ T.listed → fd ∈ subscribers.fds
  absent : ∀ fd x, d.owner fd = some x → Absent subscribers T fd →
    events x = [] ∧ written x = []
  present : ∀ fd, ¬ Absent subscribers T fd →
    ∃ x, d.owner fd = some x ∧ T.Mark c fd (events x) (written x)
  closed : ∀ x, d.closes x = 1 → Cut c (events x) (written x)
  fresh : ∀ x, d.accepted ≤ x → events x = [] ∧ written x = []

namespace Streams
variable {c} {d : Descriptors} {subscribers : FdSet} {T : Task V} {written : Nat → List Byte}
  {events : Nat → List V}

theorem start : Streams c .initial .empty (.idle : Task V) (fun _ => []) (fun _ => []) :=
  { valid := .initial
    nodup := List.nodup_nil
    listed := nofun
    absent := nofun
    present := fun _ hfd => absurd (.inl List.not_mem_nil) hfd
    closed := nofun
    fresh := fun _ _ => ⟨rfl,rfl⟩ }

theorem accept (h : Streams c d subscribers T written events) {fd : Nat}
    (hfree : d.owner fd = none) : Streams c (d.accept fd) subscribers T written events := by
  refine ⟨h.valid.accept hfree,h.nodup,h.listed,?_,?_,h.closed,?_⟩
  · intro a x hx habsent
    by_cases ha : a = fd
    · subst ha
      rw [Descriptors.accept_owner_self] at hx
      obtain rfl := Option.some.inj hx
      exact h.fresh _ (Nat.le_refl _)
    · rw [Descriptors.accept_owner_of_ne d ha] at hx
      exact h.absent a x hx habsent
  · intro a hpresent
    obtain ⟨x,hx,hmark⟩ := h.present a hpresent
    exact ⟨x,(Descriptors.accept_owner_of_some hfree hx).2,hmark⟩
  · intro x hx
    exact h.fresh x (Nat.le_of_succ_le hx)

theorem insert (h : Streams c d subscribers .idle written events) {fd x : Nat}
    (hx : d.owner fd = some x) (habsent : fd ∉ subscribers.fds) :
    Streams c d (subscribers.insert fd) .idle written events := by
  refine ⟨h.valid,h.nodup,nofun,?_,?_,h.closed,h.fresh⟩
  · rintro a y hy (ha | ⟨_,hT⟩)
    · exact h.absent a y hy (.inl fun hmem => ha (FdSet.mem_insert.mpr (.inr hmem)))
    · cases hT
  · intro a hpresent
    have ha : a ∈ (subscribers.insert fd).fds := by
      by_contra hmem
      exact hpresent (.inl hmem)
    rcases FdSet.mem_insert.mp ha with rfl | ha
    · obtain ⟨hevents,hwritten⟩ := h.absent a x hx (.inl habsent)
      refine ⟨x,hx,?_⟩
      rw [hevents,hwritten]
      rfl
    · refine h.present a ?_
      rintro (hmem | ⟨_,hT⟩)
      · exact hmem ha
      · cases hT

theorem lock (h : Streams c d subscribers .idle written events) {order : List Nat}
    (hperm : order.Perm subscribers.fds) (evt : V) :
    Streams c d subscribers (nextTask evt order []) written fun x =>
      if ∃ fd, fd ∈ order ∧ d.owner fd = some x then events x++[evt] else events x := by
  have hidle : ∀ fd rest, (Task.idle : Task V) ≠ .erasing fd rest := nofun
  have hnext := nextTask_ne_erasing evt order []
  have hnone : ∀ x, (∀ fd, d.owner fd ≠ some x) →
      ¬ ∃ fd, fd ∈ order ∧ d.owner fd = some x := by
    rintro x hx ⟨fd,_,hfd⟩
    exact hx fd hfd
  refine ⟨h.valid,?_,?_,?_,?_,?_,?_⟩
  · rw [nextTask_listed,List.append_nil]
    exact hperm.nodup_iff.mpr subscribers.nodup
  · intro fd hfd
    rw [nextTask_listed,List.append_nil] at hfd
    exact hperm.mem_iff.mp hfd
  · intro fd x hx habsent
    rw [absent_iff hnext] at habsent
    have hout : ¬ ∃ fd, fd ∈ order ∧ d.owner fd = some x := by
      rintro ⟨a,ha,hax⟩
      rw [h.valid.injective a fd x hax hx] at ha
      exact habsent (hperm.mem_iff.mp ha)
    simp only [if_neg hout]
    exact h.absent fd x hx (.inl habsent)
  · intro fd hpresent
    rw [absent_iff hnext] at hpresent
    obtain ⟨x,hx,hmark⟩ := h.present fd (by rwa [absent_iff hidle])
    have hmem : fd ∈ order := hperm.mem_iff.mpr (not_not.mp hpresent)
    refine ⟨x,hx,?_⟩
    rw [nextTask_mark,if_pos hmem,if_pos ⟨fd,hmem,hx⟩]
    exact Partway.start hmark evt
  · intro x hx
    have hout := hnone x fun fd hfd => by
      rw [h.valid.unclosed fd x hfd] at hx
      cases hx
    simp only [if_neg hout]
    exact h.closed x hx
  · intro x hx
    have hout := hnone x fun fd hfd => by
      have hlt := h.valid.bound fd x hfd
      omega
    simp only [if_neg hout]
    exact h.fresh x hx

theorem progress (h : Streams c d subscribers T written events) {T' : Task V} {x : Nat}
    {data : List Byte} {fd : Nat} (hx : d.owner fd = some x) (hfd : fd ∈ subscribers.fds)
    (hT : ∀ a rest, T ≠ .erasing a rest) (hT' : ∀ a rest, T' ≠ .erasing a rest)
    (hlisted : T'.listed.Nodup ∧ ∀ a, a ∈ T'.listed → a ∈ T.listed)
    (hself : T'.Mark c fd (events x) data)
    (hother : ∀ a evts bytes, a ≠ fd → T.Mark c a evts bytes → T'.Mark c a evts bytes) :
    Streams c d subscribers T' (Function.update written x data) events := by
  have howner : ∀ a y, d.owner a = some y → a ≠ fd → y ≠ x := by
    rintro a y ha hne rfl
    exact hne (h.valid.injective a fd y ha hx)
  refine ⟨h.valid,hlisted.1,fun a ha => h.listed a (hlisted.2 a ha),?_,?_,?_,?_⟩
  · intro a y hy habsent
    rw [absent_iff hT'] at habsent
    have hne : a ≠ fd := by
      rintro rfl
      exact habsent hfd
    rw [Function.update_of_ne (howner a y hy hne)]
    exact h.absent a y hy (.inl habsent)
  · intro a hpresent
    rw [absent_iff hT'] at hpresent
    by_cases ha : a = fd
    · subst ha
      refine ⟨x,hx,?_⟩
      rwa [Function.update_self]
    · obtain ⟨y,hy,hmark⟩ := h.present a (by rwa [absent_iff hT])
      refine ⟨y,hy,?_⟩
      rw [Function.update_of_ne (howner a y hy ha)]
      exact hother a _ _ ha hmark
  · intro y hy
    have hne : y ≠ x := by
      rintro rfl
      rw [h.valid.unclosed fd y hx] at hy
      cases hy
    rw [Function.update_of_ne hne]
    exact h.closed y hy
  · intro y hy
    have hne : y ≠ x := by
      rintro rfl
      have hlt := h.valid.bound fd y hx
      omega
    rw [Function.update_of_ne hne]
    exact h.fresh y hy

section Sending
variable {evt : V} {fd total : Nat} {rest toRemove : List Nat}

theorem current (h : Streams c d subscribers (.sending evt fd rest toRemove total) written events) :
    (fd ∉ rest ∧ fd ∉ toRemove ∧ (rest++toRemove).Nodup) ∧ fd ∈ subscribers.fds ∧
      ∃ x, d.owner fd = some x ∧ Partway c evt total (events x) (written x) := by
  have hfd : fd ∈ subscribers.fds := h.listed fd List.mem_cons_self
  have hpresent : ¬ Absent subscribers (.sending evt fd rest toRemove total) fd := by
    rw [absent_iff (T := .sending evt fd rest toRemove total) nofun]
    exact not_not.mpr hfd
  obtain ⟨hnot,hnodup⟩ := List.nodup_cons.mp h.nodup
  rw [List.mem_append,not_or] at hnot
  obtain ⟨x,hx,hmark⟩ := h.present fd hpresent
  simp only [Task.Mark,if_true] at hmark
  exact ⟨⟨hnot.1,hnot.2,hnodup⟩,hfd,x,hx,hmark⟩

theorem send (h : Streams c d subscribers (.sending evt fd rest toRemove total) written events)
    {x k : Nat} (hx : d.owner fd = some x) (hle : total+k ≤ (eventFrame c evt).length) :
    Streams c d subscribers
      (if total+k = (eventFrame c evt).length then nextTask evt rest toRemove
        else .sending evt fd rest toRemove (total+k))
      (Function.update written x (written x++((eventFrame c evt).drop total).take k)) events := by
  obtain ⟨⟨hrest,hremove,hnodup⟩,hfd,y,hy,hpart⟩ := h.current
  rw [hx] at hy
  obtain rfl := Option.some.inj hy
  by_cases hlast : total+k = (eventFrame c evt).length
  · rw [if_pos hlast]
    refine h.progress hx hfd nofun (nextTask_ne_erasing evt rest toRemove) ?_ ?_ ?_
    · rw [nextTask_listed]
      exact ⟨hnodup,fun a ha => List.mem_cons_of_mem _ ha⟩
    · rw [nextTask_mark,if_neg hrest,if_neg hremove]
      exact hpart.done hlast
    · intro a evts bytes ha hmark
      rw [nextTask_mark]
      simpa only [Task.Mark,if_neg ha] using hmark
  · rw [if_neg hlast]
    refine h.progress hx hfd nofun nofun ⟨h.nodup,fun a ha => ha⟩ ?_ ?_
    · simp only [Task.Mark,if_true]
      exact hpart.more (by omega)
    · intro a evts bytes ha hmark
      simpa only [Task.Mark,if_neg ha] using hmark

theorem fail (h : Streams c d subscribers (.sending evt fd rest toRemove total) written events) :
    Streams c d subscribers (nextTask evt rest (toRemove++[fd])) written events := by
  obtain ⟨⟨hrest,hremove,hnodup⟩,hfd,x,hx,hpart⟩ := h.current
  have hlisted : (rest++(toRemove++[fd])).Perm (fd :: (rest++toRemove)) := by
    rw [← List.append_assoc]
    exact List.perm_append_singleton fd (rest++toRemove)
  have hprogress : Streams c d subscribers (nextTask evt rest (toRemove++[fd]))
      (Function.update written x (written x)) events := by
    refine h.progress hx hfd nofun (nextTask_ne_erasing evt rest _) ?_ ?_ ?_
    · rw [nextTask_listed]
      exact ⟨hlisted.nodup_iff.mpr h.nodup,fun a ha => hlisted.mem_iff.mp ha⟩
    · rw [nextTask_mark,if_neg hrest,if_pos (by simp)]
      exact ⟨evt,total,hpart⟩
    · intro a evts bytes ha hmark
      rw [nextTask_mark]
      simpa [Task.Mark,ha] using hmark
  rwa [Function.update_eq_self] at hprogress

end Sending

theorem close {fd : Nat} {rest : List Nat}
    (h : Streams c d subscribers (.removing (fd :: rest)) written events) :
    Streams c (d.close fd) subscribers (.erasing fd rest) written events := by
  have hremoving : ∀ a, Absent subscribers (.removing (fd :: rest) : Task V) a ↔
      a ∉ subscribers.fds := absent_iff nofun
  have hfd : fd ∈ subscribers.fds := h.listed fd List.mem_cons_self
  obtain ⟨x,hx,hmark⟩ := h.present fd (by rw [hremoving]; exact not_not.mpr hfd)
  simp only [Task.Mark,List.mem_cons_self,if_true] at hmark
  have howner : ∀ a y, (d.close fd).owner a = some y → a ≠ fd ∧ d.owner a = some y := by
    intro a y hy
    have hne : a ≠ fd := by
      rintro rfl
      rw [Descriptors.close_owner_self] at hy
      cases hy
    exact ⟨hne,by rwa [Descriptors.close_owner_of_ne d hne] at hy⟩
  refine ⟨h.valid.close fd,h.nodup,h.listed,?_,?_,?_,?_⟩
  · intro a y hy habsent
    obtain ⟨hne,hy⟩ := howner a y hy
    rcases habsent with ha | ⟨_,hT⟩
    · exact h.absent a y hy (.inl ha)
    · cases hT
      exact absurd rfl hne
  · intro a hpresent
    have hne : a ≠ fd := by
      rintro rfl
      exact hpresent (.inr ⟨rest,rfl⟩)
    have ha : a ∈ subscribers.fds := by
      by_contra ha
      exact hpresent (.inl ha)
    obtain ⟨y,hy,hold⟩ := h.present a (by rw [hremoving]; exact not_not.mpr ha)
    refine ⟨y,(Descriptors.close_owner_of_ne d hne).trans hy,?_⟩
    simpa only [Task.Mark,List.mem_cons,hne,false_or] using hold
  · intro y hy
    by_cases hyx : y = x
    · subst hyx
      exact hmark
    · rw [Descriptors.close_closes_of_ne hx hyx] at hy
      exact h.closed y hy
  · intro y hy
    rw [Descriptors.close_accepted] at hy
    exact h.fresh y hy

theorem erase {fd : Nat} {rest : List Nat}
    (h : Streams c d subscribers (.erasing fd rest) written events) :
    Streams c d (subscribers.erase fd) (.removing rest) written events := by
  have hremoving : ∀ a, Absent (subscribers.erase fd) (.removing rest : Task V) a ↔
      a ∉ (subscribers.erase fd).fds := absent_iff nofun
  obtain ⟨hnot,hnodup⟩ := List.nodup_cons.mp h.nodup
  refine ⟨h.valid,hnodup,?_,?_,?_,h.closed,h.fresh⟩
  · intro a ha
    have hne : a ≠ fd := by
      rintro rfl
      exact hnot ha
    exact FdSet.mem_erase.mpr ⟨hne,h.listed a (List.mem_cons_of_mem _ ha)⟩
  · intro a x hx habsent
    rw [hremoving,FdSet.mem_erase,not_and] at habsent
    by_cases hne : a = fd
    · subst hne
      exact h.absent a x hx (.inr ⟨rest,rfl⟩)
    · exact h.absent a x hx (.inl (habsent hne))
  · intro a hpresent
    rw [hremoving,not_not,FdSet.mem_erase] at hpresent
    obtain ⟨hne,ha⟩ := hpresent
    refine h.present a ?_
    rintro (hnotin | ⟨_,hT⟩)
    · exact hnotin ha
    · cases hT
      exact hne rfl

theorem unlock (h : Streams c d subscribers (.removing []) written events) :
    Streams c d subscribers .idle written events := by
  have hidle : ∀ a, Absent subscribers (.idle : Task V) a ↔ a ∉ subscribers.fds :=
    absent_iff nofun
  have hremoving : ∀ a, Absent subscribers (.removing [] : Task V) a ↔ a ∉ subscribers.fds :=
    absent_iff nofun
  refine ⟨h.valid,List.nodup_nil,nofun,?_,?_,h.closed,h.fresh⟩
  · intro a x hx habsent
    exact h.absent a x hx (by rwa [hremoving,← hidle])
  · intro a hpresent
    obtain ⟨x,hx,hmark⟩ := h.present a (by rwa [hremoving,← hidle])
    refine ⟨x,hx,?_⟩
    simpa [Task.Mark] using hmark

/-- An open connection may have a truncated frame only while it is still to be closed. -/
theorem connection (h : Streams c d subscribers T written events) (x : Nat) :
    (d.closes x = 0 ∧ (Whole c (events x) (written x) ∨
      (Cut c (events x) (written x) ∧ ∃ fd, fd ∈ T.listed ∧ d.owner fd = some x))) ∨
    (d.closes x = 1 ∧ Cut c (events x) (written x)) := by
  have honce := h.valid.once x
  have hempty : events x = [] ∧ written x = [] → Whole c (events x) (written x) := by
    rintro ⟨hevents,hwritten⟩
    rw [hevents,hwritten]
    rfl
  by_cases hclosed : d.closes x = 1
  · exact .inr ⟨hclosed,h.closed x hclosed⟩
  · have hopen : d.closes x = 0 := by omega
    refine .inl ⟨hopen,?_⟩
    by_cases hx : x < d.accepted
    · obtain ⟨fd,hfd⟩ := h.valid.opened x hx hopen
      by_cases habsent : Absent subscribers T fd
      · exact .inl (hempty (h.absent fd x hfd habsent))
      · obtain ⟨y,hy,hmark⟩ := h.present fd habsent
        rw [hfd] at hy
        obtain rfl := Option.some.inj hy
        rcases mark_cases hmark with hwhole | ⟨hcut,hlisted⟩
        · exact .inl hwhole
        · exact .inr ⟨hcut,fd,hlisted,hfd⟩
    · exact .inl (hempty (h.fresh x (by omega)))

end Streams

end LapCom.Socket.EventThreads
