import LapCom.Socket.Field

set_option autoImplicit false

namespace LapCom.Socket.FieldThreads

/-- The threads that touch a field: one for each connection, and those that call `setLocal`. -/
inductive Thread where
  | handler (fd : Nat)
  | setter (i : Nat)
  deriving DecidableEq

/-- Where a thread stands: before the copy in `sendValue`, in its send loop, before
`notifySubscribers` has `subMutex_`, and there before the next copy or in a send loop.
`onward` says that a SET goes on to `notifySubscribers`. -/
inductive Task (V : Type) where
  | idle
  | reply (fd : Nat) (onward : Bool)
  | replying (fd : Nat) (copy : V) (total : Nat) (onward : Bool)
  | notify
  | notifying (rest toRemove : List Nat)
  | sending (fd : Nat) (rest toRemove : List Nat) (copy : V) (total : Nat)
  deriving DecidableEq

/-- The server between two steps. `holder` has `subMutex_`; the sections under `valMutex_` are
single steps. `requests` are the frames that a connection's loop has not read. -/
structure Server (V : Type) where
  value : V
  subscribers : FdSet
  holder : Option Thread
  tasks : Thread → Task V
  requests : Nat → List (Request V)
  written : Nat → List Byte
  closed : List Nat

inductive Event (V : Type) where
  | arrive (fd : Nat) (q : Request V)
  | serve (fd : Nat)
  | setLocal (i : Nat) (v : V)
  | copy (t : Thread)
  | lock (t : Thread) (order : List Nat)
  | unlock (t : Thread)
  | send (t : Thread) (k : Nat)
  | fail (t : Thread)

variable {V : Type}

def valueFrame (c : Protobuf V) (v : V) : List Byte :=
  htonl (c.serialize v).length++c.serialize v

def afterReply (onward : Bool) : Task V := if onward then .notify else .idle

namespace Task

/-- The connection, the copy and how much of its frame is sent. -/
def writing : Task V → Option (Nat × V × Nat)
  | .replying fd v total _ => some (fd,v,total)
  | .sending fd _ _ v total => some (fd,v,total)
  | _ => none

def advance (size k : Nat) : Task V → Task V
  | .replying fd v total onward =>
    if total+k = size then afterReply onward else .replying fd v (total+k) onward
  | .sending fd rest toRemove v total =>
    if total+k = size then .notifying rest toRemove else .sending fd rest toRemove v (total+k)
  | T => T

end Task

def locks : Request V → Bool
  | .subscribe => true
  | .unsubscribe => true
  | _ => false

namespace Server

def goto (s : Server V) (t : Thread) (T : Task V) : Server V :=
  { s with tasks := Function.update s.tasks t T }

def write (s : Server V) (fd : Nat) (data : List Byte) : Server V :=
  { s with written := Function.update s.written fd (s.written fd++data) }

def execute (s : Server V) (fd : Nat) : Request V → Server V
  | .get => s.goto (.handler fd) (.reply fd false)
  | .set v => ({ s with value := v } : Server V).goto (.handler fd) (.reply fd true)
  | .subscribe =>
    ({ s with subscribers := s.subscribers.insert fd } : Server V).goto (.handler fd)
      (.reply fd false)
  | .unsubscribe => { s with subscribers := s.subscribers.erase fd }

def step (c : Protobuf V) (s : Server V) : Event V → Server V
  | .arrive fd q => { s with requests := Function.update s.requests fd (s.requests fd++[q]) }
  | .serve fd =>
    match s.tasks (.handler fd),s.requests fd with
    | .idle,q :: rest =>
      if locks q = true ∧ s.holder ≠ none then s
      else ({ s with requests := Function.update s.requests fd rest } : Server V).execute fd q
    | _,_ => s
  | .setLocal i v =>
    match s.tasks (.setter i) with
    | .idle => ({ s with value := v } : Server V).goto (.setter i) .notify
    | _ => s
  | .copy t =>
    match s.tasks t with
    | .reply fd onward =>
      match serializeMessage c s.value with
      | .error _ => s.goto t (afterReply onward)
      | .ok _ => s.goto t (.replying fd s.value 0 onward)
    | .notifying (fd :: rest) toRemove =>
      match serializeMessage c s.value with
      | .error _ => s.goto t (.notifying rest (toRemove++[fd]))
      | .ok _ => s.goto t (.sending fd rest toRemove s.value 0)
    | _ => s
  | .lock t order =>
    match s.tasks t,s.holder with
    | .notify,none =>
      if order.Perm s.subscribers.fds then
        ({ s with holder := some t } : Server V).goto t (.notifying order [])
      else s
    | _,_ => s
  | .unlock t =>
    match s.tasks t with
    | .notifying [] toRemove =>
      ({ s with
        holder := none
        subscribers := toRemove.foldl FdSet.erase s.subscribers
        closed := s.closed++toRemove } : Server V).goto t .idle
    | _ => s
  | .send t k =>
    match (s.tasks t).writing with
    | none => s
    | some (fd,v,total) =>
      if 0 < k ∧ total+k ≤ (valueFrame c v).length ∧ fd ∉ s.closed then
        (s.write fd (((valueFrame c v).drop total).take k)).goto t
          ((s.tasks t).advance (valueFrame c v).length k)
      else s
  | .fail t =>
    match s.tasks t with
    | .replying _ _ _ onward => s.goto t (afterReply onward)
    | .sending fd rest toRemove _ _ => s.goto t (.notifying rest (toRemove++[fd]))
    | _ => s

inductive Step (c : Protobuf V) (s : Server V) : Event V → Server V → Prop where
  | arrive (fd : Nat) (q : Request V) :
      Step c s (.arrive fd q)
        { s with requests := Function.update s.requests fd (s.requests fd++[q]) }
  | serve {fd : Nat} {q : Request V} {rest : List (Request V)}
      (ht : s.tasks (.handler fd) = .idle) (hq : s.requests fd = q :: rest)
      (hfree : locks q = true → s.holder = none) :
      Step c s (.serve fd)
        (({ s with requests := Function.update s.requests fd rest } : Server V).execute fd q)
  | setLocal {i : Nat} (v : V) (ht : s.tasks (.setter i) = .idle) :
      Step c s (.setLocal i v) (({ s with value := v } : Server V).goto (.setter i) .notify)
  | copyReply {t : Thread} {fd : Nat} {onward : Bool} (ht : s.tasks t = .reply fd onward)
      (hsize : (c.serialize s.value).length < 2^31) :
      Step c s (.copy t) (s.goto t (.replying fd s.value 0 onward))
  | copyFails {t : Thread} {fd : Nat} {onward : Bool} (ht : s.tasks t = .reply fd onward)
      (hsize : ¬ (c.serialize s.value).length < 2^31) :
      Step c s (.copy t) (s.goto t (afterReply onward))
  | copyNotify {t : Thread} {fd : Nat} {rest toRemove : List Nat}
      (ht : s.tasks t = .notifying (fd :: rest) toRemove)
      (hsize : (c.serialize s.value).length < 2^31) :
      Step c s (.copy t) (s.goto t (.sending fd rest toRemove s.value 0))
  | remove {t : Thread} {fd : Nat} {rest toRemove : List Nat}
      (ht : s.tasks t = .notifying (fd :: rest) toRemove) :
      Step c s (.copy t) (s.goto t (.notifying rest (toRemove++[fd])))
  | lock {t : Thread} {order : List Nat} (ht : s.tasks t = .notify) (hfree : s.holder = none)
      (hperm : order.Perm s.subscribers.fds) :
      Step c s (.lock t order)
        (({ s with holder := some t } : Server V).goto t (.notifying order []))
  | unlock {t : Thread} {toRemove : List Nat} (ht : s.tasks t = .notifying [] toRemove) :
      Step c s (.unlock t)
        (({ s with
          holder := none
          subscribers := toRemove.foldl FdSet.erase s.subscribers
          closed := s.closed++toRemove } : Server V).goto t .idle)
  | send {t : Thread} {k fd total : Nat} {v : V}
      (ht : (s.tasks t).writing = some (fd,v,total)) (hk : 0 < k)
      (hle : total+k ≤ (valueFrame c v).length) :
      Step c s (.send t k)
        ((s.write fd (((valueFrame c v).drop total).take k)).goto t
          ((s.tasks t).advance (valueFrame c v).length k))
  | failReply {t : Thread} {fd total : Nat} {v : V} {onward : Bool}
      (ht : s.tasks t = .replying fd v total onward) :
      Step c s (.fail t) (s.goto t (afterReply onward))
  | failNotify {t : Thread} {fd total : Nat} {rest toRemove : List Nat} {v : V}
      (ht : s.tasks t = .sending fd rest toRemove v total) :
      Step c s (.fail t) (s.goto t (.notifying rest (toRemove++[fd])))

variable {c : Protobuf V}

theorem serialize_lt_of_ok {v : V} {data : List Byte} (h : serializeMessage c v = .ok data) :
    (c.serialize v).length < 2^31 := (serializeMessage_eq_ok.mp h).1

theorem step_cases (s : Server V) (e : Event V) : s.step c e = s ∨ Step c s e (s.step c e) := by
  cases e with
  | arrive fd q => exact .inr (.arrive fd q)
  | serve fd =>
    simp only [step]
    split
    · next q rest ht hq =>
      split
      · exact .inl rfl
      · next hfree =>
        refine .inr (.serve ht hq fun hlocks => ?_)
        by_contra hne
        exact hfree ⟨hlocks,hne⟩
    · exact .inl rfl
  | setLocal i v =>
    simp only [step]
    split
    · next ht => exact .inr (.setLocal v ht)
    · exact .inl rfl
  | copy t =>
    simp only [step]
    split
    · next fd onward ht =>
      split
      · next hser =>
        refine .inr (.copyFails ht fun hsize => ?_)
        rw [serializeMessage_of_lt hsize] at hser
        cases hser
      · next hser => exact .inr (.copyReply ht (serialize_lt_of_ok hser))
    · next fd rest toRemove ht =>
      split
      · exact .inr (.remove ht)
      · next hser => exact .inr (.copyNotify ht (serialize_lt_of_ok hser))
    · exact .inl rfl
  | lock t order =>
    simp only [step]
    split
    · next ht hfree =>
      split
      · next hperm => exact .inr (.lock ht hfree hperm)
      · exact .inl rfl
    · exact .inl rfl
  | unlock t =>
    simp only [step]
    split
    · next ht => exact .inr (.unlock ht)
    · exact .inl rfl
  | send t k =>
    simp only [step]
    split
    · exact .inl rfl
    · next fd v total ht =>
      split
      · next h => exact .inr (.send ht h.1 h.2.1)
      · exact .inl rfl
  | fail t =>
    simp only [step]
    split
    · next ht => exact .inr (.failReply ht)
    · next ht => exact .inr (.failNotify ht)
    · exact .inl rfl

def Midway (s : Server V) (t : Thread) (fd : Nat) (v : V) (total : Nat) : Prop :=
  (s.tasks t).writing = some (fd,v,total) ∧ 0 < total

/-- `data` is the frames of `vs` and what the one send loop that is midway has sent. -/
def Carries (c : Protobuf V) (s : Server V) (fd : Nat) (data : List Byte) (vs : List V) : Prop :=
  (data = wire c vs ∧ ∀ t v total, ¬ s.Midway t fd v total) ∨
  ∃ t v total, s.Midway t fd v total ∧ total < (valueFrame c v).length ∧
    data = wire c vs++(valueFrame c v).take total ∧
    ∀ t' v' total', s.Midway t' fd v' total' → t' = t

/-- No send loop starts on a connection where another is midway, none gives up midway. -/
def Clear (s : Server V) (fd : Nat) : Event V → Prop
  | .send t _ => ∀ v, (s.tasks t).writing = some (fd,v,0) → ∀ t' v' total, ¬ s.Midway t' fd v' total
  | .fail t => ∀ v total, ¬ s.Midway t fd v total
  | _ => True

theorem not_midway {s : Server V} {t : Thread} {fd : Nat}
    (h : ∀ v total, (s.tasks t).writing = some (fd,v,total) → total = 0) (v : V) (total : Nat) :
    ¬ s.Midway t fd v total := by
  rintro ⟨hw,hpos⟩
  have := h v total hw
  omega

theorem goto_midway {s : Server V} {t : Thread} {fd : Nat} {T : Task V}
    (hold : ∀ v total, ¬ s.Midway t fd v total)
    (hnew : ∀ v total, T.writing = some (fd,v,total) → total = 0) (t' : Thread) (v : V)
    (total : Nat) : (s.goto t T).Midway t' fd v total ↔ s.Midway t' fd v total := by
  by_cases h : t' = t
  · subst h
    refine iff_of_false (not_midway ?_ v total) (hold v total)
    simpa [goto] using hnew
  · simp [Midway,goto,Function.update_of_ne h]

theorem Step.written {s s' : Server V} {e : Event V} (h : Step c s e s') {fd : Nat}
    (hsend : ∀ t k, e ≠ .send t k) (hclear : s.Clear fd e) :
    s'.written fd = s.written fd ∧ ∀ t v total, s'.Midway t fd v total ↔ s.Midway t fd v total := by
  have hnone {t : Thread} {T : Task V} (ht : s.tasks t = T) (hT : T.writing = none) :
      ∀ v total, ¬ s.Midway t fd v total :=
    not_midway fun v total hw => by rw [ht,hT] at hw; cases hw
  cases h with
  | arrive a q => exact ⟨rfl,fun _ _ _ => Iff.rfl⟩
  | @serve a q rest ht hq hfree =>
    cases q with
    | unsubscribe => exact ⟨rfl,fun _ _ _ => Iff.rfl⟩
    | _ => exact ⟨rfl,goto_midway (hnone ht rfl) fun _ _ hw => by cases hw⟩
  | setLocal v ht => exact ⟨rfl,goto_midway (hnone ht rfl) fun _ _ hw => by cases hw⟩
  | copyReply ht hsize => exact ⟨rfl,goto_midway (hnone ht rfl) fun _ _ hw => by cases hw; rfl⟩
  | @copyFails t a onward ht hsize =>
    refine ⟨rfl,goto_midway (hnone ht rfl) fun _ _ hw => ?_⟩
    cases onward <;> cases hw
  | copyNotify ht hsize => exact ⟨rfl,goto_midway (hnone ht rfl) fun _ _ hw => by cases hw; rfl⟩
  | remove ht => exact ⟨rfl,goto_midway (hnone ht rfl) fun _ _ hw => by cases hw⟩
  | lock ht hfree hperm => exact ⟨rfl,goto_midway (hnone ht rfl) fun _ _ hw => by cases hw⟩
  | unlock ht => exact ⟨rfl,goto_midway (hnone ht rfl) fun _ _ hw => by cases hw⟩
  | send ht hk hle => exact absurd rfl (hsend _ _)
  | @failReply t a total v onward ht =>
    refine ⟨rfl,goto_midway hclear fun _ _ hw => ?_⟩
    cases onward <;> cases hw
  | failNotify ht => exact ⟨rfl,goto_midway hclear fun _ _ hw => by cases hw⟩

theorem wire_concat (vs : List V) (v : V) : wire c (vs++[v]) = wire c vs++valueFrame c v := by
  rw [wire_append]
  exact congrArg _ (List.append_nil _)

theorem advance_writing {T : Task V} {fd total : Nat} {v : V} (h : T.writing = some (fd,v,total))
    (size k : Nat) :
    (T.advance size k).writing = if total+k = size then none else some (fd,v,total+k) := by
  cases T with
  | replying a u n onward =>
    cases h
    simp only [Task.advance]
    split
    · cases onward <;> rfl
    · rfl
  | sending a rest toRemove u n =>
    cases h
    simp only [Task.advance]
    split <;> rfl
  | _ => cases h

theorem send_carries {s : Server V} {t : Thread} {k fd total : Nat} {v : V}
    (ht : (s.tasks t).writing = some (fd,v,total)) (hk : 0 < k)
    (hle : total+k ≤ (valueFrame c v).length) (hclear : s.Clear fd (.send t k)) {data : List Byte}
    {vs : List V} (h : s.Carries c fd data vs) :
    let s' := (s.write fd (((valueFrame c v).drop total).take k)).goto t
      ((s.tasks t).advance (valueFrame c v).length k)
    let data' := data++((valueFrame c v).drop total).take k
    if total+k = (valueFrame c v).length then s'.Carries c fd data' (vs++[v])
    else s'.Carries c fd data' vs := by
  intro s' data'
  have halone : ∀ t' v' n, s.Midway t' fd v' n → t' = t := by
    intro t' v' n hmid
    obtain rfl | hpos := Nat.eq_zero_or_pos total
    · exact absurd hmid (hclear v ht t' v' n)
    · rcases h with ⟨_,hnone⟩ | ⟨t₀,_,_,_,_,_,hunique⟩
      · exact absurd hmid (hnone t' v' n)
      · rw [hunique t' v' n hmid,hunique t v total ⟨ht,hpos⟩]
  have hdata : data = wire c vs++(valueFrame c v).take total := by
    obtain rfl | hpos := Nat.eq_zero_or_pos total
    · rcases h with ⟨hdata,_⟩ | ⟨t₀,v₀,n,hmid,_⟩
      · rw [hdata,List.take_zero,List.append_nil]
      · exact absurd hmid (hclear v ht t₀ v₀ n)
    · rcases h with ⟨_,hnone⟩ | ⟨t₀,v₀,n,hmid,_,hdata,hunique⟩
      · exact absurd ⟨ht,hpos⟩ (hnone t v total)
      · obtain rfl := hunique t v total ⟨ht,hpos⟩
        rw [hmid.1] at ht
        cases ht
        exact hdata
  have hdata' : data' = wire c vs++(valueFrame c v).take (total+k) := by
    show data++_ = _
    rw [hdata,List.append_assoc,List.take_add]
  have hother : ∀ t', t' ≠ t → ∀ v' n, ¬ s'.Midway t' fd v' n := by
    rintro t' hne v' n ⟨hw,hpos⟩
    have htask : s'.tasks t' = s.tasks t' := Function.update_of_ne hne _ _
    exact hne (halone t' v' n ⟨htask ▸ hw,hpos⟩)
  have htask : (s'.tasks t).writing =
      if total+k = (valueFrame c v).length then none else some (fd,v,total+k) := by
    rw [show s'.tasks t = (s.tasks t).advance (valueFrame c v).length k from
      Function.update_self t _ _,advance_writing ht]
  by_cases hlast : total+k = (valueFrame c v).length
  · rw [if_pos hlast] at htask ⊢
    refine .inl ⟨?_,?_⟩
    · rw [hdata',hlast,List.take_length,wire_concat]
    · intro t' v' n hmid
      by_cases hne : t' = t
      · subst hne
        rw [Midway,htask] at hmid
        cases hmid.1
      · exact hother t' hne v' n hmid
  · rw [if_neg hlast] at htask ⊢
    refine .inr ⟨t,v,total+k,⟨htask,by omega⟩,by omega,hdata',?_⟩
    intro t' v' n hmid
    by_contra hne
    exact hother t' hne v' n hmid

theorem send_elsewhere {s : Server V} {t : Thread} {k a fd total : Nat} {v : V}
    (ht : (s.tasks t).writing = some (a,v,total)) (ha : a ≠ fd) (data : List Byte) :
    let s' := (s.write a data).goto t ((s.tasks t).advance (valueFrame c v).length k)
    s'.written fd = s.written fd ∧ ∀ t' u n, s'.Midway t' fd u n ↔ s.Midway t' fd u n := by
  intro s'
  have hold : ∀ u n, ¬ s.Midway t fd u n := by
    rintro u n ⟨hw,_⟩
    rw [ht] at hw
    cases hw
    exact ha rfl
  have hnew : ∀ u n,
      ((s.tasks t).advance (valueFrame c v).length k).writing = some (fd,u,n) → n = 0 := by
    intro u n hw
    rw [advance_writing ht] at hw
    split at hw
    · cases hw
    · cases hw
      exact absurd rfl ha
  exact ⟨Function.update_of_ne (Ne.symm ha) _ _,goto_midway (s := s.write a data) hold hnew⟩

def Completes (c : Protobuf V) (s : Server V) (fd : Nat) (v : V) : Event V → Prop
  | .send t k => ∃ total, (s.tasks t).writing = some (fd,v,total) ∧
      total+k = (valueFrame c v).length
  | _ => False

theorem Step.carries {s s' : Server V} {e : Event V} (h : Step c s e s') {fd : Nat}
    (hclear : s.Clear fd e) :
    ∃ more, s'.written fd = s.written fd++more ∧ ∀ data vs, s.Carries c fd data vs →
      (∀ v, ¬ s.Completes c fd v e) ∧ s'.Carries c fd (data++more) vs ∨
        ∃ v, s.Completes c fd v e ∧ s'.Carries c fd (data++more) (vs++[v]) := by
  cases e with
  | send t k =>
    cases h with
    | @send t k a total v ht hk hle =>
    by_cases ha : a = fd
    · subst ha
      refine ⟨((valueFrame c v).drop total).take k,Function.update_self _ _ _,?_⟩
      intro data vs hdata
      have hcarries := send_carries ht hk hle hclear hdata
      by_cases hlast : total+k = (valueFrame c v).length
      · rw [if_pos hlast] at hcarries
        exact .inr ⟨v,⟨total,ht,hlast⟩,hcarries⟩
      · rw [if_neg hlast] at hcarries
        refine .inl ⟨?_,hcarries⟩
        rintro u ⟨n,hw,hn⟩
        rw [ht] at hw
        cases hw
        exact hlast hn
    · obtain ⟨hwritten,hmid⟩ := send_elsewhere (c := c) (k := k) ht ha
        (((valueFrame c v).drop total).take k)
      refine ⟨[],?_,fun data vs hdata => .inl ⟨?_,?_⟩⟩
      · rw [List.append_nil]
        exact hwritten
      · rintro u ⟨n,hw,_⟩
        rw [ht] at hw
        cases hw
        exact ha rfl
      · simp only [Carries,hmid,List.append_nil]
        exact hdata
  | _ =>
    obtain ⟨hwritten,hmid⟩ := h.written nofun hclear
    refine ⟨[],by rw [hwritten,List.append_nil],fun data vs hdata => .inl ⟨fun v h => h,?_⟩⟩
    simpa only [Carries,hmid,List.append_nil] using hdata

theorem Step.copies {s s' : Server V} {e : Event V} (h : Step c s e s') {t : Thread} {fd n : Nat}
    {v : V} (hw : (s'.tasks t).writing = some (fd,v,n)) :
    v = s.value ∧ (c.serialize v).length < 2^31 ∨
      ∃ n', (s.tasks t).writing = some (fd,v,n') := by
  have hgoto {s₀ : Server V} {t₀ : Thread} {T : Task V} (h₀ : s₀.tasks = s.tasks)
      (hT : ∀ n, T.writing = some (fd,v,n) → v = s.value ∧ (c.serialize v).length < 2^31 ∨
        ∃ n', (s.tasks t₀).writing = some (fd,v,n'))
      (hw : ((s₀.goto t₀ T).tasks t).writing = some (fd,v,n)) :
      v = s.value ∧ (c.serialize v).length < 2^31 ∨
        ∃ n', (s.tasks t).writing = some (fd,v,n') := by
    by_cases ht : t = t₀
    · subst ht
      exact hT n (by simpa [goto] using hw)
    · refine .inr ⟨n,?_⟩
      simpa [goto,Function.update_of_ne ht,h₀] using hw
  cases h with
  | arrive a q => exact .inr ⟨n,hw⟩
  | @serve a q rest ht hq hfree =>
    cases q with
    | unsubscribe => exact .inr ⟨n,hw⟩
    | _ => exact hgoto rfl (fun _ h => by cases h) hw
  | setLocal v ht => exact hgoto rfl (fun _ h => by cases h) hw
  | copyReply ht hsize => exact hgoto rfl (fun _ h => by cases h; exact .inl ⟨rfl,hsize⟩) hw
  | @copyFails t a onward ht hsize =>
    exact hgoto rfl (fun _ h => by cases onward <;> cases h) hw
  | copyNotify ht hsize => exact hgoto rfl (fun _ h => by cases h; exact .inl ⟨rfl,hsize⟩) hw
  | @send t₀ k a total u ht hk hle =>
    refine hgoto rfl (fun n h => .inr ⟨total,?_⟩) hw
    rw [advance_writing ht] at h
    split at h
    · cases h
    · cases h
      exact ht
  | @failReply t a total u onward ht =>
    exact hgoto rfl (fun _ h => by cases onward <;> cases h) hw
  | _ => exact hgoto rfl (fun _ h => by cases h) hw

end Server

end LapCom.Socket.FieldThreads
