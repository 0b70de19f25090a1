import LapCom.DBus.EventSerializer
import LapCom.Machine.Run
import Mathlib.Logic.Function.Basic

set_option autoImplicit false

/-! The fields of a service on D-Bus: their servers share the event loop of one connection, and the
clients are told of `PropertiesChanged` signals. -/

namespace LapCom.DBus.Field
open LapCom.Machine LapCom.Memory

@[ext] structure Property where
  objectPath : String
  interfaceName : String
  propertyName : String
  deriving DecidableEq

namespace PropertySerializer
variable {T : Type} (t : TriviallyCopyable T)

def serialize (data : T) : List Byte := EventSerializer.serialize t data

def deserialize (out : T) (buffer : List Byte) : Except Fault T :=
  EventSerializer.deserialize t out buffer

end PropertySerializer

/-- What a notify callback calls on a value: `NotifyPropertyChanged` of this field or of others. -/
abbrev NotifyCallback (T : Type) := T → List (Property × T)

/-- `stored` is what the getter and the setter of the application read and write. -/
structure DBusFieldServer (T : Type) where
  stored : T
  currentValue : T
  notifyCallback : Option (NotifyCallback T)

structure DBusFieldClient (T : Type) where
  subscribed : Bool
  pending : List (Property × List Byte)
  told : List T

inductive Request where
  | get (c : Nat) (p : Property)
  | set (c : Nat) (p : Property) (buffer : List Byte)

/-- Where the event loop stands: between two requests, before `m_mutex` in a setter, or in it with
the calls that the notify callback has still to make. -/
inductive Loop (T : Type) where
  | idle
  | setting (c : Nat) (p : Property) (value : T)
  | reacting (c : Nat) (p : Property) (calls : List (Property × T))

def Loop.holds {T : Type} : Loop T → Option Property
  | .reacting _ p _ => some p
  | _ => none

structure System (T : Type) where
  fields : Property → DBusFieldServer T
  requests : List Request
  loop : Loop T
  answers : List (Nat × List Byte)
  clients : Nat → DBusFieldClient T

/-- `sent` is false where D-Bus fails to emit a signal. -/
inductive Event (T : Type) where
  | assign (p : Property) (value : T)
  | setNotifyCallback (p : Property) (callback : NotifyCallback T)
  | notifyPropertyChanged (p : Property) (newValue : T) (sent : Bool)
  | get (c : Nat)
  | set (c : Nat) (value : T)
  | subscribeNotification (c : Nat)
  | unsubscribeNotification (c : Nat)
  | eventLoop (sent : Bool)
  | deliver (c : Nat)

def Event.isLoop {T : Type} : Event T → Bool
  | .eventLoop _ => true
  | _ => false

section Model
variable {T : Type} (t : TriviallyCopyable T) (zero : T) (watch : Nat → Property)

def hear (w : Property) (signal : Property × List Byte) : Option T :=
  if signal.1.interfaceName = w.interfaceName ∧ signal.1.propertyName = w.propertyName then
    match PropertySerializer.deserialize t zero signal.2 with
    | .error _ => none
    | .ok value => some value
  else none

namespace System

/-- Outside of a step a mutex is held by a setter only. -/
def Locked (s : System T) (p : Property) : Prop := s.loop.holds = some p

instance (s : System T) (p : Property) : Decidable (s.Locked p) :=
  inferInstanceAs (Decidable (_ = _))

def setField (s : System T) (p : Property) (f : DBusFieldServer T) : System T :=
  { s with fields := Function.update s.fields p f }

def setClient (s : System T) (c : Nat) (x : DBusFieldClient T) : System T :=
  { s with clients := Function.update s.clients c x }

def emitSignal (s : System T) (p : Property) (buffer : List Byte) : System T :=
  { s with
    clients := fun c =>
      if (s.clients c).subscribed = true ∧ (watch c).objectPath = p.objectPath then
        { s.clients c with pending := (s.clients c).pending ++ [(p,buffer)] }
      else s.clients c }

def notify (s : System T) (p : Property) (newValue : T) (sent : Bool) : System T :=
  let s := s.setField p { s.fields p with currentValue := newValue }
  if sent then s.emitSignal watch p (PropertySerializer.serialize t newValue) else s

def handle (s : System T) : Request → System T
  | .get c p =>
    { s with answers := s.answers ++ [(c,PropertySerializer.serialize t (s.fields p).stored)] }
  | .set c p buffer =>
    match PropertySerializer.deserialize t zero buffer with
    | .error _ => s
    | .ok value =>
      { s.setField p { s.fields p with stored := value } with loop := .setting c p value }

def reactions (s : System T) (p : Property) (value : T) : List (Property × T) :=
  match (s.fields p).notifyCallback with
  | none => []
  | some callback => callback value

def eventLoop (s : System T) (sent : Bool) : System T :=
  match s.loop with
  | .idle =>
    match s.requests with
    | [] => s
    | request :: requests => { s with requests := requests }.handle t zero request
  | .setting c p value =>
    { s.setField p { s.fields p with currentValue := value } with
      loop := .reacting c p (s.reactions p value) }
  | .reacting c _ [] => { s with loop := .idle, answers := s.answers ++ [(c,[])] }
  | .reacting c p ((q,v) :: calls) =>
    if s.Locked q then s else { s.notify t watch q v sent with loop := .reacting c p calls }

def deliver (s : System T) (c : Nat) : System T :=
  match (s.clients c).pending with
  | [] => s
  | signal :: pending =>
    s.setClient c { s.clients c with
      pending := pending
      told := (s.clients c).told ++ (hear t zero (watch c) signal).toList }

def step (s : System T) : Event T → System T
  | .assign p value => s.setField p { s.fields p with stored := value }
  | .setNotifyCallback p callback =>
    s.setField p { s.fields p with notifyCallback := some callback }
  | .notifyPropertyChanged p newValue sent =>
    if s.Locked p then s else s.notify t watch p newValue sent
  | .get c => { s with requests := s.requests ++ [.get c (watch c)] }
  | .set c value =>
    { s with requests := s.requests ++ [.set c (watch c) (PropertySerializer.serialize t value)] }
  | .subscribeNotification c => s.setClient c { s.clients c with subscribed := true }
  | .unsubscribeNotification c =>
    s.setClient c { s.clients c with subscribed := false, pending := [] }
  | .eventLoop sent => s.eventLoop t zero watch sent
  | .deliver c => s.deliver t zero watch c

end System

theorem step_frame (s : System T) {e : Event T} (h : e.isLoop = false) :
    (s.step t zero watch e).loop = s.loop ∧ (s.step t zero watch e).answers = s.answers := by
  have hemit : ∀ (s : System T) q v sent, (s.notify t watch q v sent).loop = s.loop ∧
      (s.notify t watch q v sent).answers = s.answers := by
    intro s q v sent
    cases sent <;> exact ⟨rfl,rfl⟩
  cases e with
  | eventLoop sent => cases h
  | notifyPropertyChanged q v sent =>
    simp only [System.step]
    split
    · exact ⟨rfl,rfl⟩
    · exact hemit s q v sent
  | deliver c =>
    simp only [System.step,System.deliver]
    split
    · exact ⟨rfl,rfl⟩
    · exact ⟨rfl,rfl⟩
  | assign q value => exact ⟨rfl,rfl⟩
  | setNotifyCallback q callback => exact ⟨rfl,rfl⟩
  | get c => exact ⟨rfl,rfl⟩
  | set c value => exact ⟨rfl,rfl⟩
  | subscribeNotification c => exact ⟨rfl,rfl⟩
  | unsubscribeNotification c => exact ⟨rfl,rfl⟩

section Told

/-- What the client has been told, and what it is going to be told of the signals on their way. -/
def heard (c : Nat) (s : System T) : List T :=
  (s.clients c).told ++ (s.clients c).pending.filterMap (hear t zero (watch c))

/-- The notifications of the field that a step sends. The event loop sends none for the field that
it sets. -/
def notified (p : Property) (s : System T) : Event T → List T
  | .notifyPropertyChanged q newValue sent =>
    if q = p ∧ sent = true ∧ ¬ s.Locked q then [newValue] else []
  | .eventLoop sent =>
    match s.loop with
    | .reacting _ o ((q,v) :: _) => if q = p ∧ sent = true ∧ q ≠ o then [v] else []
    | _ => []
  | _ => []

variable {t zero watch} {s : System T} {c : Nat}

theorem hear_serialize (w p : Property) (v : T) :
    hear t zero w (p,PropertySerializer.serialize t v) =
      if p.interfaceName = w.interfaceName ∧ p.propertyName = w.propertyName then some v
      else none := by
  unfold hear
  rw [PropertySerializer.deserialize,PropertySerializer.serialize,EventSerializer.deserialize_eq]

theorem heard_congr {s' : System T} (h : s'.clients c = s.clients c) :
    heard t zero watch c s' = heard t zero watch c s := by rw [heard,h,heard]

theorem notify_heard (hsub : (s.clients c).subscribed = true) (p : Property) (v : T) (sent : Bool) :
    ((s.notify t watch p v sent).clients c).subscribed = true ∧
      heard t zero watch c (s.notify t watch p v sent) =
        heard t zero watch c s ++ if p = watch c ∧ sent = true then [v] else [] := by
  cases sent with
  | false => exact ⟨hsub,by simp [heard,System.notify,System.setField]⟩
  | true =>
    by_cases hpath : (watch c).objectPath = p.objectPath
    · have hsame : (p.interfaceName = (watch c).interfaceName ∧
          p.propertyName = (watch c).propertyName) ↔ p = watch c :=
        ⟨fun h => Property.ext hpath.symm h.1 h.2,fun h => by rw [h]; exact ⟨rfl,rfl⟩⟩
      have hsignal : (((s.notify t watch p v true).clients c)) = { s.clients c with
          pending := (s.clients c).pending ++ [(p,PropertySerializer.serialize t v)] } :=
        if_pos ⟨hsub,hpath⟩
      rw [heard,hsignal,heard,List.filterMap_append,List.append_assoc]
      refine ⟨hsub,congrArg _ (congrArg _ ?_)⟩
      rw [List.filterMap_cons,List.filterMap_nil,hear_serialize,if_congr hsame rfl rfl]
      by_cases hp : p = watch c
      · simp [hp]
      · simp [hp]
    · have hne : p ≠ watch c := fun h => hpath (by rw [h])
      have hsame : (s.notify t watch p v true).clients c = s.clients c :=
        if_neg fun h => hpath h.2
      rw [heard_congr hsame,hsame,if_neg fun h => hne h.1]
      exact ⟨hsub,(List.append_nil _).symm⟩

variable (t zero watch) in
theorem deliver_heard (c' : Nat) (s : System T) :
    ((s.deliver t zero watch c').clients c).subscribed = (s.clients c).subscribed ∧
      heard t zero watch c (s.deliver t zero watch c') = heard t zero watch c s := by
  unfold System.deliver
  cases hpending : (s.clients c').pending with
  | nil => exact ⟨rfl,rfl⟩
  | cons signal pending =>
    by_cases hc : c = c'
    · subst hc
      simp only [System.setClient,heard,Function.update_self,hpending,List.filterMap_cons,
        List.append_assoc,true_and]
      cases hear t zero (watch c) signal <;> rfl
    · have hsame : (s.setClient c' { s.clients c' with
          pending := pending
          told := (s.clients c').told ++ (hear t zero (watch c') signal).toList }).clients c =
            s.clients c := Function.update_of_ne hc _ _
      exact ⟨by rw [hsame],heard_congr hsame⟩

theorem step_heard (hsub : (s.clients c).subscribed = true) {e : Event T}
    (he : e ≠ .unsubscribeNotification c) :
    ((s.step t zero watch e).clients c).subscribed = true ∧
      heard t zero watch c (s.step t zero watch e) =
        heard t zero watch c s ++ notified (watch c) s e := by
  have hsame : ∀ s' : System T, s'.clients c = s.clients c →
      (s'.clients c).subscribed = true ∧
        heard t zero watch c s' = heard t zero watch c s ++ [] := by
    intro s' h
    exact ⟨by rw [h]; exact hsub,by rw [heard_congr h,List.append_nil]⟩
  cases e with
  | assign p value => exact hsame _ rfl
  | setNotifyCallback p callback => exact hsame _ rfl
  | get c' => exact hsame _ rfl
  | set c' value => exact hsame _ rfl
  | notifyPropertyChanged p v sent =>
    simp only [System.step,notified]
    by_cases hlocked : s.Locked p
    · rw [if_pos hlocked,if_neg fun h => h.2.2 hlocked]
      exact hsame _ rfl
    · rw [if_neg hlocked,if_congr (and_congr_right fun _ => and_iff_left hlocked) rfl rfl]
      exact notify_heard hsub p v sent
  | subscribeNotification c' =>
    by_cases hc : c = c'
    · subst hc
      refine ⟨by simp [System.step,System.setClient],?_⟩
      simp [System.step,System.setClient,heard,notified]
    · exact hsame _ (Function.update_of_ne hc _ _)
  | unsubscribeNotification c' =>
    have hc : c ≠ c' := fun h => he (by rw [h])
    exact hsame _ (Function.update_of_ne hc _ _)
  | deliver c' =>
    obtain ⟨hs,hh⟩ := deliver_heard t zero watch (c := c) c' s
    exact ⟨hs.trans hsub,hh.trans (List.append_nil _).symm⟩
  | eventLoop sent =>
    simp only [System.step,System.eventLoop,notified]
    cases hloop : s.loop with
    | idle =>
      cases hrequests : s.requests with
      | nil => exact hsame _ rfl
      | cons request requests =>
        refine hsame _ ?_
        cases request with
        | get c' p => rfl
        | set c' p buffer =>
          simp only [System.handle]
          split
          · rfl
          · rfl
    | setting c' p value => exact hsame _ rfl
    | reacting c' p calls =>
      cases calls with
      | nil => exact hsame _ rfl
      | cons call calls =>
        obtain ⟨q,v⟩ := call
        have hlocked : s.Locked q ↔ q = p := by
          rw [System.Locked,hloop]
          exact Option.some_inj.trans eq_comm
        dsimp only
        by_cases hq : q = p
        · rw [if_pos (hlocked.mpr hq),if_neg fun h => h.2.2 hq]
          exact hsame _ rfl
        · rw [if_neg (mt hlocked.mp hq),
            if_congr (and_congr_right fun _ => and_iff_left hq) rfl rfl]
          exact notify_heard hsub q v sent

/-- A subscriber is told of the notifications of its field in their order, each of them once, and of
nothing else. -/
theorem notifications_told (s : System T) (c : Nat) (σ : Nat → Event T) (n : Nat)
    (hsub : (s.clients c).subscribed = true)
    (hstays : ∀ k, k < n → σ k ≠ .unsubscribeNotification c) :
    heard t zero watch c (stateAt (System.step t zero watch) s σ n) =
      heard t zero watch c s ++ emitted (notified (watch c)) (System.step t zero watch) s σ n :=
  log_emitted (I := fun s => (s.clients c).subscribed = true) hsub hstays
    fun _ _ hsub he => step_heard hsub he

def NotifyCallback.Spares (p : Property) (callback : NotifyCallback T) : Prop :=
  ∀ value v, (p,v) ∉ callback value

/-- Neither a thread of the application nor the callback of another field notifies the field. -/
def Event.Spares (p : Property) : Event T → Prop
  | .notifyPropertyChanged q _ _ => q ≠ p
  | .setNotifyCallback o callback => o ≠ p → callback.Spares p
  | _ => True

structure Spared (p : Property) (s : System T) : Prop where
  callbacks : ∀ o callback, (s.fields o).notifyCallback = some callback → o ≠ p → callback.Spares p
  calls : ∀ c o calls, s.loop = .reacting c o calls → o ≠ p → ∀ v, (p,v) ∉ calls

variable {p : Property}

theorem Spared.of_callbacks {s' : System T} (h : Spared p s)
    (hfields : ∀ o, (s'.fields o).notifyCallback = (s.fields o).notifyCallback)
    (hcalls : ∀ c o calls, s'.loop = .reacting c o calls → o ≠ p → ∀ v, (p,v) ∉ calls) :
    Spared p s' :=
  ⟨fun o callback ho => h.callbacks o callback ((hfields o).symm.trans ho),hcalls⟩

theorem setField_callbacks (s : System T) (p : Property) (f : DBusFieldServer T)
    (hf : f.notifyCallback = (s.fields p).notifyCallback) (o : Property) :
    ((s.setField p f).fields o).notifyCallback = (s.fields o).notifyCallback := by
  by_cases ho : o = p
  · subst ho
    rw [System.setField]
    simpa using hf
  · exact congrArg _ (Function.update_of_ne ho _ _)

theorem notify_callbacks (s : System T) (q : Property) (v : T) (sent : Bool) (o : Property) :
    ((s.notify t watch q v sent).fields o).notifyCallback = (s.fields o).notifyCallback := by
  have h := setField_callbacks s q { s.fields q with currentValue := v } rfl o
  cases sent with
  | false => exact h
  | true => exact h

theorem Spared.reactions (h : Spared p s) {o : Property} (ho : o ≠ p) (value v : T) :
    (p,v) ∉ s.reactions o value := by
  unfold System.reactions
  cases hcallback : (s.fields o).notifyCallback with
  | none => exact List.not_mem_nil
  | some callback => exact h.callbacks o callback hcallback ho value v

/-- Where the field is spared, nothing is sent for it: a call by its own callback never returns. -/
theorem Spared.notified (h : Spared p s) {e : Event T} (he : e.Spares p) :
    Field.notified p s e = [] := by
  cases e with
  | notifyPropertyChanged q v sent => exact if_neg fun hq => he hq.1
  | eventLoop sent =>
    simp only [Field.notified]
    cases hloop : s.loop with
    | reacting c o calls =>
      cases calls with
      | nil => rfl
      | cons call calls =>
        refine if_neg fun hq => ?_
        obtain ⟨rfl,_,ho⟩ := hq
        exact h.calls c o _ hloop (fun heq => ho heq.symm) call.2 List.mem_cons_self
    | _ => rfl
  | _ => rfl

theorem Spared.step (h : Spared p s) {e : Event T} (he : e.Spares p) :
    Spared p (s.step t zero watch e) := by
  cases e with
  | assign q value => exact h.of_callbacks (setField_callbacks s q _ rfl) h.calls
  | setNotifyCallback q callback =>
    refine ⟨fun o callback' ho hne => ?_,h.calls⟩
    by_cases hq : o = q
    · subst hq
      simp only [System.step,System.setField,Function.update_self] at ho
      cases ho
      exact he hne
    · refine h.callbacks o callback' ?_ hne
      rw [← ho]
      simp only [System.step,System.setField,Function.update_of_ne hq]
  | notifyPropertyChanged q v sent =>
    obtain ⟨hloop,_⟩ := step_frame t zero watch s (e := .notifyPropertyChanged q v sent) rfl
    refine h.of_callbacks (fun o => ?_) (by rw [hloop]; exact h.calls)
    simp only [System.step]
    split
    · rfl
    · exact notify_callbacks s q v sent o
  | deliver c =>
    obtain ⟨hloop,_⟩ := step_frame t zero watch s (e := .deliver c) rfl
    refine h.of_callbacks (fun o => ?_) (by rw [hloop]; exact h.calls)
    simp only [System.step,System.deliver]
    split
    · rfl
    · rfl
  | get c => exact h.of_callbacks (fun _ => rfl) h.calls
  | set c value => exact h.of_callbacks (fun _ => rfl) h.calls
  | subscribeNotification c => exact h.of_callbacks (fun _ => rfl) h.calls
  | unsubscribeNotification c => exact h.of_callbacks (fun _ => rfl) h.calls
  | eventLoop sent =>
    simp only [System.step,System.eventLoop]
    cases hloop : s.loop with
    | idle =>
      cases hrequests : s.requests with
      | nil => exact h
      | cons request requests =>
        cases request with
        | get c q => exact h.of_callbacks (fun _ => rfl) nofun
        | set c q buffer =>
          simp only [System.handle]
          split
          · exact h.of_callbacks (fun _ => rfl) nofun
          · exact h.of_callbacks (setField_callbacks s q _ rfl) nofun
    | setting c q value =>
      refine h.of_callbacks (setField_callbacks s q _ rfl) fun c' o calls hl ho v => ?_
      cases hl
      exact h.reactions ho value v
    | reacting c q calls =>
      cases calls with
      | nil => exact h.of_callbacks (fun _ => rfl) nofun
      | cons call calls =>
        dsimp only
        split
        · exact h
        · refine h.of_callbacks (notify_callbacks s call.1 call.2 sent) ?_
          intro c' o calls' hl ho v hv
          cases hl
          exact h.calls _ _ _ hloop ho v (List.mem_cons_of_mem _ hv)

/-- A `Set` is told to no subscriber: where the application notifies the field from its own notify
callback only, nobody is ever told anything, whatever that callback calls. -/
theorem sets_untold (s : System T) (c : Nat) (σ : Nat → Event T) (n : Nat)
    (hsub : (s.clients c).subscribed = true)
    (hstays : ∀ k, k < n → σ k ≠ .unsubscribeNotification c) (hspared : Spared (watch c) s)
    (hspares : ∀ k, k < n → (σ k).Spares (watch c)) :
    heard t zero watch c (stateAt (System.step t zero watch) s σ n) = heard t zero watch c s := by
  have hinv : ∀ k, k ≤ n → Spared (watch c) (stateAt (System.step t zero watch) s σ k) :=
    stateAt_invariant (C := fun _ e => e.Spares (watch c)) hspared hspares fun _ _ h he => h.step he
  have hnone : ∀ k, k ≤ n →
      emitted (Field.notified (watch c)) (System.step t zero watch) s σ k = [] := by
    intro k
    induction k with
    | zero => intro _; rfl
    | succ k ih =>
      intro hk
      rw [emitted,ih (by omega),(hinv k (by omega)).notified (hspares k (by omega)),List.append_nil]
  rw [notifications_told s c σ n hsub hstays,hnone n (Nat.le_refl n),List.append_nil]

end Told

section Answers
variable {t zero watch} {s : System T} {c : Nat} {p : Property} {calls : List (Property × T)}

variable (t zero watch) in
theorem reacting_cases (hloop : s.loop = .reacting c p calls) (sent : Bool) :
    (calls = [] ∧ (s.eventLoop t zero watch sent).loop = .idle ∧
      (s.eventLoop t zero watch sent).answers = s.answers ++ [(c,[])]) ∨
    (∃ q v rest, calls = (q,v) :: rest ∧ q ≠ p ∧
      (s.eventLoop t zero watch sent).loop = .reacting c p rest ∧
      (s.eventLoop t zero watch sent).answers = s.answers) ∨
    ∃ v rest, calls = (p,v) :: rest ∧ s.eventLoop t zero watch sent = s := by
  unfold System.eventLoop
  rw [hloop]
  cases calls with
  | nil => exact .inl ⟨rfl,rfl,rfl⟩
  | cons call rest =>
    obtain ⟨q,v⟩ := call
    have hlocked : s.Locked q ↔ p = q := by
      rw [System.Locked,hloop]
      exact Option.some_inj
    by_cases hq : p = q
    · subst hq
      exact .inr (.inr ⟨v,rest,rfl,if_pos (hlocked.mpr rfl)⟩)
    · simp only [if_neg (mt hlocked.mp hq)]
      refine .inr (.inl ⟨q,v,rest,rfl,fun h => hq h.symm,rfl,?_⟩)
      cases sent <;> rfl

def Answered (s s' : System T) (c : Nat) : Prop :=
  s'.loop = .idle ∧ s'.answers = s.answers ++ [(c,[])]

def Pending (s s' : System T) (c : Nat) (p : Property) (calls : List (Property × T)) : Prop :=
  s'.loop = .reacting c p calls ∧ s'.answers = s.answers

variable (t zero watch) in
theorem pending_step {s' : System T} (h : Pending s s' c p calls) (e : Event T) :
    Pending s (s'.step t zero watch e) c p calls ∧
        (e.isLoop = true → ∃ v rest, calls = (p,v) :: rest) ∨
    e.isLoop = true ∧ (calls = [] ∧ Answered s (s'.step t zero watch e) c ∨
      ∃ q v rest, calls = (q,v) :: rest ∧ q ≠ p ∧ Pending s (s'.step t zero watch e) c p rest) := by
  obtain ⟨hloop,hanswers⟩ := h
  cases he : e.isLoop with
  | false =>
    obtain ⟨hl,ha⟩ := step_frame t zero watch s' he
    exact .inl ⟨⟨hl.trans hloop,ha.trans hanswers⟩,nofun⟩
  | true =>
    cases e with
    | eventLoop sent =>
      rcases reacting_cases t zero watch hloop sent with
        ⟨hnil,hidle,ha⟩ | ⟨q,v,rest,hcalls,hq,hl,ha⟩ | ⟨v,rest,hcalls,hsame⟩
      · exact .inr ⟨rfl,.inl ⟨hnil,hidle,by rw [← hanswers]; exact ha⟩⟩
      · exact .inr ⟨rfl,.inr ⟨q,v,rest,hcalls,hq,hl,ha.trans hanswers⟩⟩
      · have hpending : Pending s (s'.step t zero watch (.eventLoop sent)) c p calls := by
          rw [System.step,hsame]
          exact ⟨hloop,hanswers⟩
        exact .inl ⟨hpending,fun _ => ⟨v,rest,hcalls⟩⟩
    | _ => cases he

theorem pending_forever {s' : System T} (h : Pending s s' c p calls) (hown : ∃ v, (p,v) ∈ calls)
    (σ : Nat → Event T) (k : Nat) :
    ∃ calls', Pending s (stateAt (System.step t zero watch) s' σ k) c p calls' := by
  have hinv : ∃ calls, Pending s (stateAt (System.step t zero watch) s' σ k) c p calls ∧
      ∃ v, (p,v) ∈ calls := by
    refine stateAt_invariant (C := fun _ _ => True)
      (I := fun s' => ∃ calls, Pending s s' c p calls ∧ ∃ v, (p,v) ∈ calls) ⟨calls,h,hown⟩
      (fun _ _ => trivial) ?_ k (Nat.le_refl k)
    rintro s' e ⟨calls,h,v,hv⟩ -
    rcases pending_step t zero watch h e with
      ⟨hsame,_⟩ | ⟨_,⟨rfl,_⟩ | ⟨q,u,rest,rfl,hq,hnext⟩⟩
    · exact ⟨calls,hsame,v,hv⟩
    · cases hv
    · rcases List.mem_cons.mp hv with heq | hrest
      · exact absurd (Prod.mk.inj heq).1.symm hq
      · exact ⟨rest,hnext,v,hrest⟩
  obtain ⟨calls,h,_⟩ := hinv
  exact ⟨calls,h⟩

def Loop.remaining : Loop T → Nat
  | .reacting _ _ calls => calls.length+1
  | _ => 0

theorem pending_answered {s' : System T} (h : Pending s s' c p calls)
    (hfree : ∀ q v, (q,v) ∈ calls → q ≠ p) (σ : Nat → Event T) {n : Nat}
    (henough : calls.length < Nat.count (fun k => (σ k).isLoop = true) n) :
    ∃ k, k ≤ n ∧ Answered s (stateAt (System.step t zero watch) s' σ k) c := by
  have hinv : ∀ k, (∃ j, j ≤ k ∧ Answered s (stateAt (System.step t zero watch) s' σ j) c) ∨
      ∃ calls, Pending s (stateAt (System.step t zero watch) s' σ k) c p calls ∧
        ∀ q v, (q,v) ∈ calls → q ≠ p := by
    intro k
    induction k with
    | zero => exact .inr ⟨calls,h,hfree⟩
    | succ k ih =>
      rcases ih with ⟨j,hj,ha⟩ | ⟨calls,hp,hfree⟩
      · exact .inl ⟨j,by omega,ha⟩
      · rcases pending_step t zero watch hp (σ k) with
          ⟨hsame,_⟩ | ⟨_,⟨_,ha⟩ | ⟨q,v,rest,rfl,_,hnext⟩⟩
        · exact .inr ⟨calls,hsame,hfree⟩
        · exact .inl ⟨k+1,Nat.le_refl _,ha⟩
        · exact .inr ⟨rest,hnext,fun q v hv => hfree q v (List.mem_cons_of_mem _ hv)⟩
  have hrank : ∀ k, (stateAt (System.step t zero watch) s' σ k).loop.remaining = 0 →
      ∃ j, j ≤ k ∧ Answered s (stateAt (System.step t zero watch) s' σ j) c := by
    intro k hzero
    refine (hinv k).resolve_right ?_
    rintro ⟨calls,hp,_⟩
    rw [hp.1] at hzero
    cases hzero
  have hstep : ∀ k, ¬ (∃ j, j ≤ k ∧ Answered s (stateAt (System.step t zero watch) s' σ j) c) →
      (∃ j, j ≤ k+1 ∧ Answered s (stateAt (System.step t zero watch) s' σ j) c) ∨
        (stateAt (System.step t zero watch) s' σ (k+1)).loop.remaining+
          (if (σ k).isLoop = true then 1 else 0) ≤
            (stateAt (System.step t zero watch) s' σ k).loop.remaining := by
    intro k hno
    obtain ⟨calls,hp,hfree⟩ := (hinv k).resolve_left hno
    rcases pending_step t zero watch hp (σ k) with
      ⟨hsame,hstuck⟩ | ⟨hl,⟨_,ha⟩ | ⟨q,v,rest,rfl,_,hnext⟩⟩
    · have hl : ¬ (σ k).isLoop = true := by
        intro hl
        obtain ⟨v,rest,rfl⟩ := hstuck hl
        exact hfree p v List.mem_cons_self rfl
      rw [if_neg hl,stateAt_succ,hsame.1,hp.1]
      exact .inr (Nat.le_refl _)
    · exact .inl ⟨k+1,Nat.le_refl _,ha⟩
    · rw [if_pos hl,stateAt_succ,hnext.1,hp.1]
      exact .inr (Nat.le_refl _)
  have hcount : Nat.count (fun k => (σ k).isLoop = true) 0+s'.loop.remaining ≤
      Nat.count (fun k => (σ k).isLoop = true) n := by
    rw [Nat.count_zero,h.1,Loop.remaining]
    omega
  obtain ⟨k,_,hkn,j,hj,ha⟩ := reaches_of_rank (Nat.zero_le n) (fun k _ _ => hrank k)
    (fun k _ _ => hstep k) hcount
  exact ⟨j,by omega,ha⟩

end Answers

/-- A `Set` whose value the application has stored is answered, once the event loop has taken the
steps for it, just where the notify callback of the field makes no `NotifyPropertyChanged` of its
own field. Where it makes one, no request is answered ever after, in any order of events. -/
theorem set_answered_iff (s : System T) (c : Nat) (p : Property) (value : T) (σ : Nat → Event T)
    (n : Nat) (hset : s.loop = .setting c p value) (hlock : (σ 0).isLoop = true)
    (henough : (s.reactions p value).length+2 ≤ Nat.count (fun k => (σ k).isLoop = true) n) :
    ((∃ k, k ≤ n ∧ Answered s (stateAt (System.step t zero watch) s σ k) c) ↔
        ∀ q v, (q,v) ∈ s.reactions p value → q ≠ p) ∧
      ((∃ v, (p,v) ∈ s.reactions p value) →
        ∀ k, (stateAt (System.step t zero watch) s σ k).answers = s.answers) := by
  have hfirst : Pending s (stateAt (System.step t zero watch) s σ 1) c p (s.reactions p value) := by
    rw [stateAt_succ,stateAt_zero]
    cases he : σ 0 with
    | eventLoop sent =>
      rw [System.step,System.eventLoop]
      simp only [hset]
      exact ⟨rfl,rfl⟩
    | _ => rw [he] at hlock; cases hlock
  have hrun : ∀ k, stateAt (System.step t zero watch) s σ (1+k) =
      stateAt (System.step t zero watch) (stateAt (System.step t zero watch) s σ 1)
        (fun j => σ (1+j)) k := fun k => stateAt_add _ _ _ 1 k
  have hnever : (∃ v, (p,v) ∈ s.reactions p value) → ∀ k,
      (stateAt (System.step t zero watch) s σ k).answers = s.answers := by
    intro hown k
    cases k with
    | zero => rfl
    | succ k =>
      obtain ⟨calls,hp⟩ := pending_forever hfirst hown (fun j => σ (1+j)) k
      rw [Nat.add_comm k 1,hrun]
      exact hp.2
  refine ⟨⟨?_,fun hfree => ?_⟩,hnever⟩
  · rintro ⟨k,_,_,ha⟩ q v hv rfl
    rw [hnever ⟨v,hv⟩ k] at ha
    simp at ha
  · have hn : 0 < n := by
      rcases Nat.eq_zero_or_pos n with rfl | hn
      · simp at henough
      · exact hn
    obtain ⟨m,rfl⟩ := Nat.exists_eq_add_of_le' hn
    have hcount : (s.reactions p value).length <
        Nat.count (fun k => (σ (1+k)).isLoop = true) m := by
      rw [Nat.add_comm m 1,Nat.count_add] at henough
      simp only [Nat.count_succ,Nat.count_zero,hlock,if_true] at henough
      omega
    obtain ⟨k,hk,ha⟩ := pending_answered hfirst hfree (fun j => σ (1+j)) hcount
    exact ⟨1+k,by omega,by rw [hrun]; exact ha⟩

end Model

section Vehicle

def speed : Property := ⟨"/vehicle","com.example.Vehicle","Speed"⟩

/-- A field with a client that has subscribed, whose notify callback notifies it. -/
def vehicle : System (BitVec 32) where
  fields p := ⟨0,0,if p = speed then some fun value => [(speed,value)] else none⟩
  requests := []
  loop := .idle
  answers := []
  clients _ := ⟨true,[],[]⟩

def bytes : TriviallyCopyable (BitVec 32) := EventSerializer.littleEndian.uint32

def speedStep : System (BitVec 32) → Event (BitVec 32) → System (BitVec 32) :=
  System.step bytes 0 fun _ => speed

def notifyRun : Nat → Event (BitVec 32) :=
  schedule [.notifyPropertyChanged speed 7 true] (.deliver 1)

def setRun : Nat → Event (BitVec 32) := schedule [.set 0 9] (.eventLoop true)

theorem notifyRun_stays (k : Nat) : notifyRun k ≠ .unsubscribeNotification 1 := by
  refine schedule_forall (E := Event (BitVec 32)) (Q := fun e => e ≠ .unsubscribeNotification 1)
    ?_ ?_ k
  · simp
  · exact nofun

theorem setRun_stays (k : Nat) :
    setRun k ≠ .unsubscribeNotification 1 ∧ (setRun k).Spares speed := by
  refine schedule_forall (E := Event (BitVec 32))
    (Q := fun e => e ≠ .unsubscribeNotification 1 ∧ e.Spares speed) ?_ ?_ k
  · simp [Event.Spares]
  · exact ⟨nofun,trivial⟩

theorem notifications_told_vehicle :
    heard bytes 0 (fun _ => speed) 1 (stateAt speedStep vehicle notifyRun 2) = [7] :=
  notifications_told (t := bytes) vehicle 1 notifyRun 2 rfl fun k _ => notifyRun_stays k

theorem sets_untold_vehicle :
    heard bytes 0 (fun _ => speed) 1 (stateAt speedStep vehicle setRun 4) = [] :=
  sets_untold (t := bytes) vehicle 1 setRun 4 rfl (fun k _ => (setRun_stays k).1)
    ⟨fun o callback ho hne => by simp [vehicle,hne] at ho,nofun⟩ fun k _ => (setRun_stays k).2

theorem set_answered_iff_vehicle : (stateAt speedStep { vehicle with loop := .setting 0 speed 9 }
    (fun _ => .eventLoop true) 9).answers = [] :=
  (set_answered_iff bytes 0 (fun _ => speed) { vehicle with loop := .setting 0 speed 9 } 0 speed 9
    (fun _ => .eventLoop true) 9 rfl rfl (by decide)).2 ⟨9,by decide⟩ 9

end Vehicle

end LapCom.DBus.Field
