import LapCom.Socket.FieldDescriptors

set_option autoImplicit false

namespace LapCom.Socket.FieldDescriptors
open LapCom.Kernel LapCom.Machine

def Notice.Clean : Notice → Prop
  | .waiting => True
  | .sending _ toRemove => toRemove = []
  | .removing toRemove => toRemove = []
  | .erasing _ _ => False

namespace Client

def Serving : Client → Prop
  | .absent => False
  | .closing => False
  | .ended => False
  | _ => True

def Live : Client → Prop
  | .absent => False
  | .ended => False
  | _ => True

def Clean : Client → Prop
  | .notifying n => n.Clean
  | _ => True

theorem Serving.live {T : Client} (h : T.Serving) : T.Live := by
  cases T <;> trivial

theorem Live.ne_absent {T : Client} (h : T.Live) : T ≠ .absent := by
  rintro rfl
  exact h

theorem live_cases (T : Client) : T.Live ∨ T = .absent ∨ T = .ended := by
  cases T <;> simp [Live]

end Client

theorem nextNotice_clean (rest : List Nat) : (nextNotice rest []).Clean := by
  cases rest <;> rfl

theorem Header.next_serving (r : Header) : r.next.Serving ∧ r.next.Clean := by
  cases r <;> exact ⟨trivial,trivial⟩

theorem Body.next_serving (r : Body) : r.next.Serving ∧ r.next.Clean := by
  cases r <;> exact ⟨trivial,trivial⟩

theorem afterSend_serving (onward : Bool) :
    (afterSend onward).Serving ∧ (afterSend onward).Clean := by
  cases onward <;> exact ⟨trivial,trivial⟩

def Acceptor.connection : Acceptor → Option Nat
  | .checking cli => cli
  | .starting x => some x
  | _ => none

def Stopper.AcceptorJoined : Stopper → Prop
  | .joiningClients => True
  | .locking => True
  | .closing _ => True
  | .done => True
  | _ => False

def Stopper.ClientsJoined : Stopper → Prop
  | .locking => True
  | .closing _ => True
  | .done => True
  | _ => False

theorem Stopper.ClientsJoined.acceptor {T : Stopper} (h : T.ClientsJoined) :
    T.AcceptorJoined := by
  cases T <;> trivial

namespace Server

structure Owned (s : Server) : Prop where
  valid : s.descriptors.Valid
  server : ∀ fd, s.serverFd = some fd → s.descriptors.owner fd = none
  pending : ∀ x, s.acceptor.connection = some x →
    s.clients x = .absent ∧ s.descriptors.owner (s.numbers x) = some x
  absent : ∀ x, x < s.descriptors.accepted → s.clients x = .absent →
    s.acceptor.connection = some x
  live : ∀ x, (s.clients x).Live → s.descriptors.owner (s.numbers x) = some x
  ended : ∀ x, s.clients x = .ended → s.descriptors.closes x = 1
  subscribed : ∀ fd, fd ∈ s.subscribers.fds → ∃ x, s.numbers x = fd ∧ (s.clients x).Serving
  clientsClean : ∀ x, (s.clients x).Clean
  settersClean : ∀ i n, s.setters i = some n → n.Clean
  acceptorJoined : s.stopper.AcceptorJoined → s.acceptor = .ended
  clientsJoined : s.stopper.ClientsJoined → ∀ x, ¬ (s.clients x).Live
  closing : ∀ rest, s.stopper = .closing rest → rest = []

theorem goto_clients_self (s : Server) (x : Nat) (T : Client) : (s.goto x T).clients x = T :=
  Function.update_self _ _ _

theorem goto_clients_of_ne (s : Server) {x y : Nat} (h : y ≠ x) (T : Client) :
    (s.goto x T).clients y = s.clients y :=
  Function.update_of_ne h _ _

/-- What holds of the old and of the new task holds of the task after the step. -/
theorem goto_clients_cases (s : Server) (x : Nat) (T : Client) (y : Nat) :
    (y = x ∧ (s.goto x T).clients y = T) ∨ (y ≠ x ∧ (s.goto x T).clients y = s.clients y) := by
  by_cases hy : y = x
  · subst hy
    exact .inl ⟨rfl,goto_clients_self s y T⟩
  · exact .inr ⟨hy,goto_clients_of_ne s hy T⟩

theorem goto_clean {s : Server} (h : ∀ y, (s.clients y).Clean) (x : Nat) {T : Client}
    (hT : T.Clean) (y : Nat) : ((s.goto x T).clients y).Clean := by
  rcases goto_clients_cases s x T y with ⟨_,hnew⟩ | ⟨_,hold⟩
  · rw [hnew]
    exact hT
  · rw [hold]
    exact h y

theorem goto_subscribed {s : Server} {x : Nat} (hx : ¬ (s.clients x).Serving) (T : Client)
    {fd : Nat} (h : ∃ y, s.numbers y = fd ∧ (s.clients y).Serving) :
    ∃ y, s.numbers y = fd ∧ ((s.goto x T).clients y).Serving := by
  obtain ⟨y,hy,hserving⟩ := h
  have hyx : y ≠ x := by
    rintro rfl
    exact hx hserving
  exact ⟨y,hy,by rwa [goto_clients_of_ne s hyx]⟩

namespace Owned
variable {s : Server}

theorem started (serverFd : Nat) : (Server.started serverFd).Owned :=
  { valid := .initial
    server := fun _ _ => rfl
    pending := nofun
    absent := nofun
    live := fun _ h => h.elim
    ended := nofun
    subscribed := fun _ h => absurd h List.not_mem_nil
    clientsClean := fun _ => trivial
    settersClean := nofun
    acceptorJoined := fun h => h.elim
    clientsJoined := fun h => h.elim
    closing := nofun }

theorem lt_accepted (h : s.Owned) {x : Nat} (hx : s.clients x ≠ .absent) :
    x < s.descriptors.accepted := by
  rcases (s.clients x).live_cases with hlive | habsent | hended
  · exact h.valid.bound _ x (h.live x hlive)
  · exact absurd habsent hx
  · have hclosed := h.ended x hended
    by_contra hge
    rw [h.valid.fresh x (by omega)] at hclosed
    cases hclosed

theorem move (h : s.Owned) {x : Nat} {T : Client} {subscribers : FdSet} {holder : Option Thread}
    (hx : (s.clients x).Live) (hT : T.Live ∧ T.Clean)
    (hsubs : ∀ fd, fd ∈ subscribers.fds →
      ∃ y, s.numbers y = fd ∧ ((s.goto x T).clients y).Serving) :
    (({ s with subscribers := subscribers, holder := holder } : Server).goto x T).Owned := by
  have habsent := hx.ne_absent
  have hcases := goto_clients_cases { s with subscribers := subscribers, holder := holder } x T
  refine ⟨h.valid,h.server,?_,?_,?_,?_,hsubs,goto_clean h.clientsClean x hT.2,h.settersClean,
    h.acceptorJoined,?_,h.closing⟩
  · intro y hy
    obtain ⟨hnone,howner⟩ := h.pending y hy
    rcases hcases y with ⟨rfl,_⟩ | ⟨_,hold⟩
    · exact absurd hnone habsent
    · exact ⟨hold.trans hnone,howner⟩
  · intro y hy hnone
    rcases hcases y with ⟨rfl,hnew⟩ | ⟨_,hold⟩
    · rw [hnew] at hnone
      rw [hnone] at hT
      exact hT.1.elim
    · exact h.absent y hy (hold.symm.trans hnone)
  · intro y hy
    rcases hcases y with ⟨rfl,_⟩ | ⟨_,hold⟩
    · exact h.live y hx
    · rw [hold] at hy
      exact h.live y hy
  · intro y hy
    rcases hcases y with ⟨rfl,hnew⟩ | ⟨_,hold⟩
    · rw [hnew] at hy
      rw [hy] at hT
      exact hT.1.elim
    · exact h.ended y (hold.symm.trans hy)
  · intro hjoined
    exact absurd hx (h.clientsJoined hjoined x)

theorem serve (h : s.Owned) {x : Nat} {T : Client} {subscribers : FdSet} {holder : Option Thread}
    (hx : (s.clients x).Serving) (hT : T.Serving ∧ T.Clean)
    (hsubs : ∀ fd, fd ∈ subscribers.fds → fd = s.numbers x ∨ fd ∈ s.subscribers.fds) :
    (({ s with subscribers := subscribers, holder := holder } : Server).goto x T).Owned := by
  have hself : ((s.goto x T).clients x).Serving := by
    rw [goto_clients_self]
    exact hT.1
  refine h.move hx.live ⟨hT.1.live,hT.2⟩ ?_
  intro fd hfd
  rcases hsubs fd hfd with rfl | hfd
  · exact ⟨x,rfl,hself⟩
  · obtain ⟨y,hy,hserving⟩ := h.subscribed fd hfd
    rcases goto_clients_cases s x T y with ⟨rfl,_⟩ | ⟨_,hold⟩
    · exact ⟨y,hy,hself⟩
    · exact ⟨y,hy,by rw [hold]; exact hserving⟩

theorem stay (h : s.Owned) {x : Nat} {T : Client} {holder : Option Thread}
    (hx : (s.clients x).Serving) (hT : T.Serving ∧ T.Clean) :
    (({ s with holder := holder } : Server).goto x T).Owned :=
  h.serve hx hT fun _ hfd => .inr hfd

theorem leave (h : s.Owned) {x : Nat} (hx : s.clients x = .leaving) :
    (({ s with
      holder := some (.client x)
      subscribers := s.subscribers.erase (s.numbers x) } : Server).goto x .closing).Owned := by
  refine h.move (by rw [hx]; trivial) ⟨trivial,trivial⟩ ?_
  intro fd hfd
  obtain ⟨hne,hfd⟩ := FdSet.mem_erase.mp hfd
  obtain ⟨y,hy,hserving⟩ := h.subscribed fd hfd
  have hyx : y ≠ x := by
    rintro rfl
    exact hne hy.symm
  exact ⟨y,hy,by rw [goto_clients_of_ne s hyx]; exact hserving⟩

theorem close (h : s.Owned) {x : Nat} (hx : s.clients x = .closing) :
    (({ s with
      descriptors := s.descriptors.close (s.numbers x)
      holder := none } : Server).goto x .ended).Owned := by
  have hlive : (s.clients x).Live := by
    rw [hx]
    trivial
  have howner := h.live x hlive
  have habsent := hlive.ne_absent
  have hserving : ¬ (s.clients x).Serving := by
    rw [hx]
    exact id
  have hcases := goto_clients_cases
    { s with descriptors := s.descriptors.close (s.numbers x), holder := none } x .ended
  refine ⟨h.valid.close _,?_,?_,?_,?_,?_,
    fun _ hfd => goto_subscribed hserving _ (h.subscribed _ hfd),
    goto_clean h.clientsClean x trivial,h.settersClean,h.acceptorJoined,?_,h.closing⟩
  · intro fd hfd
    have hnone := h.server fd hfd
    have hne : fd ≠ s.numbers x := by
      rintro rfl
      rw [howner] at hnone
      cases hnone
    exact (Descriptors.close_owner_of_ne _ hne).trans hnone
  · intro y hy
    obtain ⟨hnone,hy⟩ := h.pending y hy
    have hyx : y ≠ x := by
      rintro rfl
      exact habsent hnone
    exact ⟨(goto_clients_of_ne _ hyx _).trans hnone,
      Descriptors.close_owner_of_some howner hy hyx⟩
  · intro y hy hnone
    rcases hcases y with ⟨_,hnew⟩ | ⟨_,hold⟩
    · rw [hnew] at hnone
      cases hnone
    · exact h.absent y (by rwa [← Descriptors.close_accepted]) (hold.symm.trans hnone)
  · intro y hy
    rcases hcases y with ⟨_,hnew⟩ | ⟨hyx,hold⟩
    · rw [hnew] at hy
      exact hy.elim
    · rw [hold] at hy
      exact Descriptors.close_owner_of_some howner (h.live y hy) hyx
  · intro y hy
    rcases hcases y with ⟨rfl,_⟩ | ⟨hyx,hold⟩
    · exact (Descriptors.close_closes_self howner).trans
        (congrArg (·+1) (h.valid.unclosed _ y howner))
    · exact (Descriptors.close_closes_of_ne howner hyx).trans
        (h.ended y (hold.symm.trans hy))
  · intro hjoined
    exact absurd hlive (h.clientsJoined hjoined x)

theorem notice_clean (h : s.Owned) {t : Thread} {n : Notice} (hn : s.notice t = some n) :
    n.Clean := by
  cases t with
  | client x =>
    have hclean := h.clientsClean x
    simp only [notice] at hn
    split at hn
    · next heq =>
      rw [heq] at hclean
      cases hn
      exact hclean
    · cases hn
  | setter i => exact h.settersClean i n hn
  | stopper => cases hn

theorem notify (h : s.Owned) {i : Nat} {n : Option Notice} {holder : Option Thread}
    (hn : ∀ m, n = some m → m.Clean) :
    (({ s with holder := holder } : Server).proceed (.setter i) n).Owned := by
  refine { h with settersClean := ?_ }
  intro j m hm
  have hupdate : Function.update s.setters i n j = some m := hm
  by_cases hj : j = i
  · subst hj
    rw [Function.update_self] at hupdate
    exact hn m hupdate
  · rw [Function.update_of_ne hj] at hupdate
    exact h.settersClean j m hupdate

theorem proceed (h : s.Owned) {t : Thread} {n : Notice} {n' : Option Notice}
    {holder : Option Thread} (hn : s.notice t = some n) (hn' : ∀ m, n' = some m → m.Clean) :
    (({ s with holder := holder } : Server).proceed t n').Owned := by
  cases t with
  | client x =>
    simp only [notice] at hn
    split at hn
    · next heq =>
      refine h.stay (by rw [heq]; trivial) ?_
      cases n' with
      | none => exact ⟨trivial,trivial⟩
      | some m => exact ⟨trivial,hn' m rfl⟩
    · cases hn
  | setter i => exact h.notify hn'
  | stopper => cases hn

section Accepting

theorem accept (h : s.Owned) {fd : Nat} (hacceptor : s.acceptor = .accepting)
    (hfree : s.descriptors.owner fd = none) (hserver : s.serverFd ≠ some fd) :
    (s.accept fd).Owned := by
  have hnumber : ∀ y, s.clients y ≠ .absent →
      (s.accept fd).numbers y = s.numbers y := by
    intro y hy
    exact Function.update_of_ne (Nat.ne_of_lt (h.lt_accepted hy)) _ _
  have hnone : ∀ y, y < s.descriptors.accepted → s.clients y ≠ .absent := by
    intro y hy habsent
    have hpending := h.absent y hy habsent
    rw [hacceptor] at hpending
    cases hpending
  refine { h with
    valid := h.valid.accept hfree, server := ?_, pending := ?_, absent := ?_
    live := ?_, subscribed := ?_, acceptorJoined := ?_ }
  · intro a ha
    have hne : a ≠ fd := by
      rintro rfl
      exact hserver ha
    exact (Descriptors.accept_owner_of_ne _ hne).trans (h.server a ha)
  · intro y hy
    cases hy
    refine ⟨?_,?_⟩
    · by_contra hlt
      exact Nat.lt_irrefl _ (h.lt_accepted hlt)
    · have hself : (s.accept fd).numbers s.descriptors.accepted = fd := Function.update_self _ _ _
      rw [hself]
      exact Descriptors.accept_owner_self _ fd
  · intro y hy habsent
    rcases Nat.lt_or_eq_of_le (Nat.lt_succ_iff.mp hy) with hy | rfl
    · exact absurd habsent (hnone y hy)
    · rfl
  · intro y hy
    rw [hnumber y (Client.Live.ne_absent hy)]
    exact (Descriptors.accept_owner_of_some hfree (h.live y hy)).2
  · intro a ha
    obtain ⟨y,hy,hserving⟩ := h.subscribed a ha
    exact ⟨y,(hnumber y hserving.live.ne_absent).trans hy,hserving⟩
  · intro hjoined
    have hended := h.acceptorJoined hjoined
    rw [hacceptor] at hended
    cases hended

/-- `acceptLoop` goes on with the connection that it has, or without one. -/
theorem acceptor (h : s.Owned) {a : Acceptor} (hrun : s.acceptor ≠ .ended)
    (hsame : a.connection = s.acceptor.connection) : ({ s with acceptor := a } : Server).Owned :=
  { h with
    pending := fun x hx => h.pending x (hsame ▸ hx)
    absent := fun x hx habsent => hsame.trans (h.absent x hx habsent)
    acceptorJoined := fun hjoined => absurd (h.acceptorJoined hjoined) hrun }

theorem start (h : s.Owned) {x : Nat} (hx : s.acceptor = .starting x) :
    (({ s with acceptor := .looping } : Server).goto x .looping).Owned := by
  obtain ⟨habsent,howner⟩ := h.pending x (by rw [hx]; rfl)
  have hcases := goto_clients_cases { s with acceptor := .looping } x .looping
  have hserving : ¬ (s.clients x).Serving := by
    rw [habsent]
    exact id
  have hstopper : ¬ s.stopper.AcceptorJoined := by
    intro hjoined
    rw [h.acceptorJoined hjoined] at hx
    cases hx
  refine { h with
    pending := nofun, absent := ?_, live := ?_, ended := ?_
    subscribed := fun _ hfd => goto_subscribed hserving _ (h.subscribed _ hfd)
    clientsClean := goto_clean h.clientsClean x trivial
    acceptorJoined := fun hjoined => absurd hjoined hstopper
    clientsJoined := fun hjoined => absurd hjoined.acceptor hstopper }
  · intro y hy hnone
    rcases hcases y with ⟨_,hnew⟩ | ⟨hyx,hold⟩
    · rw [hnew] at hnone
      cases hnone
    · have hpending := h.absent y hy (hold.symm.trans hnone)
      rw [hx] at hpending
      exact absurd (Option.some.inj hpending).symm hyx
  · intro y hy
    rcases hcases y with ⟨rfl,_⟩ | ⟨_,hold⟩
    · exact howner
    · rw [hold] at hy
      exact h.live y hy
  · intro y hy
    rcases hcases y with ⟨_,hnew⟩ | ⟨_,hold⟩
    · rw [hnew] at hy
      cases hy
    · exact h.ended y (hold.symm.trans hy)

theorem acceptLoop (h : s.Owned) (hclean : s.drops .acceptLoop = false) :
    s.acceptLoop.Owned := by
  unfold Server.acceptLoop
  split
  · next heq =>
    refine h.acceptor (by rw [heq]; exact nofun) ?_
    rw [heq]
    split <;> rfl
  · next cli heq =>
    refine h.acceptor (by rw [heq]; exact nofun) ?_
    rw [heq]
    cases hrunning : s.running with
    | true => cases cli <;> rfl
    | false =>
      cases cli with
      | none => rfl
      | some x =>
        rw [drops,hrunning,heq] at hclean
        cases hclean
  · next heq => exact h.start heq
  · exact h

end Accepting

section Stopping

/-- When the threads of the connections are joined nobody is left in the set. -/
theorem subscribers_nil (h : s.Owned) (hjoined : s.stopper.ClientsJoined) :
    s.subscribers.fds = [] := by
  refine List.eq_nil_iff_forall_not_mem.mpr ?_
  intro fd hfd
  obtain ⟨x,_,hserving⟩ := h.subscribed fd hfd
  exact h.clientsJoined hjoined x hserving.live

theorem lockStop (h : s.Owned) {order : List Nat} (hlocking : s.stopper = .locking)
    (hperm : order.Perm s.subscribers.fds) :
    ({ s with holder := some .stopper, stopper := .closing order } : Server).Owned := by
  have hjoined : s.stopper.ClientsJoined := by
    rw [hlocking]
    trivial
  rw [h.subscribers_nil hjoined] at hperm
  refine { h with
    acceptorJoined := fun _ => h.acceptorJoined hjoined.acceptor
    clientsJoined := fun _ => h.clientsJoined hjoined
    closing := ?_ }
  intro rest hrest
  cases hrest
  exact hperm.eq_nil

theorem closeServer (h : s.Owned) :
    s.serverFd.elim s.descriptors s.descriptors.close = s.descriptors := by
  cases hfd : s.serverFd with
  | none => rfl
  | some fd => exact Descriptors.close_of_none (h.server fd hfd)

theorem joinable (h : s.Owned) (hjoin : s.Joinable) (x : Nat) : ¬ (s.clients x).Live := by
  intro hlive
  by_cases hx : x < s.descriptors.accepted
  · rcases hjoin x hx with heq | heq <;> rw [heq] at hlive <;> exact hlive
  · have habsent : s.clients x = .absent := by
      by_contra hne
      exact hx (h.lt_accepted hne)
    rw [habsent] at hlive
    exact hlive

theorem stop (h : s.Owned) : s.stop.Owned := by
  unfold Server.stop
  split
  · split
    · exact { h with acceptorJoined := nofun, clientsJoined := nofun, closing := nofun }
    · exact h
  · rw [h.closeServer]
    exact { h with
      server := nofun, acceptorJoined := nofun, clientsJoined := nofun, closing := nofun }
  · split
    · next hended =>
      exact { h with
        acceptorJoined := fun _ => hended, clientsJoined := nofun, closing := nofun }
    · exact h
  · next heq =>
    split
    · next hjoin =>
      exact { h with
        acceptorJoined := fun _ => h.acceptorJoined (by rw [heq]; trivial)
        clientsJoined := fun _ => h.joinable hjoin
        closing := nofun }
    · exact h
  · next heq => cases h.closing _ heq
  · next heq =>
    exact { h with
      subscribed := fun _ hfd => absurd hfd List.not_mem_nil
      acceptorJoined := fun _ => h.acceptorJoined (by rw [heq]; trivial)
      clientsJoined := fun _ => h.clientsJoined (by rw [heq]; trivial)
      closing := nofun }
  · exact h

end Stopping

theorem clientLoop (h : s.Owned) (x : Nat) : (s.clientLoop x).Owned := by
  unfold Server.clientLoop
  split
  · next heq =>
    refine h.stay (by rw [heq]; trivial) ?_
    split <;> exact ⟨trivial,trivial⟩
  · next heq =>
    refine h.stay (by rw [heq]; trivial) ?_
    split <;> exact ⟨trivial,trivial⟩
  · exact h

theorem cleanup (h : s.Owned) (x : Nat) : (s.cleanup x).Owned := by
  unfold Server.cleanup
  split
  · next heq =>
    split
    · exact h.leave heq
    · exact h
  · next heq => exact h.close heq
  · exact h

theorem step (h : s.Owned) {e : Event} (hclean : s.drops e = false) : (s.step e).Owned := by
  cases e with
  | accept fd =>
    simp only [Server.step]
    split
    · next hc => exact h.accept hc.1 hc.2.1 hc.2.2
    · exact h
  | refuse =>
    simp only [Server.step]
    split
    · next heq => exact h.acceptor (by rw [heq]; exact nofun) (by rw [heq]; rfl)
    · exact h
  | acceptLoop => exact h.acceptLoop hclean
  | clientLoop x => exact h.clientLoop x
  | header x r | body x r =>
    simp only [Server.step]
    split
    · next heq => exact h.stay (by rw [heq]; trivial) r.next_serving
    · exact h
  | subscribe x =>
    simp only [Server.step]
    split
    · next hc =>
      exact h.serve (by rw [hc.1]; trivial) ⟨trivial,trivial⟩ fun _ hfd => FdSet.mem_insert.mp hfd
    · exact h
  | unsubscribe x =>
    simp only [Server.step]
    split
    · next hc =>
      exact h.serve (by rw [hc.1]; trivial) ⟨trivial,trivial⟩
        fun _ hfd => .inr (FdSet.mem_erase.mp hfd).2
    · exact h
  | send x more =>
    simp only [Server.step]
    split
    · next onward heq =>
      split
      · exact h
      · exact h.stay (by rw [heq]; trivial) (afterSend_serving onward)
    · exact h
  | setLocal i =>
    simp only [Server.step]
    split
    · refine h.notify ?_
      rintro m ⟨⟩
      trivial
    · exact h
  | lock t order =>
    simp only [Server.step]
    split
    · next hc =>
      refine h.proceed hc.1 ?_
      rintro m ⟨⟩
      exact nextNotice_clean order
    · exact h
  | notify t more =>
    simp only [Server.step]
    split
    · next rest toRemove heq =>
      obtain rfl : toRemove = [] := h.notice_clean heq
      split
      · exact h
      · refine h.proceed heq ?_
        rintro m ⟨⟩
        exact nextNotice_clean rest
    · exact h
  | fail t =>
    simp only [Server.step]
    split
    · next heq =>
      rw [drops,heq] at hclean
      cases hclean
    · exact h
  | close t =>
    simp only [Server.step]
    split
    · next heq => cases h.notice_clean heq
    · exact h
  | erase t =>
    simp only [Server.step]
    split
    · next heq => exact (h.notice_clean heq).elim
    · exact h
  | unlock t =>
    simp only [Server.step]
    split
    · next heq => exact h.proceed heq nofun
    · exact h
  | cleanup x => exact h.cleanup x
  | stop => exact h.stop
  | lockStop order =>
    simp only [Server.step]
    split
    · next hc => exact h.lockStop hc.1 hc.2.2
    · exact h

end Owned

theorem serving_of_touches {s : Server} {e : Event} {x : Nat} (hx : s.touches e = some x) :
    (s.clients x).Serving := by
  cases e with
  | header y r | body y r | send y r =>
    simp only [touches] at hx
    split at hx
    · next heq =>
      cases hx
      rw [heq]
      trivial
    · cases hx
  | notify t r | fail t =>
    cases t with
    | client y =>
      simp only [touches] at hx
      split at hx
      · next heq =>
        split at hx
        · cases hx
          rw [heq]
          trivial
        · cases hx
      · cases hx
    | setter i => cases hx
    | stopper => cases hx
  | _ => cases hx

theorem Owned.respects {s : Server} (h : s.Owned) (e : Event) : s.Respects e := by
  refine ⟨fun x hx => h.live x (serving_of_touches hx).live,?_⟩
  intro fd hfd
  cases e with
  | close t =>
    simp only [closes] at hfd
    split at hfd
    · next heq => cases h.notice_clean heq
    · cases hfd
  | cleanup x =>
    simp only [closes] at hfd
    split at hfd
    · next heq =>
      cases hfd
      exact .inr ⟨x,rfl,rfl,h.live x (by rw [heq]; trivial)⟩
    · cases hfd
  | stop =>
    simp only [closes] at hfd
    split at hfd
    · exact .inl ⟨hfd,h.server fd hfd⟩
    · next heq => cases h.closing _ heq
    · cases hfd
  | _ => cases hfd

theorem Owned.closed_of_done {s : Server} (h : s.Owned) (hdone : s.stopper = .done) {x : Nat}
    (hx : x < s.descriptors.accepted) : s.descriptors.closes x = 1 := by
  have hjoined : s.stopper.ClientsJoined := by
    rw [hdone]
    trivial
  rcases (s.clients x).live_cases with hlive | habsent | hended
  · exact absurd hlive (h.clientsJoined hjoined x)
  · have hpending := h.absent x hx habsent
    rw [h.acceptorJoined hjoined.acceptor] at hpending
    cases hpending
  · exact h.ended x hended

end Server

abbrev serverAt (serverFd : Nat) (σ : Nat → Event) (k : Nat) : Server :=
  stateAt Server.step (.started serverFd) σ k

/-- In a run in which no send of `notifySubscribers` fails and `acceptLoop` drops no connection,
every connection is closed once, by its own thread, and used by it no longer. -/
theorem descriptors_owned (serverFd : Nat) (σ : Nat → Event) (n : Nat)
    (hclean : ∀ k, k < n → (serverAt serverFd σ k).drops (σ k) = false) (k : Nat) (hk : k ≤ n) :
    (serverAt serverFd σ k).Respects (σ k) ∧ ∀ x,
      (serverAt serverFd σ k).descriptors.closes x ≤ 1 ∧
      ((serverAt serverFd σ k).clients x = .ended →
        (serverAt serverFd σ k).descriptors.closes x = 1) ∧
      ((serverAt serverFd σ k).stopper = .done →
        x < (serverAt serverFd σ k).descriptors.accepted →
        (serverAt serverFd σ k).descriptors.closes x = 1) := by
  have howned : (serverAt serverFd σ k).Owned :=
    stateAt_invariant (.started serverFd) hclean (fun _ _ h hstep => h.step hstep) k hk
  exact ⟨howned.respects (σ k),fun x => ⟨howned.valid.once x,howned.ended x,
    fun hdone hx => howned.closed_of_done hdone hx⟩⟩

/-- The descriptor of a subscriber is given out again after it has disconnected, and the server is
stopped with the second connection open. -/
def reuse : List Event :=
  [.acceptLoop,.accept 4,.acceptLoop,.acceptLoop,.clientLoop 0,.header 0 .length,
    .body 0 .subscribe,.subscribe 0,.send 0 false,.setLocal 0,.lock (.setter 0) [4],
    .notify (.setter 0) false,.unlock (.setter 0),.clientLoop 0,.header 0 .closed,.cleanup 0,
    .cleanup 0,.acceptLoop,.accept 4,.acceptLoop,.acceptLoop,.stop,.stop,.acceptLoop,.stop,
    .clientLoop 1,.cleanup 1,.cleanup 1,.stop,.lockStop [],.stop]

def reuseRun : Nat → Event := schedule reuse .refuse

theorem descriptors_owned_reuse :
    (serverAt 3 reuseRun 31).Respects (reuseRun 31) ∧ ∀ x,
      (serverAt 3 reuseRun 31).descriptors.closes x ≤ 1 ∧
      ((serverAt 3 reuseRun 31).clients x = .ended →
        (serverAt 3 reuseRun 31).descriptors.closes x = 1) ∧
      ((serverAt 3 reuseRun 31).stopper = .done →
        x < (serverAt 3 reuseRun 31).descriptors.accepted →
        (serverAt 3 reuseRun 31).descriptors.closes x = 1) :=
  descriptors_owned 3 reuseRun 31 (by decide +kernel) 31 (Nat.le_refl 31)

def stray : List Event :=
  [.acceptLoop,.accept 4,.acceptLoop,.acceptLoop,.clientLoop 0,.header 0 .length,
    .body 0 .subscribe,.subscribe 0,.send 0 false,.clientLoop 0,.setLocal 0,.lock (.setter 0) [4],
    .fail (.setter 0),.close (.setter 0),.acceptLoop,.accept 4,.acceptLoop,.acceptLoop,
    .header 0 .closed,.erase (.setter 0),.unlock (.setter 0),.cleanup 0,.cleanup 0]

def strayRun : Nat → Event := schedule stray .refuse

def dropped : List Event :=
  [.acceptLoop,.accept 4,.stop,.acceptLoop,.stop,.stop,.stop,.lockStop [],.stop]

def droppedRun : Nat → Event := schedule dropped .refuse

/-- In the first run the thread of the connection 0 reads from the descriptor of the connection 1
and closes it; in the second a connection is never closed. -/
theorem descriptors_confused :
    ((serverAt 3 strayRun 18).touches (strayRun 18) = some 0 ∧
      (serverAt 3 strayRun 18).descriptors.closes 0 = 1 ∧
      (serverAt 3 strayRun 18).descriptors.owner ((serverAt 3 strayRun 18).numbers 0) = some 1) ∧
    ((serverAt 3 strayRun 22).closes (strayRun 22) = some 4 ∧
      strayRun 22 = .cleanup 0 ∧
      (serverAt 3 strayRun 22).descriptors.owner 4 = some 1 ∧
      (serverAt 3 strayRun 23).descriptors.closes 1 = 1 ∧
      (serverAt 3 strayRun 23).clients 1 = .looping) ∧
    ((serverAt 3 droppedRun 9).stopper = .done ∧
      (serverAt 3 droppedRun 9).descriptors.accepted = 1 ∧
      (serverAt 3 droppedRun 9).descriptors.closes 0 = 0) := by
  refine ⟨?_,⟨?_,rfl,?_,?_,?_⟩,?_⟩ <;> decide +kernel

end LapCom.Socket.FieldDescriptors
