import LapCom.Socket.Frame
import LapCom.Socket.Network

set_option autoImplicit false

namespace LapCom.Socket
open LapCom.Stream

structure SocketEventPublisher where
  running : Bool
  subscribers : FdSet
  net : Network

/-- What happens at a publisher: the accept loop takes a connection, or an event is
published, with the connections that `publish` itself accepts first. -/
inductive PublisherEvent (V : Type) where
  | acceptLoop (fd : Nat)
  | publish (evt : V) (pending : List Nat)

section Publisher
variable {V : Type} (c : Protobuf V)

namespace SocketEventPublisher

def publish (p : SocketEventPublisher) (evt : V) (pending : List Nat) :
    Result Unit × SocketEventPublisher :=
  if p.running then
    match serializeMessage c evt with
    | .error e => (.error e,p)
    | .ok frameData =>
      let subscribers := pending.foldl FdSet.insert p.subscribers
      let sent := sendTo frameData subscribers.fds p.net []
      (.ok (),{ p with subscribers := sent.2.foldl FdSet.erase subscribers, net := sent.1 })
  else (fail .kNotInitialized 0,p)

def step (p : SocketEventPublisher) : PublisherEvent V → SocketEventPublisher
  | .acceptLoop fd => { p with subscribers := p.subscribers.insert fd }
  | .publish evt pending => (p.publish c evt pending).2

def run (p : SocketEventPublisher) (es : List (PublisherEvent V)) : SocketEventPublisher :=
  es.foldl (step c) p

end SocketEventPublisher

def PublisherEvent.published? : PublisherEvent V → Option V
  | .acceptLoop _ => none
  | .publish evt _ => some evt

def published (es : List (PublisherEvent V)) : List V := es.filterMap PublisherEvent.published?

end Publisher

section Subscriber
variable {V : Type} (c : Protobuf V)

def SocketEventSubscriber.onFrame (log : List V) (buf : List Byte) : List V :=
  match deserializeMessage c buf with
  | .ok evt => log++[evt]
  | .error _ => log

def SocketEventSubscriber.recvLoop (r : Reader Byte) : List V :=
  ((⟨.header,[]⟩ : Loop Byte (List V)).drain format (onFrame c) r).state

end Subscriber

section Sending
variable {V : Type} {c : Protobuf V}

structure SocketEventPublisher.Serves (p : SocketEventPublisher) (fd : Nat) : Prop where
  running : p.running = true
  mem : fd ∈ p.subscribers.fds
  healthy : p.net.Healthy

theorem SocketEventPublisher.step_serves {p : SocketEventPublisher} {fd : Nat} (h : p.Serves fd)
    {e : PublisherEvent V}
    (hsize : ∀ evt, e.published? = some evt → (c.serialize evt).length < 2^31) :
    (p.step c e).Serves fd ∧
      (p.step c e).net.written fd = p.net.written fd++wire c e.published?.toList := by
  cases e with
  | acceptLoop a =>
    refine ⟨⟨h.running,FdSet.mem_insert.mpr (.inr h.mem),h.healthy⟩,?_⟩
    simp [step,PublisherEvent.published?,wire]
  | publish evt pending =>
    have hser := serializeMessage_of_lt (hsize evt rfl)
    have hmem : fd ∈ (pending.foldl FdSet.insert p.subscribers).fds :=
      FdSet.mem_foldl_insert h.mem
    obtain ⟨hremove,hhealthy,hwritten⟩ := sendTo_healthy h.healthy
      (pending.foldl FdSet.insert p.subscribers).nodup
      (htonl (c.serialize evt).length++c.serialize evt) []
    simp only [step,publish,h.running,if_true,hser]
    refine ⟨⟨rfl,?_,hhealthy⟩,?_⟩
    · rw [hremove]
      exact hmem
    · rw [hwritten,if_pos hmem]
      simp [PublisherEvent.published?,wire]

theorem SocketEventPublisher.run_serves {p : SocketEventPublisher} {fd : Nat} (h : p.Serves fd)
    {es : List (PublisherEvent V)}
    (hsize : ∀ evt, evt ∈ published es → (c.serialize evt).length < 2^31) :
    (p.run c es).Serves fd ∧
      (p.run c es).net.written fd = p.net.written fd++wire c (published es) := by
  induction es generalizing p with
  | nil => exact ⟨h,by simp [run,published,wire]⟩
  | cons e es ih =>
    have hcons : published (e :: es) = e.published?.toList++published es := by
      simp [published,List.filterMap_cons]
      cases e <;> rfl
    have hhead : ∀ evt, e.published? = some evt → (c.serialize evt).length < 2^31 :=
      fun evt he => hsize evt (by simp [hcons,he])
    have htail : ∀ evt, evt ∈ published es → (c.serialize evt).length < 2^31 :=
      fun evt he => hsize evt (by simp [hcons,he])
    obtain ⟨hserves,hwritten⟩ := step_serves h hhead
    obtain ⟨hserves',hwritten'⟩ := ih hserves htail
    refine ⟨hserves',?_⟩
    rw [hcons,wire_append,← List.append_assoc,← hwritten]
    exact hwritten'

end Sending

section Delivery
variable {V : Type} {c : Protobuf V}

def weigh (c : Protobuf V) (log : List V) : Nat :=
  (log.map fun evt => 4+(c.serialize evt).length).sum

theorem weigh_append (log log' : List V) : weigh c (log++log') = weigh c log+weigh c log' := by
  simp [weigh]

theorem SocketEventSubscriber.weigh_onFrame (hshort : c.Shortest) (log : List V)
    (buf : List Byte) : weigh c (onFrame c log buf) ≤ weigh c log+buf.length := by
  rw [onFrame]
  split
  · next evt h =>
    have hlen := deserializeMessage_length hshort h
    rw [weigh_append]
    simp only [weigh,List.map_cons,List.map_nil,List.sum_cons,List.sum_nil]
    omega
  · exact Nat.le_add_right _ _

theorem SocketEventSubscriber.onFrame_frames {evts : List V} {frs : List (Frame format)}
    (hfrs : frs.map Frame.body = evts.map c.serialize)
    (hsize : ∀ evt, evt ∈ evts → (c.serialize evt).length ≤ maxLength) (log : List V) :
    ((frs.filter fun fr => decide fr.Read).map Frame.bytes).foldl (onFrame c) log =
      log++evts.filter fun evt => decide (c.serialize evt ≠ []) := by
  induction evts generalizing frs log with
  | nil => simp [List.map_eq_nil_iff.mp hfrs]
  | cons evt evts ih =>
    obtain ⟨fr,frs,rfl,hfr,hfrs⟩ := List.map_eq_cons_iff.mp hfrs
    have hrest := ih hfrs fun evt h => hsize evt (List.mem_cons_of_mem _ h)
    have hlen : fr.body.length ≤ maxLength := hfr ▸ hsize evt List.mem_cons_self
    by_cases hempty : c.serialize evt = []
    · have hread : ¬ fr.Read := fun h => h.1 (hfr.trans hempty)
      rw [List.filter_cons_of_neg (by simpa using hread),hrest,
        List.filter_cons_of_neg (by simpa using hempty)]
    · have hread : fr.Read := ⟨fun h => hempty (hfr ▸ h),hlen⟩
      have hparse := c.parse_serialize evt
      have hmsg : deserializeMessage c fr.bytes = .ok evt := by
        rw [deserializeMessage_frame (Nat.lt_of_le_of_lt hlen (by decide)),hfr,hparse]
      rw [List.filter_cons_of_pos (by simpa using hread),List.map_cons,List.foldl_cons,hrest,
        List.filter_cons_of_pos (by simpa using hempty),onFrame,hmsg,List.append_assoc]
      rfl

/-- What it takes for the events to arrive: none is empty on the wire, and no call for a
header ends inside it. -/
def Deliverable (c : Protobuf V) (cut : Nat → Bool) (evts : List V) : Prop :=
  (∀ evt, evt ∈ evts → c.serialize evt ≠ []) ∧
    WholeHeaders 4 cut (evts.map fun evt => 4+(c.serialize evt).length)

theorem SocketEventSubscriber.recvLoop_wire {cut : Nat → Bool} {evts : List V}
    (hsize : ∀ evt, evt ∈ evts → (c.serialize evt).length ≤ maxLength)
    (hwhole : WholeHeaders 4 cut (evts.map fun evt => 4+(c.serialize evt).length)) :
    recvLoop c ⟨wire c evts,cut⟩ = evts.filter fun evt => decide (c.serialize evt ≠ []) := by
  obtain ⟨frs,hfrs,hbytes,hsizes⟩ := exists_frames evts
    fun evt h => Nat.lt_of_le_of_lt (hsize evt h) (by decide)
  rw [recvLoop,← hbytes,Loop.drain_stream (by rw [hsizes]; exact hwhole),
    onFrame_frames hfrs hsize,List.nil_append]
  intro fr hfr
  obtain ⟨evt,hevt,hbody⟩ := List.mem_map.mp (hfrs ▸ List.mem_map_of_mem hfr)
  exact hbody ▸ hsize evt hevt

theorem SocketEventSubscriber.deliverable_of_recvLoop (hshort : c.Shortest) {cut : Nat → Bool}
    {evts : List V} (hsize : ∀ evt, evt ∈ evts → (c.serialize evt).length ≤ maxLength)
    (h : recvLoop c ⟨wire c evts,cut⟩ = evts) : Deliverable c cut evts := by
  obtain ⟨frs,hfrs,hbytes,hsizes⟩ := exists_frames evts
    fun evt h => Nat.lt_of_le_of_lt (hsize evt h) (by decide)
  have hlimit : ∀ fr, fr ∈ frs → fr.body.length ≤ format.limit := by
    intro fr hfr
    obtain ⟨evt,hevt,hbody⟩ := List.mem_map.mp (hfrs ▸ List.mem_map_of_mem hfr)
    exact hbody ▸ hsize evt hevt
  have hweight : weigh c ([] : List V)+(stream frs).length ≤
      weigh c
        ((⟨.header,[]⟩ : Loop Byte (List V)).drain format (onFrame c) ⟨stream frs,cut⟩).state := by
    rw [hbytes]
    show 0+_ ≤ weigh c (recvLoop c ⟨wire c evts,cut⟩)
    rw [h,Nat.zero_add,wire_length]
    exact Nat.le_refl _
  obtain ⟨hwhole,hbodies⟩ := Loop.whole_of_weight (weigh c) (weigh_onFrame hshort) hlimit hweight
  refine ⟨?_,hsizes ▸ hwhole⟩
  intro evt hevt
  obtain ⟨fr,hfr,hbody⟩ := List.mem_map.mp (hfrs.symm ▸ List.mem_map_of_mem hevt)
  exact hbody ▸ hbodies fr hfr

/-- With whole headers just the empty events are lost. Where encodings are shortest, nothing
else than the condition makes all events arrive. -/
theorem event_delivery_iff (c : Protobuf V) (p : SocketEventPublisher) (fd : Nat)
    (es : List (PublisherEvent V)) (cut : Nat → Bool) (hp : p.Serves fd)
    (hnew : p.net.written fd = [])
    (hsize : ∀ evt, evt ∈ published es → (c.serialize evt).length ≤ maxLength) :
    let delivered := SocketEventSubscriber.recvLoop c ⟨(p.run c es).net.written fd,cut⟩
    (WholeHeaders 4 cut ((published es).map fun evt => 4+(c.serialize evt).length) →
      (delivered = published es ↔ ∀ evt, evt ∈ published es → c.serialize evt ≠ [])) ∧
    (c.Shortest → (delivered = published es ↔ Deliverable c cut (published es))) := by
  intro delivered
  have hbytes : (p.run c es).net.written fd = wire c (published es) := by
    rw [(SocketEventPublisher.run_serves hp
      fun evt h => Nat.lt_of_le_of_lt (hsize evt h) (by decide)).2,hnew,List.nil_append]
  have hdelivered : delivered = SocketEventSubscriber.recvLoop c ⟨wire c (published es),cut⟩ := by
    rw [← hbytes]
  rw [hdelivered]
  have hwhole : WholeHeaders 4 cut ((published es).map fun evt => 4+(c.serialize evt).length) →
      (SocketEventSubscriber.recvLoop c ⟨wire c (published es),cut⟩ = published es ↔
        ∀ evt, evt ∈ published es → c.serialize evt ≠ []) := by
    intro h
    rw [SocketEventSubscriber.recvLoop_wire hsize h,List.filter_eq_self]
    simp
  refine ⟨hwhole,fun hshort => ⟨?_,?_⟩⟩
  · exact SocketEventSubscriber.deliverable_of_recvLoop hshort hsize
  · intro h
    exact (hwhole h.2).mpr h.1

end Delivery

def freshPublisher : SocketEventPublisher :=
  { running := true
    subscribers := FdSet.empty.insert 3
    net := { written := fun _ => [], calls := fun _ => ⟨fun _ => false,fun _ => false⟩ } }

theorem event_delivery_iff_two :
    SocketEventSubscriber.recvLoop valueInt
        ⟨(freshPublisher.run valueInt [.publish 5 [],.publish 6 [4]]).net.written 3,
          fun _ => false⟩ =
      published [.publish 5 [],.publish 6 [4]] ↔
    Deliverable valueInt (fun _ => false) (published [.publish 5 [],.publish 6 [4]]) :=
  (event_delivery_iff valueInt freshPublisher 3 [.publish 5 [],.publish 6 [4]] (fun _ => false)
    ⟨rfl,by decide,fun _ _ => rfl⟩ rfl (by decide +kernel)).2 valueInt_shortest

/-- An empty event is passed over, and a header that arrives in two parts takes its frame and
the one behind it along. -/
theorem events_lost :
    SocketEventSubscriber.recvLoop valueInt
        ⟨(freshPublisher.run valueInt [.publish 5 [],.publish 0 [],.publish 6 []]).net.written 3,
          fun _ => false⟩ ≠
      published [.publish 5 [],.publish 0 [],.publish 6 []] ∧
    SocketEventSubscriber.recvLoop valueInt
        ⟨(freshPublisher.run valueInt [.publish 5 [],.publish 6 []]).net.written 3,
          fun k => k == 3⟩ ≠
      published [.publish 5 [],.publish 6 []] := by
  decide +kernel

end LapCom.Socket
