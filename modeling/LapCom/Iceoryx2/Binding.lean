import LapCom.ComTypes
import LapCom.Container.Dictionary
import LapCom.Text.Parse
import Mathlib.Data.List.Sort

set_option autoImplicit false

namespace LapCom.Iceoryx2
open LapCom.Container LapCom.Text

/-- The counters of `TransportMetrics` that the binding writes. -/
structure TransportMetrics where
  messagesSent : BitVec 64
  messagesReceived : BitVec 64
  avgLatencyNs : BitVec 64
  maxLatencyNs : BitVec 64
  minLatencyNs : BitVec 64
  bytesSent : BitVec 64
  bytesReceived : BitVec 64

namespace TransportMetrics

def initial : TransportMetrics :=
  { messagesSent := 0, messagesReceived := 0, avgLatencyNs := 0, maxLatencyNs := 0
    minLatencyNs := -1, bytesSent := 0, bytesReceived := 0 }

def sent (m : TransportMetrics) (size : Nat) (latencyNs : BitVec 64) : TransportMetrics :=
  let count := m.messagesSent+1
  { m with
    messagesSent := count
    bytesSent := m.bytesSent+BitVec.ofNat 64 size
    avgLatencyNs :=
      if count = 1 then latencyNs else (m.avgLatencyNs*(count-1)+latencyNs)/count
    maxLatencyNs := if m.maxLatencyNs < latencyNs then latencyNs else m.maxLatencyNs
    minLatencyNs := if latencyNs < m.minLatencyNs then latencyNs else m.minLatencyNs }

def received (m : TransportMetrics) (size : Nat) : TransportMetrics :=
  { m with
    messagesReceived := m.messagesReceived+1
    bytesReceived := m.bytesReceived+BitVec.ofNat 64 size }

end TransportMetrics

structure PublisherWrapper where
  serviceId : BitVec 64
  instanceId : BitVec 64
  serviceName : List Char

structure SubscriberWrapper (C : Type) where
  serviceId : BitVec 64
  instanceId : BitVec 64
  eventId : BitVec 32
  callback : C
  serviceName : List Char

abbrev KeyMap (W : Type) := Dictionary (BitVec 64) W

/-- What a publisher port sends, with the name of the service it is opened under. -/
structure Sample where
  serviceName : List Char
  data : List Byte
  deriving DecidableEq

/-- Which creation calls of `Initialize` succeed. -/
structure NodeOutcome where
  builder : Bool
  name : Bool
  node : Bool

structure PortOutcome where
  name : Bool
  service : Bool
  port : Bool

structure SendOutcome where
  loan : Bool
  send : Bool
  latencyNs : BitVec 64

/-- `C` stands for the callbacks. -/
structure Iceoryx2Binding (C : Type) where
  initialized : Bool
  publishers : KeyMap PublisherWrapper
  subscribers : KeyMap (SubscriberWrapper C)
  metrics : TransportMetrics

def makeServiceName (serviceId instanceId : BitVec 64) : List Char :=
  "lap_com_".toList++(hexWidth 4 (serviceId &&& 0xFFFF).toNat++
    '_' :: hexWidth 4 (instanceId &&& 0xFFFF).toNat)

def makeServiceKey (serviceId instanceId : BitVec 64) : BitVec 64 :=
  (serviceId <<< 32) ||| (instanceId &&& 0xFFFFFFFF)

namespace Iceoryx2Binding
variable {C : Type}

def new : Iceoryx2Binding C := ⟨false,∅,∅,.initial⟩

def initializeBinding (b : Iceoryx2Binding C) (outcome : NodeOutcome) :
    Result Unit × Iceoryx2Binding C :=
  if b.initialized then (.ok (),b)
  else if outcome.builder && outcome.name && outcome.node then
    (.ok (),{ b with initialized := true })
  else (fail .kNotInitialized 0,b)

def shutdown (b : Iceoryx2Binding C) : Result Unit × Iceoryx2Binding C :=
  if b.initialized then
    (.ok (),{ b with initialized := false, publishers := ∅, subscribers := ∅ })
  else (.ok (),b)

def offerService (b : Iceoryx2Binding C) (serviceId instanceId : BitVec 64)
    (outcome : PortOutcome) : Result Unit × Iceoryx2Binding C :=
  let key := makeServiceKey serviceId instanceId
  let serviceName := makeServiceName serviceId instanceId
  if b.initialized = false then (fail .kNotInitialized 0,b)
  else if key ∈ b.publishers then (.ok (),b)
  else if outcome.name = false then (fail .kInvalidArgument 0,b)
  else if outcome.service = false then (fail .kServiceNotOffered 0,b)
  else if outcome.port = false then (fail .kServiceNotOffered 0,b)
  else
    (.ok (),{ b with
      publishers := b.publishers.insert key ⟨serviceId,instanceId,serviceName⟩ })

def stopOfferService (b : Iceoryx2Binding C) (serviceId instanceId : BitVec 64) :
    Result Unit × Iceoryx2Binding C :=
  (.ok (),{ b with publishers := b.publishers.erase (makeServiceKey serviceId instanceId) })

/-- The map is traversed in the order of its keys. -/
def findService (b : Iceoryx2Binding C) (serviceId : BitVec 64) : Result (List (BitVec 64)) :=
  let publishers := b.publishers.entries.mergeSort fun a b => decide (a.1 ≤ b.1)
  .ok ((publishers.filter fun e => e.2.serviceId = serviceId).map fun e => e.2.instanceId)

def sendEvent (b : Iceoryx2Binding C) (serviceId instanceId : BitVec 64) (_eventId : BitVec 32)
    (data : List Byte) (outcome : SendOutcome) :
    Result Unit × Iceoryx2Binding C × Option Sample :=
  if b.initialized = false then (fail .kNotInitialized 0,b,none)
  else
    match b.publishers.lookup (makeServiceKey serviceId instanceId) with
    | none => (fail .kServiceNotOffered 0,b,none)
    | some publisher =>
      if outcome.loan = false then (fail .kNetworkBindingFailure 0,b,none)
      else if outcome.send = false then (fail .kNetworkBindingFailure 0,b,none)
      else
        (.ok (),{ b with metrics := b.metrics.sent data.length outcome.latencyNs },
          some ⟨publisher.serviceName,data⟩)

def subscribeEvent (b : Iceoryx2Binding C) (serviceId instanceId : BitVec 64)
    (eventId : BitVec 32) (callback : C) (outcome : PortOutcome) :
    Result Unit × Iceoryx2Binding C :=
  let key := makeServiceKey serviceId instanceId
  let serviceName := makeServiceName serviceId instanceId
  if b.initialized = false then (fail .kNotInitialized 0,b)
  else if key ∈ b.subscribers then (.ok (),b)
  else if outcome.name = false then (fail .kInvalidArgument 0,b)
  else if outcome.service = false then (fail .kServiceNotAvailable 0,b)
  else if outcome.port = false then (fail .kServiceNotAvailable 0,b)
  else
    (.ok (),{ b with
      subscribers := b.subscribers.insert key
        ⟨serviceId,instanceId,eventId,callback,serviceName⟩ })

def unsubscribeEvent (b : Iceoryx2Binding C) (serviceId instanceId : BitVec 64)
    (_eventId : BitVec 32) : Result Unit × Iceoryx2Binding C :=
  (.ok (),{ b with subscribers := b.subscribers.erase (makeServiceKey serviceId instanceId) })

section Frame
variable (b : Iceoryx2Binding C)

@[simp] theorem initializeBinding_publishers (outcome : NodeOutcome) :
    (b.initializeBinding outcome).2.publishers = b.publishers := by
  unfold initializeBinding
  split_ifs <;> rfl

@[simp] theorem initializeBinding_subscribers (outcome : NodeOutcome) :
    (b.initializeBinding outcome).2.subscribers = b.subscribers := by
  unfold initializeBinding
  split_ifs <;> rfl

@[simp] theorem offerService_subscribers (s i : BitVec 64) (outcome : PortOutcome) :
    (b.offerService s i outcome).2.subscribers = b.subscribers := by
  unfold offerService
  dsimp only
  split_ifs <;> rfl

@[simp] theorem stopOfferService_subscribers (s i : BitVec 64) :
    (b.stopOfferService s i).2.subscribers = b.subscribers := rfl

@[simp] theorem sendEvent_publishers (s i : BitVec 64) (e : BitVec 32) (data : List Byte)
    (outcome : SendOutcome) : (b.sendEvent s i e data outcome).2.1.publishers = b.publishers := by
  unfold sendEvent
  cases b.publishers.lookup (makeServiceKey s i) with
  | none => split_ifs <;> rfl
  | some publisher => split_ifs <;> rfl

@[simp] theorem sendEvent_subscribers (s i : BitVec 64) (e : BitVec 32) (data : List Byte)
    (outcome : SendOutcome) :
    (b.sendEvent s i e data outcome).2.1.subscribers = b.subscribers := by
  unfold sendEvent
  cases b.publishers.lookup (makeServiceKey s i) with
  | none => split_ifs <;> rfl
  | some publisher => split_ifs <;> rfl

@[simp] theorem subscribeEvent_publishers (s i : BitVec 64) (e : BitVec 32) (callback : C)
    (outcome : PortOutcome) :
    (b.subscribeEvent s i e callback outcome).2.publishers = b.publishers := by
  unfold subscribeEvent
  dsimp only
  split_ifs <;> rfl

@[simp] theorem unsubscribeEvent_publishers (s i : BitVec 64) (e : BitVec 32) :
    (b.unsubscribeEvent s i e).2.publishers = b.publishers := rfl

@[simp] theorem offerService_initialized (s i : BitVec 64) (outcome : PortOutcome) :
    (b.offerService s i outcome).2.initialized = b.initialized := by
  unfold offerService
  dsimp only
  split_ifs <;> rfl

@[simp] theorem sendEvent_initialized (s i : BitVec 64) (e : BitVec 32) (data : List Byte)
    (outcome : SendOutcome) :
    (b.sendEvent s i e data outcome).2.1.initialized = b.initialized := by
  unfold sendEvent
  cases b.publishers.lookup (makeServiceKey s i) with
  | none => split_ifs <;> rfl
  | some publisher => split_ifs <;> rfl

@[simp] theorem subscribeEvent_initialized (s i : BitVec 64) (e : BitVec 32) (callback : C)
    (outcome : PortOutcome) :
    (b.subscribeEvent s i e callback outcome).2.initialized = b.initialized := by
  unfold subscribeEvent
  dsimp only
  split_ifs <;> rfl

end Frame

theorem subscribeEvent_lookup {b : Iceoryx2Binding C} {s i : BitVec 64} {e : BitVec 32}
    {callback : C} {outcome : PortOutcome} {key : BitVec 64} {w : SubscriberWrapper C}
    (h : (b.subscribeEvent s i e callback outcome).2.subscribers.lookup key = some w) :
    b.subscribers.lookup key = some w ∨
      ((b.subscribeEvent s i e callback outcome).1 = .ok () ∧ key = makeServiceKey s i ∧
        w = ⟨s,i,e,callback,makeServiceName s i⟩) := by
  unfold subscribeEvent at h ⊢
  dsimp only at h ⊢
  split_ifs at h ⊢
  iterate 5 exact .inl h
  exact (Dictionary.lookup_insert_cases h).imp_right fun hnew => ⟨rfl,hnew⟩

theorem offerService_lookup {b : Iceoryx2Binding C} {s i : BitVec 64} {outcome : PortOutcome}
    {key : BitVec 64} {w : PublisherWrapper}
    (h : (b.offerService s i outcome).2.publishers.lookup key = some w) :
    b.publishers.lookup key = some w ∨
      (key = makeServiceKey s i ∧ w = ⟨s,i,makeServiceName s i⟩) := by
  unfold offerService at h
  dsimp only at h
  split_ifs at h
  iterate 5 exact .inl h
  exact Dictionary.lookup_insert_cases h

theorem shutdown_publishers {b : Iceoryx2Binding C} {key : BitVec 64} {w : PublisherWrapper}
    (h : b.shutdown.2.publishers.lookup key = some w) : b.publishers.lookup key = some w := by
  unfold shutdown at h
  split_ifs at h
  · cases h
  · exact h

theorem shutdown_subscribers {b : Iceoryx2Binding C} {key : BitVec 64} {w : SubscriberWrapper C}
    (h : b.shutdown.2.subscribers.lookup key = some w) : b.subscribers.lookup key = some w := by
  unfold shutdown at h
  split_ifs at h
  · cases h
  · exact h

end Iceoryx2Binding

end LapCom.Iceoryx2
