import LapCom.ComTypes
import LapCom.Container.Dictionary
import LapCom.Dds.Discovery

set_option autoImplicit false

namespace LapCom.Dds
open LapCom.Container LapCom.Text

/-- The counters of `TransportMetrics` that the binding writes, without the average, which
goes through a `double`. -/
structure TransportMetrics where
  messagesSent : BitVec 64
  messagesReceived : BitVec 64
  messagesDropped : BitVec 64
  maxLatencyNs : BitVec 64
  minLatencyNs : BitVec 64
  bytesSent : BitVec 64
  bytesReceived : BitVec 64

namespace TransportMetrics

def initial : TransportMetrics :=
  { messagesSent := 0, messagesReceived := 0, messagesDropped := 0, maxLatencyNs := 0
    minLatencyNs := -1, bytesSent := 0, bytesReceived := 0 }

def sent (m : TransportMetrics) (size : Nat) (latencyNs : BitVec 64) : TransportMetrics :=
  let count := m.messagesSent+1
  { m with
    messagesSent := count
    bytesSent := m.bytesSent+BitVec.ofNat 64 size
    minLatencyNs := if count = 1 || latencyNs < m.minLatencyNs then latencyNs else m.minLatencyNs
    maxLatencyNs := if count = 1 || m.maxLatencyNs < latencyNs then latencyNs else m.maxLatencyNs }

def dropped (m : TransportMetrics) : TransportMetrics :=
  { m with messagesDropped := m.messagesDropped+1 }

def received (m : TransportMetrics) (size : Nat) : TransportMetrics :=
  { m with
    messagesReceived := m.messagesReceived+1
    bytesReceived := m.bytesReceived+BitVec.ofNat 64 size }

end TransportMetrics

structure Triple where
  serviceId : BitVec 64
  instanceId : BitVec 64
  eventId : BitVec 32
  deriving DecidableEq

structure LapComMessage where
  triple : Triple
  timestampNs : BitVec 64
  payload : List Byte

structure Topic where
  name : List Char
  deriving DecidableEq

structure DataWriter where
  topic : Topic
  deriving DecidableEq

/-- `C` stands for the callbacks. -/
structure DdsReaderListener (C : Type) where
  callback : C

structure DataReader (C : Type) where
  topic : Topic
  listener : DdsReaderListener C

/-- What a writer writes, with the name of the topic that it was created on. -/
structure Sample where
  topicName : List Char
  message : LapComMessage

structure EntityOutcome where
  participant : Bool
  publisher : Bool
  subscriber : Bool

structure EndpointOutcome where
  topic : Bool
  endpoint : Bool

/-- Which calls of `SendEvent` succeed, and what the clock says. -/
structure SendOutcome where
  created : EndpointOutcome
  write : Bool
  timestampNs : BitVec 64
  latencyNs : BitVec 64

/-- The members that a call can follow while they are null. -/
inductive NullPointer where
  | participant
  | publisher
  | subscriber
  | discoveryListener
  deriving DecidableEq

/-- A computation that ends at the first null pointer it follows. -/
abbrev Access (A : Type) := Except NullPointer A

structure Entities (C : Type) where
  topics : Dictionary (List Char) Topic
  writers : Dictionary (List Char) DataWriter
  readers : Dictionary (List Char) (DataReader C)
  listeners : Dictionary (List Char) (DdsReaderListener C)

def Entities.none {C : Type} : Entities C := ⟨∅,∅,∅,∅⟩

/-- The first three members say whether the pointers are not null. -/
structure DdsBinding (C : Type) extends Entities C where
  participant : Bool
  publisher : Bool
  subscriber : Bool
  discoveryListener : Option DdsDiscoveryListener
  metrics : TransportMetrics

def makeKey (t : Triple) : List Char :=
  hex t.serviceId.toNat++ '_' :: (hex t.instanceId.toNat++ '_' :: hex t.eventId.toNat)

def Triple.topicName (t : Triple) : List Char :=
  createTopicName t.serviceId t.instanceId t.eventId

/-- The instance that `FindService` reads from the key of a writer. -/
def localInstance (key : List Char) (serviceId : BitVec 64) : Option (BitVec 64) :=
  match find key '_' 0 with
  | none => none
  | some first =>
    match stoull (substr key 0 first) with
    | .error _ => none
    | .ok sid =>
      if sid = serviceId then
        match find key '_' (first+1) with
        | none => none
        | some second => (stoull (substr key (first+1) (second-first-1))).toOption
      else none

namespace DdsBinding
variable {C : Type}

def new : DdsBinding C :=
  { Entities.none with
    participant := false, publisher := false, subscriber := false, discoveryListener := none
    metrics := .initial }

def initializeBinding (b : DdsBinding C) (outcome : EntityOutcome) :
    Access (Result Unit × DdsBinding C) :=
  if b.participant then .ok (.ok (),b)
  else if outcome.participant = false then
    .ok (fail .kNotInitialized 0,{ b with discoveryListener := none })
  else if outcome.publisher = false then
    .ok (fail .kNotInitialized 0,
      { b with participant := false, publisher := false, discoveryListener := none })
  else if outcome.subscriber = false then
    .ok (fail .kNotInitialized 0,{ b with
      participant := false, publisher := false, subscriber := false, discoveryListener := none })
  else
    .ok (.ok (),{ b with
      participant := true, publisher := true, subscriber := true
      discoveryListener := some .initial })

def shutdown (b : DdsBinding C) : Access (Result Unit × DdsBinding C) :=
  if b.participant = false then .ok (.ok (),b)
  else if b.readers.keys ≠ [] ∧ b.subscriber = false then .error .subscriber
  else if b.writers.keys ≠ [] ∧ b.publisher = false then .error .publisher
  else
    .ok (.ok (),{ b with
      topics := ∅, writers := ∅, readers := ∅, listeners := ∅, participant := false
      publisher := false, subscriber := false, discoveryListener := none })

def offerService (b : DdsBinding C) (_serviceId _instanceId : BitVec 64) :
    Access (Result Unit × DdsBinding C) := .ok (.ok (),b)

def stopOfferService (b : DdsBinding C) (_serviceId _instanceId : BitVec 64) :
    Access (Result Unit × DdsBinding C) := .ok (.ok (),b)

def findService (b : DdsBinding C) (serviceId : BitVec 64) : Result (Finset (BitVec 64)) :=
  match b.discoveryListener with
  | none => fail .kNotInitialized 0
  | some listener =>
    let instances := listener.getDiscoveredInstances serviceId
    let found := b.writers.keys.filterMap fun key => localInstance key serviceId
    .ok (instances ∪ found.toFinset)

def createTopic (b : DdsBinding C) (t : Triple) (created : Bool) : Access (Option Topic) :=
  if b.participant then .ok (if created then some ⟨t.topicName⟩ else none)
  else .error .participant

def getOrCreateTopic (b : DdsBinding C) (t : Triple) (created : Bool) :
    Access (Option Topic × DdsBinding C) :=
  match b.topics.lookup (makeKey t) with
  | some topic => .ok (some topic,b)
  | none =>
    match b.createTopic t created with
    | .error p => .error p
    | .ok none => .ok (none,b)
    | .ok (some topic) =>
      .ok (some topic,{ b with topics := b.topics.insert (makeKey t) topic })

def createWriter (b : DdsBinding C) (topic : Topic) (created : Bool) :
    Access (Option DataWriter) :=
  if b.publisher then .ok (if created then some ⟨topic⟩ else none)
  else .error .publisher

def createReader (b : DdsBinding C) (topic : Topic) (key : List Char) (callback : C)
    (created : Bool) : Access (Option (DataReader C) × DdsBinding C) :=
  let listener : DdsReaderListener C := ⟨callback⟩
  if b.subscriber = false then .error .subscriber
  else if created then
    .ok (some ⟨topic,listener⟩,{ b with listeners := b.listeners.insert key listener })
  else .ok (none,b)

def findOrCreateWriter (b : DdsBinding C) (t : Triple) (created : EndpointOutcome) :
    Access (Option DataWriter × DdsBinding C) :=
  match b.writers.lookup (makeKey t) with
  | some writer => .ok (some writer,b)
  | none =>
    match b.getOrCreateTopic t created.topic with
    | .error p => .error p
    | .ok (none,b) => .ok (none,b)
    | .ok (some topic,b) =>
      match b.createWriter topic created.endpoint with
      | .error p => .error p
      | .ok none => .ok (none,b)
      | .ok (some writer) =>
        .ok (some writer,{ b with writers := b.writers.insert (makeKey t) writer })

/-- The sample is what `write` is given, whether or not it reports success. -/
def sendEvent (b : DdsBinding C) (t : Triple) (data : List Byte) (outcome : SendOutcome) :
    Access (Result Unit × DdsBinding C × Option Sample) :=
  match b.findOrCreateWriter t outcome.created with
  | .error p => .error p
  | .ok (none,b) => .ok (fail .kBindingConnectionError 0,b,none)
  | .ok (some writer,b) =>
    let sample : Sample := ⟨writer.topic.name,⟨t,outcome.timestampNs,data⟩⟩
    if outcome.write then
      .ok (.ok (),{ b with metrics := b.metrics.sent data.length outcome.latencyNs },some sample)
    else .ok (fail .kCommunicationLinkError 0,{ b with metrics := b.metrics.dropped },some sample)

def subscribeEvent (b : DdsBinding C) (t : Triple) (callback : C) (created : EndpointOutcome) :
    Access (Result Unit × DdsBinding C) :=
  if makeKey t ∈ b.readers then .ok (.ok (),b)
  else
    match b.getOrCreateTopic t created.topic with
    | .error p => .error p
    | .ok (none,b) => .ok (fail .kBindingConnectionError 0,b)
    | .ok (some topic,b) =>
      match b.createReader topic (makeKey t) callback created.endpoint with
      | .error p => .error p
      | .ok (none,b) => .ok (fail .kBindingConnectionError 0,b)
      | .ok (some reader,b) =>
        .ok (.ok (),{ b with readers := b.readers.insert (makeKey t) reader })

def unsubscribeEvent (b : DdsBinding C) (t : Triple) : Access (Result Unit × DdsBinding C) :=
  let key := makeKey t
  if key ∉ b.readers then .ok (.ok (),b)
  else if b.subscriber = false then .error .subscriber
  else if key ∈ b.topics ∧ b.participant = false then .error .participant
  else
    .ok (.ok (),{ b with
      readers := b.readers.erase key, listeners := b.listeners.erase key
      topics := b.topics.erase key })

def addTopic (b : DdsBinding C) (t : Triple) : DdsBinding C :=
  { b with
    topics := if makeKey t ∈ b.topics then b.topics
      else b.topics.insert (makeKey t) ⟨t.topicName⟩ }

def addWriter (b : DdsBinding C) (t : Triple) (topic : Topic) : DdsBinding C :=
  { b.addTopic t with writers := b.writers.insert (makeKey t) ⟨topic⟩ }

def addReader (b : DdsBinding C) (t : Triple) (callback : C) (topic : Topic) : DdsBinding C :=
  { b.addTopic t with
    readers := b.readers.insert (makeKey t) ⟨topic,⟨callback⟩⟩
    listeners := b.listeners.insert (makeKey t) ⟨callback⟩ }

section Topics
variable {b : DdsBinding C} {t : Triple} {key : List Char} {topic : Topic}

theorem mem_addTopic : key ∈ (b.addTopic t).topics ↔ key = makeKey t ∨ key ∈ b.topics := by
  rw [addTopic]
  split_ifs with h
  · constructor
    · exact .inr
    · rintro (rfl | hkey)
      · exact h
      · exact hkey
  · exact AList.mem_insert _

theorem addTopic_lookup (h : (b.addTopic t).topics.lookup key = some topic) :
    b.topics.lookup key = some topic ∨ (key = makeKey t ∧ topic = ⟨t.topicName⟩) := by
  rw [addTopic] at h
  split_ifs at h
  · exact .inl h
  · exact Dictionary.lookup_insert_cases h

theorem addTopic_of_lookup (h : b.topics.lookup (makeKey t) = some topic) : b.addTopic t = b := by
  rw [addTopic,if_pos (Dictionary.mem_of_lookup h)]

theorem addTopic_of_absent (h : b.topics.lookup (makeKey t) = none) :
    b.addTopic t = { b with topics := b.topics.insert (makeKey t) ⟨t.topicName⟩ } := by
  rw [addTopic,if_neg (AList.lookup_eq_none.mp h)]

end Topics

section Cases
variable (b : DdsBinding C) (t : Triple)

theorem getOrCreateTopic_cases (created : Bool) :
    (b.participant = false ∧ b.getOrCreateTopic t created = .error .participant) ∨
    b.getOrCreateTopic t created = .ok (none,b) ∨
    ∃ topic, (b.addTopic t).topics.lookup (makeKey t) = some topic ∧
      b.getOrCreateTopic t created = .ok (some topic,b.addTopic t) := by
  rw [getOrCreateTopic]
  cases hlookup : b.topics.lookup (makeKey t) with
  | some topic =>
    rw [addTopic_of_lookup hlookup]
    exact .inr (.inr ⟨topic,hlookup,rfl⟩)
  | none =>
    cases hp : b.participant with
    | false => exact .inl ⟨rfl,by simp [createTopic,hp]⟩
    | true =>
      cases created with
      | false => exact .inr (.inl (by simp [createTopic,hp]))
      | true =>
        rw [addTopic_of_absent hlookup]
        exact .inr (.inr ⟨⟨t.topicName⟩,AList.lookup_insert _,by simp [createTopic,hp]⟩)

theorem findOrCreateWriter_cases (created : EndpointOutcome) :
    ((∃ p, b.findOrCreateWriter t created = .error p) ∧
      (b.participant = false ∨ b.publisher = false)) ∨
    (∃ writer, b.writers.lookup (makeKey t) = some writer ∧
      b.findOrCreateWriter t created = .ok (some writer,b)) ∨
    (∃ b', (b' = b ∨ b' = b.addTopic t) ∧ b.findOrCreateWriter t created = .ok (none,b')) ∨
    ∃ topic, (b.addTopic t).topics.lookup (makeKey t) = some topic ∧
      b.findOrCreateWriter t created = .ok (some ⟨topic⟩,b.addWriter t topic) := by
  rw [findOrCreateWriter]
  cases hlookup : b.writers.lookup (makeKey t) with
  | some writer => exact .inr (.inl ⟨writer,rfl,rfl⟩)
  | none =>
    rcases b.getOrCreateTopic_cases t created.topic with ⟨hp,heq⟩ | heq | ⟨topic,htopic,heq⟩
    · exact .inl ⟨⟨_,by rw [heq]⟩,.inl hp⟩
    · exact .inr (.inr (.inl ⟨b,.inl rfl,by rw [heq]⟩))
    · cases hp : b.publisher with
      | false => exact .inl ⟨⟨.publisher,by simp [heq,createWriter,addTopic,hp]⟩,.inr rfl⟩
      | true =>
        cases hcreated : created.endpoint with
        | false =>
          exact .inr (.inr (.inl
            ⟨_,.inr rfl,by simp [heq,createWriter,addTopic,hp]⟩))
        | true =>
          exact .inr (.inr (.inr
            ⟨topic,htopic,by simp [heq,createWriter,addTopic,addWriter,hp]⟩))

theorem subscribeEvent_cases (callback : C) (created : EndpointOutcome) :
    ((∃ p, b.subscribeEvent t callback created = .error p) ∧
      (b.participant = false ∨ b.subscriber = false)) ∨
    (makeKey t ∈ b.readers ∧ b.subscribeEvent t callback created = .ok (.ok (),b)) ∨
    (∃ b', (b' = b ∨ b' = b.addTopic t) ∧ b.subscribeEvent t callback created =
      .ok (fail .kBindingConnectionError 0,b')) ∨
    ∃ topic, makeKey t ∉ b.readers ∧ (b.addTopic t).topics.lookup (makeKey t) = some topic ∧
      b.subscribeEvent t callback created = .ok (.ok (),b.addReader t callback topic) := by
  rw [subscribeEvent]
  by_cases hmem : makeKey t ∈ b.readers
  · exact .inr (.inl ⟨hmem,if_pos hmem⟩)
  · rw [if_neg hmem]
    rcases b.getOrCreateTopic_cases t created.topic with ⟨hp,heq⟩ | heq | ⟨topic,htopic,heq⟩
    · exact .inl ⟨⟨_,by rw [heq]⟩,.inl hp⟩
    · exact .inr (.inr (.inl ⟨b,.inl rfl,by rw [heq]⟩))
    · cases hs : b.subscriber with
      | false => exact .inl ⟨⟨.subscriber,by simp [heq,createReader,addTopic,hs]⟩,.inr rfl⟩
      | true =>
        cases hcreated : created.endpoint with
        | false =>
          exact .inr (.inr (.inl ⟨_,.inr rfl,by simp [heq,createReader,addTopic,hs]⟩))
        | true =>
          exact .inr (.inr (.inr
            ⟨topic,hmem,htopic,by simp [heq,createReader,addTopic,addReader,hs]⟩))

end Cases

end DdsBinding

end LapCom.Dds
