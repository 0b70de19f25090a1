import LapCom.Dds.Binding
import LapCom.Machine.Run

set_option autoImplicit false

namespace LapCom.Dds
open LapCom.Container LapCom.Machine

/-- A call of the binding, or DDS calls its discovery listener. -/
inductive Call (C : Type) where
  | initializeBinding (outcome : EntityOutcome)
  | shutdown
  | offerService (serviceId instanceId : BitVec 64)
  | stopOfferService (serviceId instanceId : BitVec 64)
  | findService (serviceId : BitVec 64)
  | sendEvent (t : Triple) (data : List Byte) (outcome : SendOutcome)
  | subscribeEvent (t : Triple) (callback : C) (created : EndpointOutcome)
  | unsubscribeEvent (t : Triple)
  | onPublisherDiscovery (info : WriterDiscoveryInfo)

structure Done (C : Type) where
  result : Result Unit
  binding : DdsBinding C
  sample : Option Sample

section Exec
variable {C : Type}

def Done.of (done : Result Unit × DdsBinding C) : Done C := ⟨done.1,done.2,none⟩

def Call.exec (b : DdsBinding C) : Call C → Access (Done C)
  | .initializeBinding outcome => (b.initializeBinding outcome).map Done.of
  | .shutdown => b.shutdown.map Done.of
  | .offerService serviceId instanceId => (b.offerService serviceId instanceId).map Done.of
  | .stopOfferService serviceId instanceId => (b.stopOfferService serviceId instanceId).map Done.of
  | .findService serviceId => .ok ⟨(b.findService serviceId).map fun _ => (),b,none⟩
  | .sendEvent t data outcome =>
    (b.sendEvent t data outcome).map fun done => ⟨done.1,done.2.1,done.2.2⟩
  | .subscribeEvent t callback created => (b.subscribeEvent t callback created).map Done.of
  | .unsubscribeEvent t => (b.unsubscribeEvent t).map Done.of
  | .onPublisherDiscovery info =>
    .ok ⟨.ok (),{ b with
      discoveryListener := b.discoveryListener.map fun d => d.onPublisherDiscovery info },none⟩

/-- After a null pointer has been followed there is no binding. -/
def step : Option (DdsBinding C) → Call C → Option (DdsBinding C)
  | none, _ => none
  | some b, a =>
    match a.exec b with
    | .error _ => none
    | .ok done => some done.binding

abbrev bindingAt (σ : Nat → Call C) (k : Nat) : Option (DdsBinding C) :=
  stateAt step (some .new) σ k

def Call.UsesTopic : Call C → Prop
  | .sendEvent _ _ _ => True
  | .subscribeEvent _ _ _ => True
  | _ => False

structure Linked (b : DdsBinding C) : Prop where
  publisher : b.publisher = b.participant
  subscriber : b.subscriber = b.participant
  discoveryListener : b.discoveryListener.isSome = b.participant
  empty : b.participant = false → b.toEntities = .none

inductive Effect (b : DdsBinding C) : Call C → Done C → Prop
  | same {a : Call C} {done : Done C} (hmaps : done.binding.toEntities = b.toEntities)
      (hsample : done.sample = none) (hshutdown : a = .shutdown → b.toEntities = .none)
      (habsent : ∀ t, a = .unsubscribeEvent t → makeKey t ∉ b.readers) : Effect b a done
  | topic {a : Call C} {done : Done C} {t : Triple} (huses : a.UsesTopic)
      (hmaps : done.binding.toEntities = (b.addTopic t).toEntities)
      (hsample : done.sample = none) : Effect b a done
  | write {t : Triple} {data : List Byte} {outcome : SendOutcome} {done : Done C}
      {writer : DataWriter} (hwriter : b.writers.lookup (makeKey t) = some writer)
      (hmaps : done.binding.toEntities = b.toEntities)
      (hsample : done.sample = some ⟨writer.topic.name,⟨t,outcome.timestampNs,data⟩⟩) :
      Effect b (.sendEvent t data outcome) done
  | writer {t : Triple} {data : List Byte} {outcome : SendOutcome} {done : Done C} {topic : Topic}
      (htopic : (b.addTopic t).topics.lookup (makeKey t) = some topic)
      (hmaps : done.binding.toEntities = (b.addWriter t topic).toEntities)
      (hsample : done.sample = some ⟨topic.name,⟨t,outcome.timestampNs,data⟩⟩) :
      Effect b (.sendEvent t data outcome) done
  | reader {t : Triple} {callback : C} {created : EndpointOutcome} {done : Done C} {topic : Topic}
      (habsent : makeKey t ∉ b.readers)
      (htopic : (b.addTopic t).topics.lookup (makeKey t) = some topic)
      (hmaps : done.binding.toEntities = (b.addReader t callback topic).toEntities)
      (hresult : done.result = .ok ()) (hsample : done.sample = none) :
      Effect b (.subscribeEvent t callback created) done
  | unsubscribe {t : Triple} {done : Done C} (hmem : makeKey t ∈ b.readers)
      (hmaps : done.binding.toEntities = { b.toEntities with
        readers := b.readers.erase (makeKey t), listeners := b.listeners.erase (makeKey t)
        topics := b.topics.erase (makeKey t) })
      (hsample : done.sample = none) : Effect b (.unsubscribeEvent t) done
  | shutdown {done : Done C} (hmaps : done.binding.toEntities = .none)
      (hsample : done.sample = none) : Effect b .shutdown done

theorem Linked.new : Linked (DdsBinding.new : DdsBinding C) := ⟨rfl,rfl,rfl,fun _ => rfl⟩

namespace Linked
variable {b b' : DdsBinding C}

theorem change (h : Linked b) (hopen : b.participant = true)
    (hparticipant : b'.participant = b.participant) (hpublisher : b'.publisher = b.publisher)
    (hsubscriber : b'.subscriber = b.subscriber)
    (hlistener : b'.discoveryListener = b.discoveryListener) : Linked b' := by
  refine ⟨?_,?_,?_,fun hclosed => ?_⟩
  · rw [hpublisher,hparticipant,h.publisher]
  · rw [hsubscriber,hparticipant,h.subscriber]
  · rw [hlistener,hparticipant,h.discoveryListener]
  · rw [hparticipant,hopen] at hclosed
    cases hclosed

theorem readers_eq (h : Linked b) (hclosed : b.participant = false) : b.readers = ∅ :=
  congrArg Entities.readers (h.empty hclosed)

theorem open_of_mem (h : Linked b) {key : List Char} (hmem : key ∈ b.readers) :
    b.participant = true := by
  cases hp : b.participant with
  | true => rfl
  | false =>
    rw [h.readers_eq hp] at hmem
    exact absurd hmem (AList.notMem_empty key)

/-- Without a participant there is no writer and no topic, and `CreateTopic` needs one. -/
theorem getOrCreateTopic_closed (h : Linked b) (hclosed : b.participant = false) (t : Triple)
    (created : Bool) : b.getOrCreateTopic t created = .error .participant := by
  have htopics : b.topics = ∅ := congrArg Entities.topics (h.empty hclosed)
  simp [DdsBinding.getOrCreateTopic,DdsBinding.createTopic,htopics,hclosed]

theorem sendEvent_closed (h : Linked b) (hclosed : b.participant = false) (t : Triple)
    (data : List Byte) (outcome : SendOutcome) :
    b.sendEvent t data outcome = .error .participant := by
  have hwriters : b.writers = ∅ := congrArg Entities.writers (h.empty hclosed)
  simp [DdsBinding.sendEvent,DdsBinding.findOrCreateWriter,hwriters,
    h.getOrCreateTopic_closed hclosed]

theorem subscribeEvent_closed (h : Linked b) (hclosed : b.participant = false) (t : Triple)
    (callback : C) (created : EndpointOutcome) :
    b.subscribeEvent t callback created = .error .participant := by
  simp [DdsBinding.subscribeEvent,h.readers_eq hclosed,h.getOrCreateTopic_closed hclosed]

theorem initializeBinding_cases (h : Linked b) (outcome : EntityOutcome) :
    ∃ r, ∃ b', b.initializeBinding outcome = .ok (r,b') ∧ Linked b' ∧
      b'.toEntities = b.toEntities := by
  rw [DdsBinding.initializeBinding]
  cases hp : b.participant with
  | true => exact ⟨_,_,rfl,h,rfl⟩
  | false =>
    have hempty : b.toEntities = .none := h.empty hp
    have hpublisher : b.publisher = false := h.publisher.trans hp
    have hsubscriber : b.subscriber = false := h.subscriber.trans hp
    rcases outcome with ⟨_ | _,_ | _,_ | _⟩
    iterate 4 exact ⟨_,_,rfl,⟨hpublisher,hsubscriber,rfl,fun _ => hempty⟩,rfl⟩
    iterate 2 exact ⟨_,_,rfl,⟨rfl,hsubscriber,rfl,fun _ => hempty⟩,rfl⟩
    · exact ⟨_,_,rfl,⟨rfl,rfl,rfl,fun _ => hempty⟩,rfl⟩
    · exact ⟨_,_,rfl,⟨rfl,rfl,rfl,by simp⟩,rfl⟩

theorem sendEvent_of_writer {t : Triple} {outcome : SendOutcome} {writer : DataWriter}
    (h : b.findOrCreateWriter t outcome.created = .ok (some writer,b')) (data : List Byte) :
    ∃ r, ∃ m, (Call.sendEvent t data outcome).exec b = .ok ⟨r,{ b' with metrics := m },
      some ⟨writer.topic.name,⟨t,outcome.timestampNs,data⟩⟩⟩ := by
  cases hwrite : outcome.write with
  | false =>
    exact ⟨fail .kCommunicationLinkError 0,b'.metrics.dropped,
      by simp [Call.exec,DdsBinding.sendEvent,h,hwrite,Except.map]⟩
  | true =>
    exact ⟨.ok (),b'.metrics.sent data.length outcome.latencyNs,
      by simp [Call.exec,DdsBinding.sendEvent,h,hwrite,Except.map]⟩

theorem sendEvent_of_none {t : Triple} {outcome : SendOutcome}
    (h : b.findOrCreateWriter t outcome.created = .ok (none,b')) (data : List Byte) :
    (Call.sendEvent t data outcome).exec b =
      .ok ⟨fail .kBindingConnectionError 0,b',none⟩ := by
  simp [Call.exec,DdsBinding.sendEvent,h,Except.map]

theorem sendEvent_cases (h : Linked b) (hopen : b.participant = true) (t : Triple)
    (data : List Byte) (outcome : SendOutcome) :
    ∃ done, (Call.sendEvent t data outcome).exec b = .ok done ∧ Linked done.binding ∧
      Effect b (.sendEvent t data outcome) done := by
  rcases b.findOrCreateWriter_cases t outcome.created with
    ⟨-,hp | hp⟩ | ⟨writer,hlookup,heq⟩ | ⟨b',hb',heq⟩ | ⟨topic,htopic,heq⟩
  · simp [hopen] at hp
  · simp [h.publisher,hopen] at hp
  · obtain ⟨r,m,hexec⟩ := sendEvent_of_writer heq data
    exact ⟨_,hexec,h.change hopen rfl rfl rfl rfl,.write hlookup rfl rfl⟩
  · refine ⟨_,sendEvent_of_none heq data,?_⟩
    rcases hb' with rfl | rfl
    · exact ⟨h,.same rfl rfl (by simp) (by simp)⟩
    · exact ⟨h.change hopen rfl rfl rfl rfl,.topic trivial rfl rfl⟩
  · obtain ⟨r,m,hexec⟩ := sendEvent_of_writer heq data
    exact ⟨_,hexec,h.change hopen rfl rfl rfl rfl,.writer htopic rfl rfl⟩

theorem subscribeEvent_cases (h : Linked b) (hopen : b.participant = true) (t : Triple)
    (callback : C) (created : EndpointOutcome) :
    ∃ done, (Call.subscribeEvent t callback created).exec b = .ok done ∧ Linked done.binding ∧
      Effect b (.subscribeEvent t callback created) done := by
  rcases b.subscribeEvent_cases t callback created with
    ⟨-,hp | hp⟩ | ⟨hmem,heq⟩ | ⟨b',hb',heq⟩ | ⟨topic,habsent,htopic,heq⟩
  · simp [hopen] at hp
  · simp [h.subscriber,hopen] at hp
  · exact ⟨_,by rw [Call.exec,heq,Except.map],h,.same rfl rfl (by simp) (by simp)⟩
  · refine ⟨_,by rw [Call.exec,heq,Except.map],?_⟩
    rcases hb' with rfl | rfl
    · exact ⟨h,.same rfl rfl (by simp) (by simp)⟩
    · exact ⟨h.change hopen rfl rfl rfl rfl,.topic trivial rfl rfl⟩
  · exact ⟨_,by rw [Call.exec,heq,Except.map],h.change hopen rfl rfl rfl rfl,
      .reader habsent htopic rfl rfl rfl⟩

theorem shutdown_cases (h : Linked b) :
    ∃ done, Call.shutdown.exec b = .ok done ∧ Linked done.binding ∧ Effect b .shutdown done := by
  cases hp : b.participant with
  | false =>
    exact ⟨_,by rw [Call.exec,DdsBinding.shutdown,if_pos hp,Except.map],h,
      .same rfl rfl (fun _ => h.empty hp) (by simp)⟩
  | true =>
    have hpublisher : b.publisher = true := h.publisher.trans hp
    have hsubscriber : b.subscriber = true := h.subscriber.trans hp
    exact ⟨_,by rw [Call.exec,DdsBinding.shutdown,if_neg (by simp [hp]),
      if_neg (by simp [hsubscriber]),if_neg (by simp [hpublisher]),Except.map],
      ⟨rfl,rfl,rfl,fun _ => rfl⟩,.shutdown rfl rfl⟩

theorem unsubscribeEvent_cases (h : Linked b) (t : Triple) :
    ∃ done, (Call.unsubscribeEvent t).exec b = .ok done ∧ Linked done.binding ∧
      Effect b (.unsubscribeEvent t) done := by
  by_cases hmem : makeKey t ∈ b.readers
  · have hp := h.open_of_mem hmem
    have hsubscriber : b.subscriber = true := h.subscriber.trans hp
    exact ⟨_,by rw [Call.exec,DdsBinding.unsubscribeEvent,if_neg (by simpa using hmem),
      if_neg (by simp [hsubscriber]),if_neg (by simp [hp]),Except.map],
      h.change hp rfl rfl rfl rfl,.unsubscribe hmem rfl rfl⟩
  · refine ⟨_,by rw [Call.exec,DdsBinding.unsubscribeEvent,if_pos hmem,Except.map],h,
      .same rfl rfl (by simp) ?_⟩
    rintro t ⟨⟩
    exact hmem

/-- A call of a linked binding follows a null pointer only where it needs a topic. -/
theorem exec_cases (h : Linked b) (a : Call C) :
    (a.UsesTopic ∧ b.participant = false ∧ ∃ p, a.exec b = .error p) ∨
    ∃ done, a.exec b = .ok done ∧ Linked done.binding ∧ Effect b a done := by
  cases a with
  | initializeBinding outcome =>
    obtain ⟨r,b',heq,hb',hmaps⟩ := h.initializeBinding_cases outcome
    exact .inr ⟨_,by rw [Call.exec,heq,Except.map],hb',.same hmaps rfl (by simp) (by simp)⟩
  | shutdown => exact .inr h.shutdown_cases
  | offerService s i => exact .inr ⟨_,rfl,h,.same rfl rfl (by simp) (by simp)⟩
  | stopOfferService s i => exact .inr ⟨_,rfl,h,.same rfl rfl (by simp) (by simp)⟩
  | findService s => exact .inr ⟨_,rfl,h,.same rfl rfl (by simp) (by simp)⟩
  | sendEvent t data outcome =>
    cases hp : b.participant with
    | false =>
      exact .inl ⟨trivial,rfl,.participant,by rw [Call.exec,h.sendEvent_closed hp,Except.map]⟩
    | true => exact .inr (h.sendEvent_cases hp t data outcome)
  | subscribeEvent t callback created =>
    cases hp : b.participant with
    | false =>
      exact .inl ⟨trivial,rfl,.participant,by rw [Call.exec,h.subscribeEvent_closed hp,Except.map]⟩
    | true => exact .inr (h.subscribeEvent_cases hp t callback created)
  | unsubscribeEvent t => exact .inr (h.unsubscribeEvent_cases t)
  | onPublisherDiscovery info =>
    refine .inr ⟨_,rfl,⟨h.publisher,h.subscriber,?_,h.empty⟩,.same rfl rfl (by simp) (by simp)⟩
    rw [Option.isSome_map]
    exact h.discoveryListener

theorem step (h : Linked b) {a : Call C} (hstep : Dds.step (some b) a = some b') : Linked b' := by
  rcases h.exec_cases a with ⟨-,-,p,hexec⟩ | ⟨done,hexec,hlinked,-⟩
  · simp [Dds.step,hexec] at hstep
  · simp only [Dds.step,hexec,Option.some.injEq] at hstep
    rwa [← hstep]

end Linked

theorem bindingAt_succ (σ : Nat → Call C) (k : Nat) :
    bindingAt σ (k+1) = step (bindingAt σ k) (σ k) := rfl

theorem bindingAt_linked {σ : Nat → Call C} {k : Nat} {b : DdsBinding C}
    (h : bindingAt σ k = some b) : Linked b := by
  have hall : ∀ b, bindingAt σ k = some b → Linked b := by
    refine stateAt_invariant (n := k) (I := fun s => ∀ b, s = some b → Linked b)
      (C := fun _ _ => True) ?_ (fun _ _ => trivial) ?_ k (Nat.le_refl k)
    · rintro b ⟨⟩
      exact .new
    · rintro (_ | b₀) a hlinked - b hstep
      · cases hstep
      · exact (hlinked b₀ rfl).step hstep
  exact hall b h

/-- The call follows no null pointer. Where it needs a topic and the binding is not
initialised, it fails and leaves the maps as they are. -/
def Safe (b : DdsBinding C) (a : Call C) : Prop :=
  ∃ done, a.exec b = .ok done ∧ (a.UsesTopic → b.participant = false →
    (∃ e, done.result = .error e) ∧ done.binding.toEntities = b.toEntities)

def SafeAt (σ : Nat → Call C) (k : Nat) : Prop := ∃ b, bindingAt σ k = some b ∧ Safe b (σ k)

def InitializedAt (σ : Nat → Call C) (k : Nat) : Prop :=
  ∀ b, bindingAt σ k = some b → (σ k).UsesTopic → b.participant = true

theorem Linked.safe_iff {b : DdsBinding C} (h : Linked b) (a : Call C) :
    Safe b a ↔ (a.UsesTopic → b.participant = true) := by
  rcases h.exec_cases a with ⟨huses,hclosed,p,hexec⟩ | ⟨done,hexec,-,-⟩
  · constructor
    · rintro ⟨done,hdone,-⟩
      rw [hexec] at hdone
      cases hdone
    · intro hopen
      rw [hopen huses] at hclosed
      cases hclosed
  · constructor
    · intro _ huses
      by_contra hclosed
      rw [Bool.not_eq_true] at hclosed
      cases a with
      | sendEvent t data outcome =>
        rw [Call.exec,h.sendEvent_closed hclosed] at hexec
        cases hexec
      | subscribeEvent t callback created =>
        rw [Call.exec,h.subscribeEvent_closed hclosed] at hexec
        cases hexec
      | _ => exact huses
    · intro hopen
      refine ⟨done,hexec,fun huses hclosed => ?_⟩
      rw [hopen huses] at hclosed
      cases hclosed

end Exec

/-- The calls of a run are all safe if and only if none of them needs a topic while the binding
is not initialised. -/
theorem calls_safe_iff {C : Type} (σ : Nat → Call C) (n : Nat) :
    (∀ k, k < n → SafeAt σ k) ↔ ∀ k, k < n → InitializedAt σ k := by
  refine forall_iff_of_invariant (I := fun k => ∃ b, bindingAt σ k = some b) ⟨_,rfl⟩ ?_ ?_
  · rintro k ⟨b,hb⟩ hopen
    obtain ⟨done,hexec,-⟩ := ((bindingAt_linked hb).safe_iff (σ k)).mpr (hopen b hb)
    refine ⟨done.binding,?_⟩
    rw [bindingAt_succ,hb]
    simp only [step,hexec]
  · rintro k ⟨b,hb⟩
    rw [InitializedAt,SafeAt,hb]
    simpa using (bindingAt_linked hb).safe_iff (σ k)

/-- An event is sent before `Initialize`. -/
theorem send_unsafe :
    ¬ SafeAt (fun _ => (.sendEvent ⟨1,1,1⟩ [] ⟨⟨true,true⟩,true,0,0⟩ : Call Unit)) 0 := by
  rintro ⟨b,hb,hsafe⟩
  have hopen := (((bindingAt_linked hb).safe_iff _).mp hsafe) trivial
  obtain rfl : DdsBinding.new = b := Option.some.inj hb
  cases hopen

/-- Every writer and every reader has its topic in the map, every reader its listener. -/
structure Consistent {C : Type} (b : DdsBinding C) : Prop where
  topics : ∀ key, key ∈ b.writers ∨ key ∈ b.readers → key ∈ b.topics
  listeners : ∀ key, key ∈ b.listeners ↔ key ∈ b.readers

def EndsAlone {C : Type} (b : DdsBinding C) : Call C → Prop
  | .unsubscribeEvent t => makeKey t ∈ b.readers → makeKey t ∉ b.writers
  | _ => True

section Maps
variable {C : Type} {b : DdsBinding C} {a : Call C} {done : Done C}

theorem Consistent.of_maps {b' : DdsBinding C} (h : Consistent b)
    (hmaps : b'.toEntities = b.toEntities) : Consistent b' := by
  have htopics := congrArg Entities.topics hmaps
  have hwriters := congrArg Entities.writers hmaps
  have hreaders := congrArg Entities.readers hmaps
  have hlisteners := congrArg Entities.listeners hmaps
  refine ⟨fun key => ?_,fun key => ?_⟩
  · rw [htopics,hwriters,hreaders]
    exact h.topics key
  · rw [hlisteners,hreaders]
    exact h.listeners key

theorem Consistent.addTopic (h : Consistent b) (t : Triple) : Consistent (b.addTopic t) :=
  ⟨fun key hkey => DdsBinding.mem_addTopic.mpr (.inr (h.topics key hkey)),h.listeners⟩

theorem Consistent.addWriter (h : Consistent b) (t : Triple) (topic : Topic) :
    Consistent (b.addWriter t topic) := by
  refine ⟨fun key hkey => DdsBinding.mem_addTopic.mpr ?_,h.listeners⟩
  rcases hkey with hkey | hkey
  · rcases (AList.mem_insert _).mp hkey with hkey | hkey
    · exact .inl hkey
    · exact .inr (h.topics key (.inl hkey))
  · exact .inr (h.topics key (.inr hkey))

theorem Consistent.addReader (h : Consistent b) (t : Triple) (callback : C) (topic : Topic) :
    Consistent (b.addReader t callback topic) := by
  constructor
  · intro key hkey
    refine DdsBinding.mem_addTopic.mpr ?_
    rcases hkey with hkey | hkey
    · exact .inr (h.topics key (.inl hkey))
    · rcases (AList.mem_insert _).mp hkey with hkey | hkey
      · exact .inl hkey
      · exact .inr (h.topics key (.inr hkey))
  · intro key
    exact (AList.mem_insert _).trans ((or_congr_right (h.listeners key)).trans
      (AList.mem_insert _).symm)

/-- Only the end of a subscription can take the topic of a writer away. -/
theorem Consistent.effect_iff (h : Consistent b) (heffect : Effect b a done) :
    Consistent done.binding ↔ EndsAlone b a := by
  cases heffect with
  | same hmaps _ _ habsent =>
    refine iff_of_true (h.of_maps hmaps) ?_
    cases a with
    | unsubscribeEvent t => exact fun hmem => absurd hmem (habsent t rfl)
    | _ => trivial
  | @topic a done t huses hmaps =>
    refine iff_of_true ((h.addTopic t).of_maps hmaps) ?_
    cases a with
    | unsubscribeEvent t => exact huses.elim
    | _ => trivial
  | write _ hmaps => exact iff_of_true (h.of_maps hmaps) trivial
  | writer _ hmaps => exact iff_of_true ((h.addWriter _ _).of_maps hmaps) trivial
  | reader _ _ hmaps => exact iff_of_true ((h.addReader _ _ _).of_maps hmaps) trivial
  | @unsubscribe t done hmem hmaps =>
    have htopics := congrArg Entities.topics hmaps
    have hwriters := congrArg Entities.writers hmaps
    have hreaders := congrArg Entities.readers hmaps
    have hlisteners := congrArg Entities.listeners hmaps
    constructor
    · intro hafter _ hwriter
      have htopic := hafter.topics (makeKey t) (.inl (by rw [hwriters]; exact hwriter))
      rw [htopics] at htopic
      exact (AList.mem_erase.mp htopic).1 rfl
    · intro halone
      constructor
      · intro key hkey
        rw [hwriters,hreaders] at hkey
        rw [htopics]
        refine AList.mem_erase.mpr ?_
        rcases hkey with hkey | hkey
        · refine ⟨?_,h.topics key (.inl hkey)⟩
          rintro rfl
          exact halone hmem hkey
        · exact ⟨(AList.mem_erase.mp hkey).1,h.topics key (.inr (AList.mem_erase.mp hkey).2)⟩
      · intro key
        rw [hlisteners,hreaders]
        exact AList.mem_erase.trans ((and_congr_right fun _ => h.listeners key).trans
          AList.mem_erase.symm)
  | shutdown hmaps =>
    refine iff_of_true ⟨fun key hkey => ?_,fun key => ?_⟩ trivial
    · rw [congrArg Entities.writers hmaps,congrArg Entities.readers hmaps] at hkey
      rcases hkey with hkey | hkey
      · exact absurd hkey (AList.notMem_empty key)
      · exact absurd hkey (AList.notMem_empty key)
    · rw [congrArg Entities.listeners hmaps,congrArg Entities.readers hmaps]
      exact Iff.rfl

end Maps

/-- The maps are consistent in every state of a run if and only if every subscription that it
ends is to an event for which the binding has no writer. -/
theorem entities_consistent_iff {C : Type} (σ : Nat → Call C) (n : Nat) :
    (∀ k, k ≤ n → ∀ b, bindingAt σ k = some b → Consistent b) ↔
      ∀ k, k < n → ∀ b, bindingAt σ k = some b → EndsAlone b (σ k) := by
  have hinitial : ∀ b, bindingAt σ 0 = some b → Consistent b := by
    rintro b ⟨⟩
    exact ⟨by simp [DdsBinding.new,Entities.none],fun _ => Iff.rfl⟩
  have hstep (k : Nat) (h : ∀ b, bindingAt σ k = some b → Consistent b) :
      (∀ b, bindingAt σ (k+1) = some b → Consistent b) ↔
        ∀ b, bindingAt σ k = some b → EndsAlone b (σ k) := by
    rw [bindingAt_succ]
    cases hb : bindingAt σ k with
    | none => simp [step]
    | some b =>
      rcases (bindingAt_linked hb).exec_cases (σ k) with ⟨huses,-,p,hexec⟩ | ⟨done,hexec,-,heffect⟩
      · refine iff_of_true (by simp [step,hexec]) ?_
        rintro b ⟨⟩
        cases he : σ k with
        | unsubscribeEvent t =>
          rw [he] at huses
          exact huses.elim
        | _ => trivial
      · simpa [step,hexec] using (h b hb).effect_iff heffect
  exact holds_iff_of_step hinitial hstep

def sendAndEnd (t : Triple) : Nat → Call Unit :=
  schedule [.initializeBinding ⟨true,true,true⟩,.sendEvent t [] ⟨⟨true,true⟩,true,0,0⟩,
    .subscribeEvent t () ⟨true,true⟩] (.unsubscribeEvent t)

/-- The writer is left without its topic. -/
theorem writer_outlives_topic :
    ∃ b, bindingAt (sendAndEnd ⟨1,1,1⟩) 4 = some b ∧ ¬ Consistent b := by
  have hkeys : (bindingAt (sendAndEnd ⟨1,1,1⟩) 4).map (fun b =>
      (decide (makeKey ⟨1,1,1⟩ ∈ b.writers),decide (makeKey ⟨1,1,1⟩ ∈ b.topics))) =
        some (true,false) := by
    decide +kernel
  obtain ⟨b,hb,hkeys⟩ := Option.map_eq_some_iff.mp hkeys
  obtain ⟨hwriter,htopic⟩ := Prod.mk.inj hkeys
  exact ⟨b,hb,fun h =>
    of_decide_eq_false htopic (h.topics _ (.inl (of_decide_eq_true hwriter)))⟩

end LapCom.Dds
