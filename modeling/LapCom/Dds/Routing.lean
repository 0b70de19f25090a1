import LapCom.Dds.Entities

set_option autoImplicit false

namespace LapCom.Dds
open LapCom.Container LapCom.Machine LapCom.Text

theorem Triple.eq_of_ids {t t' : Triple} (h : t.serviceId.toNat = t'.serviceId.toNat ∧
    t.instanceId.toNat = t'.instanceId.toNat ∧ t.eventId.toNat = t'.eventId.toNat) : t = t' := by
  obtain ⟨s,i,e⟩ := t
  obtain ⟨s',i',e'⟩ := t'
  obtain ⟨hs,hi,he⟩ := h
  obtain rfl : s = s' := BitVec.eq_of_toNat_eq hs
  obtain rfl : i = i' := BitVec.eq_of_toNat_eq hi
  obtain rfl : e = e' := BitVec.eq_of_toNat_eq he
  rfl

theorem makeKey_injective : Function.Injective makeKey := fun _ _ h =>
  Triple.eq_of_ids (hex_separated (a := '_') rfl h)

theorem topicName_injective : Function.Injective Triple.topicName := fun _ _ h =>
  Triple.eq_of_ids (hex_separated (a := '/') rfl (List.append_cancel_left h))

/-- A call of one binding, or a reader of it takes a sample: the `n`-th that was ever
written. -/
inductive Event (C : Type) where
  | call (i : Nat) (a : Call C)
  | receive (i : Nat) (key : List Char) (n : Nat)

/-- The bindings, gone where one has followed a null pointer, and all samples that they have
written. -/
structure System (C : Type) where
  bindings : Nat → Option (DdsBinding C)
  samples : List Sample

structure Invocation (C : Type) where
  callback : C
  triple : Triple
  data : List Byte

section Step
variable {C : Type}

/-- `taken` is the sample of `take_next_sample`, if there is one and it is valid. -/
def DdsReaderListener.onDataAvailable (listener : DdsReaderListener C)
    (taken : Option LapComMessage) : Option (Invocation C) :=
  taken.map fun msg => ⟨listener.callback,msg.triple,msg.payload⟩

namespace System

def initial : System C := ⟨fun _ => some .new,[]⟩

/-- A reader takes samples of writers on a topic of the same name. -/
def taken (s : System C) (reader : DataReader C) (n : Nat) : Option LapComMessage :=
  match s.samples[n]? with
  | none => none
  | some sample => if sample.topicName = reader.topic.name then some sample.message else none

def invoked (s : System C) : Event C → Option (Invocation C)
  | .call _ _ => none
  | .receive i key n =>
    match s.bindings i with
    | none => none
    | some b =>
      match b.readers.lookup key with
      | none => none
      | some reader => reader.listener.onDataAvailable (s.taken reader n)

def step (s : System C) : Event C → System C
  | .call i a =>
    match s.bindings i with
    | none => s
    | some b =>
      match a.exec b with
      | .error _ => { s with bindings := Function.update s.bindings i none }
      | .ok done =>
        { bindings := Function.update s.bindings i (some done.binding)
          samples := s.samples++done.sample.toList }
  | .receive i key n =>
    match s.bindings i,s.invoked (.receive i key n) with
    | some b,some x =>
      { s with
        bindings := Function.update s.bindings i
          (some { b with metrics := b.metrics.received x.data.length }) }
    | _,_ => s

end System

abbrev systemAt (σ : Nat → Event C) (k : Nat) : System C := stateAt System.step .initial σ k

/-- The `j`-th step subscribes the `i`-th binding to `t`, and that creates `reader`. -/
def CreatesReader (σ : Nat → Event C) (i : Nat) (t : Triple) (callback : C) (j : Nat)
    (reader : DataReader C) : Prop :=
  ∃ b created done, (systemAt σ j).bindings i = some b ∧
    σ j = .call i (.subscribeEvent t callback created) ∧
    (Call.subscribeEvent t callback created).exec b = .ok done ∧ done.result = .ok () ∧
    makeKey t ∉ b.readers ∧ done.binding.readers.lookup (makeKey t) = some reader

def Uncancelled (σ : Nat → Event C) (i : Nat) (t : Triple) (j k : Nat) : Prop :=
  ∀ l, j < l → l < k → σ l ≠ .call i (.unsubscribeEvent t) ∧ σ l ≠ .call i .shutdown

def SentBefore (σ : Nat → Event C) (k : Nat) (t : Triple) (data : List Byte) : Prop :=
  ∃ j, j < k ∧ ∃ i outcome b done, σ j = .call i (.sendEvent t data outcome) ∧
    (systemAt σ j).bindings i = some b ∧
    (Call.sendEvent t data outcome).exec b = .ok done ∧ done.sample.isSome

theorem Uncancelled.start (σ : Nat → Event C) (i : Nat) (t : Triple) (j : Nat) :
    Uncancelled σ i t j (j+1) := by
  intro l hjl hlj
  omega

theorem Uncancelled.succ {σ : Nat → Event C} {i : Nat} {t : Triple} {j k : Nat}
    (h : Uncancelled σ i t j k)
    (hne : σ k ≠ .call i (.unsubscribeEvent t) ∧ σ k ≠ .call i .shutdown) :
    Uncancelled σ i t j (k+1) := by
  intro l hjl hlk
  rcases Nat.lt_or_eq_of_le (Nat.lt_succ_iff.mp hlk) with hlk | rfl
  · exact h l hjl hlk
  · exact hne

theorem Uncancelled.before {σ : Nat → Event C} {i : Nat} {t : Triple} {j k : Nat}
    (h : Uncancelled σ i t j (k+1)) : Uncancelled σ i t j k :=
  fun l hjl hlk => h l hjl (by omega)

theorem SentBefore.succ {σ : Nat → Event C} {k : Nat} {t : Triple} {data : List Byte}
    (h : SentBefore σ k t data) : SentBefore σ (k+1) t data := by
  obtain ⟨j,hj,hsent⟩ := h
  exact ⟨j,by omega,hsent⟩

def NamedUnder (topic : Topic) (key : List Char) : Prop :=
  ∃ t : Triple, key = makeKey t ∧ topic.name = t.topicName

structure Named (b : DdsBinding C) : Prop where
  topics : ∀ key topic, b.topics.lookup key = some topic → NamedUnder topic key
  writers : ∀ key writer, b.writers.lookup key = some writer → NamedUnder writer.topic key
  readers : ∀ key reader, b.readers.lookup key = some reader →
    NamedUnder reader.topic key ∧ b.listeners.lookup key = some reader.listener

theorem NamedUnder.name_eq {topic : Topic} {t : Triple} (h : NamedUnder topic (makeKey t)) :
    topic.name = t.topicName := by
  obtain ⟨t',hkey,hname⟩ := h
  rw [hname,makeKey_injective hkey]

theorem Named.new : Named (DdsBinding.new : DdsBinding C) := by
  constructor
  · rintro key topic ⟨⟩
  · rintro key writer ⟨⟩
  · rintro key reader ⟨⟩

section Effect
variable {b b' : DdsBinding C} {a : Call C} {done : Done C} {t : Triple} {topic : Topic}

theorem Named.of_maps (h : Named b) (hmaps : b'.toEntities = b.toEntities) : Named b' := by
  have htopics := congrArg Entities.topics hmaps
  have hwriters := congrArg Entities.writers hmaps
  have hreaders := congrArg Entities.readers hmaps
  have hlisteners := congrArg Entities.listeners hmaps
  constructor
  · rw [htopics]
    exact h.topics
  · rw [hwriters]
    exact h.writers
  · rw [hreaders,hlisteners]
    exact h.readers

theorem Named.addTopic (h : Named b) (t : Triple) : Named (b.addTopic t) := by
  refine ⟨fun key topic hlookup => ?_,h.writers,h.readers⟩
  rcases DdsBinding.addTopic_lookup hlookup with hold | ⟨rfl,rfl⟩
  · exact h.topics key topic hold
  · exact ⟨t,rfl,rfl⟩

theorem Named.addWriter (h : Named b)
    (htopic : (b.addTopic t).topics.lookup (makeKey t) = some topic) :
    Named (b.addWriter t topic) := by
  refine ⟨(h.addTopic t).topics,fun key writer hlookup => ?_,h.readers⟩
  rcases Dictionary.lookup_insert_cases hlookup with hold | ⟨rfl,rfl⟩
  · exact h.writers key writer hold
  · exact (h.addTopic t).topics _ topic htopic

theorem Named.addReader (h : Named b) (callback : C)
    (htopic : (b.addTopic t).topics.lookup (makeKey t) = some topic) :
    Named (b.addReader t callback topic) := by
  refine ⟨(h.addTopic t).topics,h.writers,fun key reader hlookup => ?_⟩
  by_cases hkey : key = makeKey t
  · subst hkey
    obtain rfl := Option.some.inj ((AList.lookup_insert _).symm.trans hlookup)
    exact ⟨(h.addTopic t).topics _ topic htopic,AList.lookup_insert _⟩
  · obtain ⟨hname,hlistener⟩ :=
      h.readers key reader ((AList.lookup_insert_ne hkey).symm.trans hlookup)
    exact ⟨hname,(AList.lookup_insert_ne hkey).trans hlistener⟩

theorem Named.effect (h : Named b) (heffect : Effect b a done) : Named done.binding := by
  cases heffect with
  | same hmaps => exact h.of_maps hmaps
  | topic _ hmaps => exact (h.addTopic _).of_maps hmaps
  | write _ hmaps => exact h.of_maps hmaps
  | writer htopic hmaps => exact (h.addWriter htopic).of_maps hmaps
  | reader _ htopic hmaps => exact (h.addReader _ htopic).of_maps hmaps
  | @unsubscribe t done _ hmaps =>
    have htopics := congrArg Entities.topics hmaps
    have hwriters := congrArg Entities.writers hmaps
    have hreaders := congrArg Entities.readers hmaps
    have hlisteners := congrArg Entities.listeners hmaps
    refine ⟨fun key topic hlookup => ?_,fun key writer hlookup => ?_,fun key reader hlookup => ?_⟩
    · rw [htopics] at hlookup
      exact h.topics key topic (Dictionary.lookup_of_erase hlookup)
    · rw [hwriters] at hlookup
      exact h.writers key writer hlookup
    · rw [hreaders] at hlookup
      obtain ⟨hname,hlistener⟩ := h.readers key reader (Dictionary.lookup_of_erase hlookup)
      rw [hlisteners]
      exact ⟨hname,(AList.lookup_erase_ne (Dictionary.ne_of_erase hlookup)).trans hlistener⟩
  | shutdown hmaps => exact Named.new.of_maps hmaps

/-- A sample goes to the topic of the event that it carries. -/
theorem Named.sample (h : Named b) (heffect : Effect b a done) {x : Sample}
    (hx : done.sample = some x) : x.topicName = x.message.triple.topicName ∧
      ∃ outcome, a = .sendEvent x.message.triple x.message.payload outcome := by
  cases heffect with
  | same _ hsample =>
    rw [hsample] at hx
    cases hx
  | topic _ _ hsample =>
    rw [hsample] at hx
    cases hx
  | @write t data outcome done writer hwriter _ hsample =>
    rw [hsample] at hx
    obtain rfl := Option.some.inj hx
    exact ⟨(h.writers _ writer hwriter).name_eq,outcome,rfl⟩
  | @writer t data outcome done topic htopic _ hsample =>
    rw [hsample] at hx
    obtain rfl := Option.some.inj hx
    exact ⟨((h.addTopic t).topics _ topic htopic).name_eq,outcome,rfl⟩
  | reader _ _ _ _ hsample =>
    rw [hsample] at hx
    cases hx
  | unsubscribe _ _ hsample =>
    rw [hsample] at hx
    cases hx
  | shutdown _ hsample =>
    rw [hsample] at hx
    cases hx

theorem Effect.keeps (heffect : Effect b a done) {key : List Char} {reader : DataReader C}
    (hlookup : b.readers.lookup key = some reader) (hshutdown : a ≠ .shutdown)
    (hunsubscribe : ∀ t, a = .unsubscribeEvent t → makeKey t ≠ key) :
    done.binding.readers.lookup key = some reader := by
  cases heffect with
  | same hmaps | topic _ hmaps | write _ hmaps | writer _ hmaps =>
    rw [congrArg Entities.readers hmaps]
    exact hlookup
  | reader habsent _ hmaps =>
    rw [congrArg Entities.readers hmaps]
    exact Dictionary.lookup_insert_of_absent hlookup habsent
  | @unsubscribe t done _ hmaps =>
    rw [congrArg Entities.readers hmaps]
    exact (AList.lookup_erase_ne (hunsubscribe t rfl).symm).trans hlookup
  | shutdown => exact absurd rfl hshutdown

theorem Effect.reader_cases (heffect : Effect b a done) {key : List Char}
    {reader : DataReader C} (hlookup : done.binding.readers.lookup key = some reader) :
    (b.readers.lookup key = some reader ∧ a ≠ .shutdown ∧
      ∀ t, a = .unsubscribeEvent t → makeKey t ≠ key) ∨
    ∃ t callback created, a = .subscribeEvent t callback created ∧ key = makeKey t ∧
      makeKey t ∉ b.readers ∧ done.result = .ok () ∧ reader.listener = ⟨callback⟩ := by
  cases heffect with
  | same hmaps _ hshutdown habsent =>
    rw [congrArg Entities.readers hmaps] at hlookup
    refine .inl ⟨hlookup,fun ha => ?_,fun t ha hkey => ?_⟩
    · rw [congrArg Entities.readers (hshutdown ha)] at hlookup
      cases hlookup
    · exact habsent t ha (hkey ▸ Dictionary.mem_of_lookup hlookup)
  | topic huses hmaps =>
    rw [congrArg Entities.readers hmaps] at hlookup
    refine .inl ⟨hlookup,?_,?_⟩
    · rintro rfl
      exact huses
    · rintro t rfl
      exact huses.elim
  | write _ hmaps | writer _ hmaps =>
    rw [congrArg Entities.readers hmaps] at hlookup
    exact .inl ⟨hlookup,by simp,by simp⟩
  | @reader t callback created done topic habsent _ hmaps hresult =>
    rw [congrArg Entities.readers hmaps] at hlookup
    rcases Dictionary.lookup_insert_cases hlookup with hold | ⟨rfl,rfl⟩
    · exact .inl ⟨hold,by simp,by simp⟩
    · exact .inr ⟨t,callback,created,rfl,rfl,habsent,hresult,rfl⟩
  | @unsubscribe t done _ hmaps =>
    rw [congrArg Entities.readers hmaps] at hlookup
    refine .inl ⟨Dictionary.lookup_of_erase hlookup,by simp,?_⟩
    rintro t ⟨⟩ rfl
    exact Dictionary.ne_of_erase hlookup rfl
  | shutdown hmaps =>
    rw [congrArg Entities.readers hmaps] at hlookup
    cases hlookup

end Effect

namespace System
variable {s : System C} {i : Nat} {b b' : DdsBinding C}

theorem step_call_ne {i' : Nat} (hne : i ≠ i') (s : System C) (a : Call C) :
    (s.step (.call i' a)).bindings i = s.bindings i := by
  cases hb : s.bindings i' with
  | none => simp [step,hb]
  | some b =>
    cases hexec : a.exec b with
    | error p => simp [step,hb,hexec,hne]
    | ok done => simp [step,hb,hexec,hne]

theorem step_receive_ne {i' : Nat} (hne : i ≠ i') (s : System C) (key : List Char) (n : Nat) :
    (s.step (.receive i' key n)).bindings i = s.bindings i := by
  rw [step]
  split
  · exact Function.update_of_ne hne _ _
  · rfl

theorem step_gone (h : s.bindings i = none) (e : Event C) : (s.step e).bindings i = none := by
  cases e with
  | call i' a =>
    by_cases hi : i = i'
    · subst hi
      simp [step,h]
    · exact (step_call_ne hi s a).trans h
  | receive i' key n =>
    by_cases hi : i = i'
    · subst hi
      simp [step,h]
    · exact (step_receive_ne hi s key n).trans h

theorem step_other (h : s.bindings i = some b) {e : Event C} (hne : ∀ a, e ≠ .call i a) :
    ∃ m, (s.step e).bindings i = some { b with metrics := m } := by
  cases e with
  | call i' a =>
    have hi : i ≠ i' := by
      rintro rfl
      exact hne a rfl
    exact ⟨b.metrics,(step_call_ne hi s a).trans h⟩
  | receive i' key n =>
    by_cases hi : i = i'
    · subst hi
      cases hx : s.invoked (.receive i key n) with
      | none => exact ⟨b.metrics,by simp [step,h,hx]⟩
      | some x => exact ⟨b.metrics.received x.data.length,by simp [step,h,hx]⟩
    · exact ⟨b.metrics,(step_receive_ne hi s key n).trans h⟩

theorem step_call (h : s.bindings i = some b) {a : Call C} {done : Done C}
    (hexec : a.exec b = .ok done) : (s.step (.call i a)).bindings i = some done.binding := by
  simp [step,h,hexec]

theorem step_fault (h : s.bindings i = some b) {a : Call C} {p : NullPointer}
    (hexec : a.exec b = .error p) : (s.step (.call i a)).bindings i = none := by
  simp [step,h,hexec]

theorem step_binding {e : Event C} (h : (s.step e).bindings i = some b') :
    ∃ b, s.bindings i = some b ∧ ((∀ a, e ≠ .call i a) ∧ (∃ m, b' = { b with metrics := m }) ∨
      ∃ a done, e = .call i a ∧ a.exec b = .ok done ∧ b' = done.binding) := by
  cases hb : s.bindings i with
  | none =>
    rw [step_gone hb] at h
    cases h
  | some b =>
    refine ⟨b,rfl,?_⟩
    by_cases hcall : ∃ a, e = .call i a
    · obtain ⟨a,rfl⟩ := hcall
      cases hexec : a.exec b with
      | error p =>
        rw [step_fault hb hexec] at h
        cases h
      | ok done =>
        rw [step_call hb hexec] at h
        exact .inr ⟨a,done,rfl,hexec,(Option.some.inj h).symm⟩
    · have hne : ∀ a, e ≠ .call i a := fun a ha => hcall ⟨a,ha⟩
      obtain ⟨m,hm⟩ := step_other hb hne
      rw [hm] at h
      exact .inl ⟨hne,m,(Option.some.inj h).symm⟩

theorem step_samples {e : Event C} {x : Sample} (hx : x ∈ (s.step e).samples) :
    x ∈ s.samples ∨ ∃ i b a done, e = .call i a ∧ s.bindings i = some b ∧
      a.exec b = .ok done ∧ done.sample = some x := by
  cases e with
  | call i a =>
    rw [step] at hx
    cases hb : s.bindings i with
    | none =>
      rw [hb] at hx
      exact .inl hx
    | some b =>
      simp only [hb] at hx
      cases hexec : a.exec b with
      | error p =>
        rw [hexec] at hx
        exact .inl hx
      | ok done =>
        rw [hexec] at hx
        rcases List.mem_append.mp hx with hx | hx
        · exact .inl hx
        · exact .inr ⟨i,b,a,done,rfl,hb,hexec,Option.mem_toList.mp hx⟩
  | receive i key n =>
    rw [step] at hx
    split at hx
    · exact .inl hx
    · exact .inl hx

end System

structure Tracked (σ : Nat → Event C) (k : Nat) : Prop where
  bindings : ∀ i b, (systemAt σ k).bindings i = some b → Linked b ∧ Named b
  readers : ∀ i b key reader, (systemAt σ k).bindings i = some b →
    b.readers.lookup key = some reader → ∃ t j, key = makeKey t ∧ j < k ∧
      CreatesReader σ i t reader.listener.callback j reader ∧ Uncancelled σ i t j k
  samples : ∀ x, x ∈ (systemAt σ k).samples → x.topicName = x.message.triple.topicName ∧
    SentBefore σ k x.message.triple x.message.payload

theorem Tracked.start (σ : Nat → Event C) : Tracked σ 0 := by
  constructor
  · rintro i b ⟨⟩
    exact ⟨.new,.new⟩
  · rintro i b key reader ⟨⟩ ⟨⟩
  · rintro x ⟨⟩

theorem Linked.of_exec {b : DdsBinding C} (h : Linked b) {a : Call C} {done : Done C}
    (hexec : a.exec b = .ok done) : Linked done.binding ∧ Effect b a done := by
  rcases h.exec_cases a with ⟨-,-,p,herror⟩ | ⟨done',hdone,hlinked⟩
  · rw [hexec] at herror
    cases herror
  · obtain rfl := Except.ok.inj (hexec.symm.trans hdone)
    exact hlinked

theorem Tracked.bindings_succ {σ : Nat → Event C} {k : Nat} (h : Tracked σ k) (i : Nat)
    (b' : DdsBinding C) (hb' : (systemAt σ (k+1)).bindings i = some b') :
    Linked b' ∧ Named b' := by
  rw [systemAt,stateAt_succ] at hb'
  obtain ⟨b,hb,⟨-,m,rfl⟩ | ⟨a,done,-,hexec,rfl⟩⟩ := System.step_binding hb'
  · obtain ⟨hlinked,hnamed⟩ := h.bindings i b hb
    exact ⟨⟨hlinked.publisher,hlinked.subscriber,hlinked.discoveryListener,hlinked.empty⟩,
      hnamed.of_maps rfl⟩
  · obtain ⟨hlinked,hnamed⟩ := h.bindings i b hb
    obtain ⟨hlinked',heffect⟩ := hlinked.of_exec hexec
    exact ⟨hlinked',hnamed.effect heffect⟩

theorem Tracked.readers_succ {σ : Nat → Event C} {k : Nat} (h : Tracked σ k) (i : Nat)
    (b' : DdsBinding C) (key : List Char) (reader : DataReader C)
    (hb' : (systemAt σ (k+1)).bindings i = some b')
    (hreader : b'.readers.lookup key = some reader) : ∃ t j, key = makeKey t ∧ j < k+1 ∧
      CreatesReader σ i t reader.listener.callback j reader ∧ Uncancelled σ i t j (k+1) := by
  rw [systemAt,stateAt_succ] at hb'
  obtain ⟨b,hb,hstep⟩ := System.step_binding hb'
  -- a reader that was there keeps the step that made it
  have hold : b.readers.lookup key = some reader → σ k ≠ .call i .shutdown →
      (∀ t, σ k = .call i (.unsubscribeEvent t) → makeKey t ≠ key) → ∃ t j, key = makeKey t ∧
        j < k+1 ∧ CreatesReader σ i t reader.listener.callback j reader ∧
        Uncancelled σ i t j (k+1) := by
    intro hlookup hshutdown hunsubscribe
    obtain ⟨t,j,hkey,hj,hcreates,hunc⟩ := h.readers i b key reader hb hlookup
    refine ⟨t,j,hkey,by omega,hcreates,hunc.succ ⟨fun he => ?_,hshutdown⟩⟩
    exact hunsubscribe t he hkey.symm
  rcases hstep with ⟨hne,m,rfl⟩ | ⟨a,done,he,hexec,rfl⟩
  · exact hold hreader (hne _) fun t he => absurd he (hne _)
  · obtain ⟨-,heffect⟩ := ((h.bindings i b hb).1).of_exec hexec
    rcases heffect.reader_cases hreader with ⟨hlookup,hshutdown,hunsubscribe⟩ |
      ⟨t,callback,created,rfl,rfl,habsent,hresult,hlistener⟩
    · refine hold hlookup ?_ ?_
      · rw [he]
        rintro ⟨⟩
        exact hshutdown rfl
      · rw [he]
        rintro t ⟨⟩
        exact hunsubscribe t rfl
    · refine ⟨t,k,rfl,by omega,?_,.start σ i t k⟩
      rw [hlistener]
      exact ⟨b,created,done,hb,he,hexec,hresult,habsent,hreader⟩

theorem Tracked.samples_succ {σ : Nat → Event C} {k : Nat} (h : Tracked σ k) (x : Sample)
    (hx : x ∈ (systemAt σ (k+1)).samples) : x.topicName = x.message.triple.topicName ∧
      SentBefore σ (k+1) x.message.triple x.message.payload := by
  rw [systemAt,stateAt_succ] at hx
  rcases System.step_samples hx with hx | ⟨i,b,a,done,he,hb,hexec,hsample⟩
  · obtain ⟨hname,hsent⟩ := h.samples x hx
    exact ⟨hname,hsent.succ⟩
  · obtain ⟨hlinked,hnamed⟩ := h.bindings i b hb
    obtain ⟨hname,outcome,rfl⟩ := hnamed.sample (hlinked.of_exec hexec).2 hsample
    exact ⟨hname,k,by omega,i,outcome,b,done,he,hb,hexec,Option.isSome_of_eq_some hsample⟩

theorem Tracked.all (σ : Nat → Event C) (k : Nat) : Tracked σ k := by
  induction k with
  | zero => exact .start σ
  | succ k ih => exact ⟨ih.bindings_succ,ih.readers_succ,ih.samples_succ⟩

theorem System.invoked_cases {s : System C} {e : Event C} {x : Invocation C}
    (h : s.invoked e = some x) : ∃ i key n b reader sample, e = .receive i key n ∧
      s.bindings i = some b ∧ b.readers.lookup key = some reader ∧ sample ∈ s.samples ∧
      sample.topicName = reader.topic.name ∧
      x = ⟨reader.listener.callback,sample.message.triple,sample.message.payload⟩ := by
  cases e with
  | call i a => cases h
  | receive i key n =>
    rw [invoked] at h
    cases hb : s.bindings i with
    | none => simp [hb] at h
    | some b =>
      cases hreader : b.readers.lookup key with
      | none => simp [hb,hreader] at h
      | some reader =>
        cases hsample : s.samples[n]? with
        | none => simp [hb,hreader,taken,hsample,DdsReaderListener.onDataAvailable] at h
        | some sample =>
          by_cases hname : sample.topicName = reader.topic.name
          · simp only [hb,hreader,taken,hsample,DdsReaderListener.onDataAvailable,if_pos hname,
              Option.map_some,Option.some.injEq] at h
            exact ⟨i,key,n,b,reader,sample,rfl,hb,hreader,List.mem_of_getElem? hsample,hname,
              h.symm⟩
          · simp [hb,hreader,taken,hsample,DdsReaderListener.onDataAvailable,hname] at h

theorem CreatesReader.listener_eq {σ : Nat → Event C} {i : Nat} {t : Triple} {callback : C}
    {j : Nat} {reader : DataReader C} (h : CreatesReader σ i t callback j reader) :
    reader.listener = ⟨callback⟩ := by
  obtain ⟨b,created,done,hb,-,hexec,-,habsent,hreader⟩ := h
  have hlinked := ((Tracked.all σ j).bindings i b hb).1
  rcases (hlinked.of_exec hexec).2.reader_cases hreader with ⟨hlookup,-⟩ |
    ⟨t',callback',created',ha,-,-,-,hlistener⟩
  · exact absurd (Dictionary.mem_of_lookup hlookup) habsent
  · cases ha
    exact hlistener

/-- A reader that a subscription has created stays until that is ended. -/
theorem CreatesReader.stays {σ : Nat → Event C} {i : Nat} {t : Triple} {callback : C} {j : Nat}
    {reader : DataReader C} (h : CreatesReader σ i t callback j reader) {k : Nat} (hjk : j+1 ≤ k)
    (hunc : Uncancelled σ i t j k) : ∃ b, (systemAt σ k).bindings i = some b ∧
      b.readers.lookup (makeKey t) = some reader := by
  induction k, hjk using Nat.le_induction with
  | base =>
    obtain ⟨b,created,done,hb,he,hexec,-,-,hreader⟩ := h
    refine ⟨done.binding,?_,hreader⟩
    rw [systemAt,stateAt_succ,he]
    exact System.step_call hb hexec
  | succ k hjk ih =>
    obtain ⟨b,hb,hreader⟩ := ih hunc.before
    obtain ⟨hunsubscribe,hshutdown⟩ := hunc k (by omega) (by omega)
    rw [systemAt,stateAt_succ]
    by_cases hcall : ∃ a, σ k = .call i a
    · obtain ⟨a,he⟩ := hcall
      have hlinked := ((Tracked.all σ k).bindings i b hb).1
      rcases hlinked.exec_cases a with ⟨-,hclosed,-⟩ | ⟨done,hexec,-,heffect⟩
      · rw [hlinked.open_of_mem (Dictionary.mem_of_lookup hreader)] at hclosed
        cases hclosed
      · rw [he] at hunsubscribe hshutdown ⊢
        refine ⟨done.binding,System.step_call hb hexec,heffect.keeps hreader ?_ ?_⟩
        · rintro rfl
          exact hshutdown rfl
        · rintro t' rfl hkey
          rw [makeKey_injective hkey] at hunsubscribe
          exact hunsubscribe rfl
    · obtain ⟨m,hm⟩ := System.step_other hb fun a ha => hcall ⟨a,ha⟩
      exact ⟨_,hm,hreader⟩

end Step

/-- A callback is given only what was sent as the event that it was registered for, through the
reader that its subscription created, and this reader stays with its listener until that
subscription is ended. -/
theorem events_routed {C : Type} (σ : Nat → Event C) :
    (∀ k x, (systemAt σ k).invoked (σ k) = some x → SentBefore σ k x.triple x.data ∧
      ∃ i n, σ k = .receive i (makeKey x.triple) n ∧ ∃ j reader, j < k ∧
        CreatesReader σ i x.triple x.callback j reader ∧ Uncancelled σ i x.triple j k) ∧
    ∀ i t callback j reader, CreatesReader σ i t callback j reader →
      ∀ k, j < k → Uncancelled σ i t j k → ∃ b, (systemAt σ k).bindings i = some b ∧
        b.readers.lookup (makeKey t) = some reader ∧
        b.listeners.lookup (makeKey t) = some ⟨callback⟩ ∧ reader.listener = ⟨callback⟩ := by
  constructor
  · intro k x hx
    obtain ⟨i,key,n,b,reader,sample,he,hb,hreader,hsample,hname,rfl⟩ := System.invoked_cases hx
    have htracked : Tracked σ k := .all σ k
    obtain ⟨hsent,hbefore⟩ := htracked.samples sample hsample
    obtain ⟨t,j,rfl,hj,hcreates,hunc⟩ := htracked.readers i b key reader hb hreader
    have htriple : sample.message.triple = t := by
      have hunder := (((htracked.bindings i b hb).2).readers _ reader hreader).1
      rw [hsent,hunder.name_eq] at hname
      exact topicName_injective hname
    subst htriple
    exact ⟨hbefore,i,n,he,j,reader,hj,hcreates,hunc⟩
  · intro i t callback j reader hcreates k hjk hunc
    obtain ⟨b,hb,hreader⟩ := hcreates.stays hjk hunc
    have hlistener : reader.listener = ⟨callback⟩ := hcreates.listener_eq
    have hnamed := ((Tracked.all σ k).bindings i b hb).2
    refine ⟨b,hb,hreader,?_,hlistener⟩
    rw [← hlistener]
    exact (hnamed.readers _ reader hreader).2

end LapCom.Dds
