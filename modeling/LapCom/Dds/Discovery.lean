import LapCom.Machine.Run
import LapCom.Text.Parse
import Mathlib.Data.Finset.Basic

set_option autoImplicit false

namespace LapCom.Dds
open LapCom.Machine LapCom.Text

inductive DiscoveryStatus where
  | DISCOVERED_WRITER
  | CHANGED_QOS_WRITER
  | REMOVED_WRITER
  deriving DecidableEq

structure WriterDiscoveryInfo where
  topicName : List Char
  status : DiscoveryStatus

structure DdsDiscoveryListener where
  discoveredServices : BitVec 64 → Option (Finset (BitVec 64))

def topicHead : List Char := "LapComTopic_".toList

namespace DdsDiscoveryListener

def initial : DdsDiscoveryListener := ⟨fun _ => none⟩

def insert (d : DdsDiscoveryListener) (serviceId instanceId : BitVec 64) :
    DdsDiscoveryListener :=
  let instances := (d.discoveredServices serviceId).getD ∅
  ⟨Function.update d.discoveredServices serviceId (some (Insert.insert instanceId instances))⟩

def erase (d : DdsDiscoveryListener) (serviceId instanceId : BitVec 64) :
    DdsDiscoveryListener :=
  match d.discoveredServices serviceId with
  | none => d
  | some instances =>
    let rest := instances.erase instanceId
    ⟨Function.update d.discoveredServices serviceId (if rest = ∅ then none else some rest)⟩

def note (d : DdsDiscoveryListener) (status : DiscoveryStatus)
    (serviceId instanceId : BitVec 64) : DdsDiscoveryListener :=
  match status with
  | .DISCOVERED_WRITER => d.insert serviceId instanceId
  | .REMOVED_WRITER => d.erase serviceId instanceId
  | .CHANGED_QOS_WRITER => d

/-- A number that cannot be read ends the parse in the handler for exceptions. -/
def onPublisherDiscovery (d : DdsDiscoveryListener) (info : WriterDiscoveryInfo) :
    DdsDiscoveryListener :=
  let topicName := info.topicName
  if topicHead.isPrefixOf topicName then
    match find topicName '_' 0 with
    | none => d
    | some first =>
      match find topicName '_' (first+1) with
      | none => d
      | some second =>
        match stoull (substr topicName (first+1) (second-first-1)) with
        | .error _ => d
        | .ok serviceId =>
          match find topicName '_' (second+1) with
          | none => d
          | some third =>
            match stoull (substr topicName (second+1) (third-second-1)) with
            | .error _ => d
            | .ok instanceId => d.note info.status serviceId instanceId
  else d

def getDiscoveredInstances (d : DdsDiscoveryListener) (serviceId : BitVec 64) :
    Finset (BitVec 64) :=
  match d.discoveredServices serviceId with
  | some instances => if instances = ∅ then ∅ else instances
  | none => ∅

variable {d : DdsDiscoveryListener} {s i : BitVec 64}

theorem getDiscoveredInstances_eq (d : DdsDiscoveryListener) (s : BitVec 64) :
    d.getDiscoveredInstances s = (d.discoveredServices s).getD ∅ := by
  rw [getDiscoveredInstances]
  cases d.discoveredServices s with
  | none => rfl
  | some instances =>
    show (if instances = ∅ then ∅ else instances) = instances
    split
    · next h => exact h.symm
    · rfl

theorem mem_insert {s' i' : BitVec 64} :
    i' ∈ (d.insert s i).getDiscoveredInstances s' ↔
      (s' = s ∧ i' = i) ∨ i' ∈ d.getDiscoveredInstances s' := by
  simp only [getDiscoveredInstances_eq,insert]
  by_cases hs : s' = s
  · subst hs
    simp
  · simp [hs]

theorem mem_erase {s' i' : BitVec 64} :
    i' ∈ (d.erase s i).getDiscoveredInstances s' ↔
      ¬ (s' = s ∧ i' = i) ∧ i' ∈ d.getDiscoveredInstances s' := by
  simp only [getDiscoveredInstances_eq,erase]
  cases hd : d.discoveredServices s with
  | none =>
    by_cases hs : s' = s
    · subst hs
      simp [hd]
    · simp [hs]
  | some instances =>
    by_cases hs : s' = s
    · subst hs
      have hrest : ((if instances.erase i = ∅ then none else some (instances.erase i)).getD ∅) =
          instances.erase i := by
        split
        · next h => exact h.symm
        · rfl
      simp [hd,hrest]
    · simp [hs]

end DdsDiscoveryListener

/-- An id of 64 bits in hexadecimal, with digits of either case and any number of zeros. -/
structure HexId where
  digits : List Char
  ne : digits ≠ []
  hexDigits : ∀ a, a ∈ digits → isHexDigit a = true
  lt : hexValue digits < 2^64
  deriving DecidableEq

namespace HexId

def value (x : HexId) : BitVec 64 := BitVec.ofNat 64 (hexValue x.digits)

def ofId (id : BitVec 64) : HexId :=
  ⟨hex id.toNat,hex_ne_nil _,hex_digits _,by rw [hexValue_hex]; exact id.isLt⟩

@[simp] theorem value_ofId (id : BitVec 64) : (ofId id).value = id := by
  rw [value,ofId,hexValue_hex,BitVec.ofNat_toNat,BitVec.setWidth_eq]

theorem stoull_eq (x : HexId) : stoull x.digits = .ok x.value :=
  stoull_digits x.ne x.hexDigits x.lt

theorem not_mem (x : HexId) : '_' ∉ x.digits := fun h => by
  cases x.hexDigits _ h

end HexId

def topicWord : List Char := "LapComTopic".toList

theorem topicHead_eq : topicHead = topicWord++['_'] := by decide

theorem topicHead_length : topicHead.length = 12 := by decide

theorem topicWord_not_mem : '_' ∉ topicWord := by decide

def lapComTopic (s i : HexId) (event : List Char) : List Char :=
  topicHead++(s.digits++ '_' :: (i.digits++ '_' :: event))

theorem onPublisherDiscovery_lapComTopic (d : DdsDiscoveryListener) (s i : HexId)
    (event : List Char) (status : DiscoveryStatus) :
    d.onPublisherDiscovery ⟨lapComTopic s i event,status⟩ = d.note status s.value i.value := by
  let name := lapComTopic s i event
  have hhead : topicHead.isPrefixOf name = true := by
    rw [List.isPrefixOf_iff_prefix]
    exact List.prefix_append _ _
  have hword : name =
      topicWord++ '_' :: (s.digits++ '_' :: (i.digits++ '_' :: event)) := by
    simp [name,lapComTopic,topicHead_eq]
  have hfirst : find name '_' 0 = some 11 := by
    rw [hword]
    exact find_append (p := []) topicWord_not_mem
  have hsecond : find name '_' (11+1) = some (12+s.digits.length) := by
    rw [← topicHead_length]
    exact find_append s.not_mem
  have hservice : substr name (11+1) (12+s.digits.length-11-1) = s.digits := by
    rw [show 12+s.digits.length-11-1 = s.digits.length by omega,
      show 11+1 = topicHead.length from topicHead_length.symm]
    exact substr_append _ _ _
  have hname : name = (topicHead++(s.digits++['_']))++(i.digits++ '_' :: event) := by
    simp [name,lapComTopic]
  have hlength : (topicHead++(s.digits++['_'])).length = 12+s.digits.length+1 := by
    rw [List.length_append,topicHead_length,List.length_append,List.length_singleton]
    omega
  have hthird : find name '_' (12+s.digits.length+1) =
      some (12+s.digits.length+1+i.digits.length) := by
    rw [hname,← hlength]
    exact find_append i.not_mem
  have hinstance : substr name (12+s.digits.length+1)
      (12+s.digits.length+1+i.digits.length-(12+s.digits.length)-1) = i.digits := by
    rw [hname,← hlength,show (topicHead++(s.digits++['_'])).length+i.digits.length-
      (12+s.digits.length)-1 = i.digits.length by omega]
    exact substr_append _ _ _
  show DdsDiscoveryListener.onPublisherDiscovery d ⟨name,status⟩ = _
  simp only [DdsDiscoveryListener.onPublisherDiscovery,hhead,if_true,hfirst,hsecond,hservice,
    s.stoull_eq,hthird,hinstance,i.stoull_eq]

def createTopicName (s i : BitVec 64) (e : BitVec 32) : List Char :=
  "lap/com/".toList++(hex s.toNat++ '/' :: (hex i.toNat++ '/' :: hex e.toNat))

theorem onPublisherDiscovery_createTopic (d : DdsDiscoveryListener) (s i : BitVec 64)
    (e : BitVec 32) (status : DiscoveryStatus) :
    d.onPublisherDiscovery ⟨createTopicName s i e,status⟩ = d := by
  have hhead : topicHead.isPrefixOf (createTopicName s i e) = false := rfl
  simp only [DdsDiscoveryListener.onPublisherDiscovery,hhead]
  rfl

/-- The notification of a writer on a topic of `CreateTopic` makes its instance known, and
changes the instances of no other service. -/
def Understood (d : DdsDiscoveryListener) (s i : BitVec 64) (e : BitVec 32) : Prop :=
  let d' := d.onPublisherDiscovery ⟨createTopicName s i e,.DISCOVERED_WRITER⟩
  i ∈ d'.getDiscoveredInstances s ∧
    ∀ s', s' ≠ s → d'.getDiscoveredInstances s' = d.getDiscoveredInstances s'

/-- No notification of such a writer changes anything, so just those instances are known
behind it that were before. -/
theorem createTopic_understood_iff (d : DdsDiscoveryListener) (s i : BitVec 64) (e : BitVec 32) :
    Understood d s i e ↔ i ∈ d.getDiscoveredInstances s := by
  rw [Understood,onPublisherDiscovery_createTopic]
  exact ⟨fun h => h.1,fun h => ⟨h,fun _ _ => rfl⟩⟩

theorem createTopic_not_understood : ¬ Understood .initial 0x1001 1 1 := by
  rw [createTopic_understood_iff]
  decide

/-- A writer of an event, told from others on the same topic by its guid. -/
structure Writer where
  guid : Nat
  service : HexId
  inst : HexId
  event : List Char
  deriving DecidableEq

inductive Notification where
  | discovered (w : Writer)
  | removed (w : Writer)

def Writer.topicName (w : Writer) : List Char := lapComTopic w.service w.inst w.event

def Notification.info : Notification → WriterDiscoveryInfo
  | .discovered w => ⟨w.topicName,.DISCOVERED_WRITER⟩
  | .removed w => ⟨w.topicName,.REMOVED_WRITER⟩

def listen (d : DdsDiscoveryListener) (e : Notification) : DdsDiscoveryListener :=
  d.onPublisherDiscovery e.info

def watch (live : Finset Writer) : Notification → Finset Writer
  | .discovered w => insert w live
  | .removed w => live.erase w

/-- The listener knows the instances that have a live writer. -/
def Tracks (d : DdsDiscoveryListener) (live : Finset Writer) : Prop :=
  ∀ s i, i ∈ d.getDiscoveredInstances s ↔
    ∃ w, w ∈ live ∧ w.service.value = s ∧ w.inst.value = i

def LastOfInstance (live : Finset Writer) : Notification → Prop
  | .discovered _ => True
  | .removed w => ∀ w', w' ∈ live → w' ≠ w →
      ¬ (w'.service.value = w.service.value ∧ w'.inst.value = w.inst.value)

theorem listen_discovered (d : DdsDiscoveryListener) (w : Writer) :
    listen d (.discovered w) = d.insert w.service.value w.inst.value :=
  onPublisherDiscovery_lapComTopic d w.service w.inst w.event .DISCOVERED_WRITER

theorem listen_removed (d : DdsDiscoveryListener) (w : Writer) :
    listen d (.removed w) = d.erase w.service.value w.inst.value :=
  onPublisherDiscovery_lapComTopic d w.service w.inst w.event .REMOVED_WRITER

theorem tracks_listen_iff {d : DdsDiscoveryListener} {live : Finset Writer} (h : Tracks d live)
    (e : Notification) : Tracks (listen d e) (watch live e) ↔ LastOfInstance live e := by
  cases e with
  | discovered w =>
    refine iff_of_true (fun s i => ?_) trivial
    rw [listen_discovered,DdsDiscoveryListener.mem_insert,h s i]
    constructor
    · rintro (⟨rfl,rfl⟩ | ⟨w',hw',hids⟩)
      · exact ⟨w,Finset.mem_insert_self _ _,rfl,rfl⟩
      · exact ⟨w',Finset.mem_insert_of_mem hw',hids⟩
    · rintro ⟨w',hw',hids⟩
      obtain rfl | hw' := Finset.mem_insert.mp hw'
      · exact .inl ⟨hids.1.symm,hids.2.symm⟩
      · exact .inr ⟨w',hw',hids⟩
  | removed w =>
    constructor
    · intro hafter w' hw' hne hids
      have hknown := (hafter w.service.value w.inst.value).mpr
        ⟨w',Finset.mem_erase.mpr ⟨hne,hw'⟩,hids⟩
      rw [listen_removed,DdsDiscoveryListener.mem_erase] at hknown
      exact hknown.1 ⟨rfl,rfl⟩
    · intro hlast s i
      rw [listen_removed,DdsDiscoveryListener.mem_erase,h s i]
      constructor
      · rintro ⟨hne,w',hw',hs,hi⟩
        refine ⟨w',Finset.mem_erase.mpr ⟨?_,hw'⟩,hs,hi⟩
        rintro rfl
        exact hne ⟨hs.symm,hi.symm⟩
      · rintro ⟨w',hw',hs,hi⟩
        obtain ⟨hne,hw'⟩ := Finset.mem_erase.mp hw'
        refine ⟨fun hids => hlast w' hw' hne ?_,w',hw',hs,hi⟩
        rw [hs,hi]
        exact hids

/-- After every notification of a sequence the listener knows the instances with live writers,
if and only if each removed writer was the last one of its instance. -/
theorem discovery_tracks_iff (σ : Nat → Notification) (n : Nat) :
    (∀ k, k ≤ n → Tracks (stateAt listen .initial σ k) (stateAt watch ∅ σ k)) ↔
      ∀ k, k < n → LastOfInstance (stateAt watch ∅ σ k) (σ k) := by
  have hinitial : Tracks .initial ∅ := fun s i =>
    iff_of_false (Finset.notMem_empty i) fun ⟨w,hw,_⟩ => Finset.notMem_empty w hw
  have hstep (k : Nat) (h : Tracks (stateAt listen .initial σ k) (stateAt watch ∅ σ k)) :
      Tracks (stateAt listen .initial σ (k+1)) (stateAt watch ∅ σ (k+1)) ↔
        LastOfInstance (stateAt watch ∅ σ k) (σ k) :=
    tracks_listen_iff h (σ k)
  exact holds_iff_of_step hinitial hstep

def eventWriter (guid : Nat) (event : BitVec 32) : Writer :=
  ⟨guid,.ofId 0x1001,.ofId 1,hex event.toNat⟩

def oneOfTwo : Nat → Notification :=
  schedule [.discovered (eventWriter 1 1),.discovered (eventWriter 2 2),
    .removed (eventWriter 1 1)] (.discovered (eventWriter 2 2))

theorem discovery_forgets :
    ¬ Tracks (stateAt listen .initial oneOfTwo 3) (stateAt watch ∅ oneOfTwo 3) := by
  intro h
  have hlive : eventWriter 2 2 ∈ stateAt watch ∅ oneOfTwo 3 := by decide +kernel
  have hknown := (h 0x1001 1).mpr ⟨eventWriter 2 2,hlive,HexId.value_ofId _,HexId.value_ofId _⟩
  revert hknown
  decide +kernel

end LapCom.Dds
