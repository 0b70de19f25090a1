import LapCom.Dds.Routing

set_option autoImplicit false

namespace LapCom.Dds
open LapCom.Container LapCom.Text

theorem localInstance_makeKey (t : Triple) (serviceId : BitVec 64) :
    localInstance (makeKey t) serviceId =
      if t.serviceId = serviceId then some t.instanceId else none := by
  let s := HexId.ofId t.serviceId
  let i := HexId.ofId t.instanceId
  let key := s.digits++ '_' :: (i.digits++ '_' :: hex t.eventId.toNat)
  have hfirst : find key '_' 0 = some s.digits.length := by
    have h := find_append (p := []) (r := i.digits++ '_' :: hex t.eventId.toNat) s.not_mem
    simpa using h
  have hservice : substr key 0 s.digits.length = s.digits := substr_append [] s.digits _
  have hkey : key = (s.digits++['_'])++(i.digits++ '_' :: hex t.eventId.toNat) := by
    simp [key]
  have hlength : (s.digits++['_']).length = s.digits.length+1 := by
    rw [List.length_append,List.length_singleton]
  have hsecond : find key '_' (s.digits.length+1) =
      some (s.digits.length+1+i.digits.length) := by
    rw [hkey,← hlength]
    exact find_append i.not_mem
  have hinstance : substr key (s.digits.length+1)
      (s.digits.length+1+i.digits.length-s.digits.length-1) = i.digits := by
    rw [show s.digits.length+1+i.digits.length-s.digits.length-1 = i.digits.length by omega,
      hkey,← hlength]
    exact substr_append _ _ _
  have hs : s.value = t.serviceId := HexId.value_ofId t.serviceId
  have hi : i.value = t.instanceId := HexId.value_ofId t.instanceId
  show localInstance key serviceId = _
  simp only [localInstance,hfirst,hservice,s.stoull_eq,hs,hsecond,hinstance,i.stoull_eq,hi]
  rfl

section FindService
variable {C : Type} {b : DdsBinding C} {listener : DdsDiscoveryListener} {triples : Finset Triple}

/-- The writers are those of the triples, and nothing is known of other processes. -/
structure HasWriters (b : DdsBinding C) (listener : DdsDiscoveryListener)
    (triples : Finset Triple) : Prop where
  discoveryListener : b.discoveryListener = some listener
  undiscovered : ∀ serviceId, listener.getDiscoveredInstances serviceId = ∅
  writers : ∀ key, key ∈ b.writers ↔ ∃ t, t ∈ triples ∧ makeKey t = key

theorem HasWriters.findService (h : HasWriters b listener triples) (serviceId : BitVec 64) :
    ∃ found, b.findService serviceId = .ok found ∧
      ∀ i, i ∈ found ↔ ∃ e, (⟨serviceId,i,e⟩ : Triple) ∈ triples := by
  refine ⟨_,by rw [DdsBinding.findService,h.discoveryListener],fun i => ?_⟩
  rw [h.undiscovered,Finset.empty_union,List.mem_toFinset,List.mem_filterMap]
  constructor
  · rintro ⟨key,hkey,hinstance⟩
    obtain ⟨t,ht,rfl⟩ := (h.writers key).mp (AList.mem_keys.mpr hkey)
    rw [localInstance_makeKey] at hinstance
    split_ifs at hinstance with hservice
    refine ⟨t.eventId,?_⟩
    cases hinstance
    rwa [← hservice]
  · rintro ⟨e,he⟩
    refine ⟨makeKey ⟨serviceId,i,e⟩,AList.mem_keys.mp ((h.writers _).mpr ⟨_,he,rfl⟩),?_⟩
    rw [localInstance_makeKey,if_pos rfl]

/-- The vector lists the set in some order. -/
theorem findService_exact (h : HasWriters b listener triples) :
    Function.Injective makeKey ∧
    ∀ serviceId, ∃ found, b.findService serviceId = .ok found ∧
      ∀ instances : List (BitVec 64), instances.Perm found.toList → ∀ i,
        ((∃ e, (⟨serviceId,i,e⟩ : Triple) ∈ triples) → instances.count i = 1) ∧
        ((¬ ∃ e, (⟨serviceId,i,e⟩ : Triple) ∈ triples) → instances.count i = 0) := by
  refine ⟨makeKey_injective,fun serviceId => ?_⟩
  obtain ⟨found,hfound,hmem⟩ := h.findService serviceId
  refine ⟨found,hfound,fun instances hperm i => ?_⟩
  have hlist : i ∈ instances ↔ ∃ e, (⟨serviceId,i,e⟩ : Triple) ∈ triples := by
    rw [hperm.mem_iff,Finset.mem_toList,hmem]
  constructor
  · intro he
    exact List.count_eq_one_of_mem (hperm.nodup_iff.mpr found.nodup_toList) (hlist.mpr he)
  · intro hnone
    exact List.count_eq_zero_of_not_mem fun hi => hnone (hlist.mp hi)

end FindService

def twoEvents : DdsBinding Unit :=
  { DdsBinding.new with
    discoveryListener := some .initial
    writers := (AList.insert (makeKey ⟨4660,1,1⟩) ⟨⟨Triple.topicName ⟨4660,1,1⟩⟩⟩ ∅).insert
      (makeKey ⟨4660,1,2⟩) ⟨⟨Triple.topicName ⟨4660,1,2⟩⟩⟩ }

theorem findService_exact_twoEvents : ∃ found, twoEvents.findService 4660 = .ok found ∧
    found.toList.count 1 = 1 ∧ found.toList.count 2 = 0 := by
  have h : HasWriters twoEvents .initial {⟨4660,1,1⟩,⟨4660,1,2⟩} := by
    refine ⟨rfl,fun _ => rfl,fun key => ?_⟩
    simp only [twoEvents,AList.mem_insert,Finset.mem_insert,Finset.mem_singleton]
    constructor
    · rintro (rfl | rfl | hnone)
      · exact ⟨_,.inr rfl,rfl⟩
      · exact ⟨_,.inl rfl,rfl⟩
      · exact absurd hnone (AList.notMem_empty key)
    · rintro ⟨t,rfl | rfl,rfl⟩
      · exact .inr (.inl rfl)
      · exact .inl rfl
  obtain ⟨found,hfound,hcount⟩ := (findService_exact h).2 4660
  refine ⟨found,hfound,(hcount _ (List.Perm.refl _) 1).1 ⟨1,by decide⟩,
    (hcount _ (List.Perm.refl _) 2).2 ?_⟩
  rintro ⟨e,he⟩
  simp at he

end LapCom.Dds
