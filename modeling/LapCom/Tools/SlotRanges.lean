import LapCom.Tools.Conversion
import Mathlib.Data.List.Pairwise

set_option autoImplicit false

namespace LapCom.Arxml2yaml

/-- The service takes the static slot that its id hashes to. -/
def usesHash (strategy : Strategy) (service : ServiceDefinition) : Bool :=
  service.safetyLevel ≠ .ASIL_D ∧ (strategy = .static ∨ service.category = .static)

def hashedSlot (service : ServiceDefinition) : Nat :=
  service.serviceId%(staticSlotEnd-staticSlotStart+1)+staticSlotStart

def hashedEntry (service : ServiceDefinition) : Entry := ⟨hashedSlot service,service.toDict⟩

def SlotMapping.slots (mapping : SlotMapping) : List Nat := mapping.entries.map Entry.slotIndex

/-- The slot is in the range that a text of the output declares. -/
def Within (declared : Text) (slot : Nat) : Prop :=
  ∃ first last, declared = range first last ∧ first ≤ slot ∧ slot ≤ last

structure InDeclaredRanges (config : Config) : Prop where
  static : ∀ e ∈ config.slotMapping.staticAllocations,
    Within config.systemConfig.staticRange e.slotIndex
  dynamic : ∀ e ∈ config.slotMapping.dynamicAllocations,
    Within config.systemConfig.dynamicRange e.slotIndex
  asil : ∀ e ∈ config.slotMapping.asilAllocations,
    Within config.systemConfig.asilRange e.slotIndex

theorem hashedSlot_le (service : ServiceDefinition) : hashedSlot service ≤ staticSlotEnd := by
  simp only [hashedSlot,staticSlotEnd,staticSlotStart]
  omega

theorem SlotAllocator.allocate_cases {a a' : SlotAllocator} {service : ServiceDefinition}
    {slot : Nat} (h : a.allocate service none = .ok (slot,a')) :
    (usesAsil service = true ∧ slot = a.nextAsilSlot ∧
        a' = { a with nextAsilSlot := a.nextAsilSlot+1 }) ∨
      (usesHash a.strategy service = true ∧ slot = hashedSlot service ∧ a' = a) ∨
      (usesDynamic a.strategy service = true ∧ slot = a.nextDynamicSlot ∧
        a' = { a with nextDynamicSlot := a.nextDynamicSlot+1 }) := by
  simp only [allocate,validHint] at h
  by_cases hasil : service.safetyLevel = .ASIL_D
  · by_cases hfull : asilSlotEnd < a.nextAsilSlot
    · simp [hasil,hfull] at h
    · simp only [hasil,hfull,if_true,if_false] at h
      cases h
      exact .inl ⟨by simp [usesAsil,hasil],rfl,rfl⟩
  · by_cases hstatic : a.strategy = .static ∨ service.category = .static
    · simp only [hasil,hstatic,if_true,if_false] at h
      cases h
      exact .inr (.inl ⟨by simp [usesHash,hasil,hstatic],rfl,rfl⟩)
    · by_cases hfull : dynamicSlotEnd < a.nextDynamicSlot
      · simp [hasil,hstatic,hfull] at h
      · simp only [hasil,hstatic,hfull,if_false] at h
        cases h
        exact .inr (.inr ⟨by simpa [usesDynamic,hasil] using hstatic,rfl,rfl⟩)

/-- What the loop hands out in each category, in the order of the services. -/
structure HandedOut (services : List ServiceDefinition) (a : SlotAllocator)
    (mapping mapping' : SlotMapping) : Prop where
  static : mapping'.staticAllocations =
    mapping.staticAllocations ++ (services.filter (usesHash a.strategy)).map hashedEntry
  dynamic : mapping'.dynamicAllocations.map Entry.slotIndex =
    mapping.dynamicAllocations.map Entry.slotIndex ++
      List.range' a.nextDynamicSlot (services.countP (usesDynamic a.strategy))
  asil : mapping'.asilAllocations.map Entry.slotIndex =
    mapping.asilAllocations.map Entry.slotIndex ++
      List.range' a.nextAsilSlot (services.countP usesAsil)

theorem allocateAll_handsOut {services : List ServiceDefinition} {a : SlotAllocator}
    {mapping mapping' : SlotMapping} (hdynamic : dynamicSlotStart ≤ a.nextDynamicSlot)
    (h : allocateAll services a mapping = .ok mapping') :
    HandedOut services a mapping mapping' := by
  induction services generalizing a mapping with
  | nil =>
    cases h
    constructor <;> simp
  | cons service services ih =>
    rw [allocateAll] at h
    cases halloc : a.allocate service none with
    | error e => rw [halloc] at h; cases h
    | ok next =>
      obtain ⟨slot,a'⟩ := next
      rw [halloc] at h
      rcases SlotAllocator.allocate_cases halloc with ⟨huses,rfl,rfl⟩ | ⟨huses,rfl,rfl⟩ |
        ⟨huses,rfl,rfl⟩
      · have hasil : service.safetyLevel = .ASIL_D := by simpa [usesAsil] using huses
        have hrest : HandedOut services { a with nextAsilSlot := a.nextAsilSlot+1 }
          (mapping.append service a.nextAsilSlot) mapping' := ih hdynamic h
        constructor
        · simpa [SlotMapping.append,hasil,usesHash] using hrest.static
        · simpa [SlotMapping.append,hasil,usesDynamic] using hrest.dynamic
        · simpa [SlotMapping.append,hasil,usesAsil,List.range'_succ] using hrest.asil
      · obtain ⟨hasil,hstatic⟩ : service.safetyLevel ≠ .ASIL_D ∧
          (a'.strategy = .static ∨ service.category = .static) := by
            simpa [usesHash] using huses
        have hrest : HandedOut services a' (mapping.append service (hashedSlot service)) mapping' :=
          ih hdynamic h
        have hle := hashedSlot_le service
        have hother : usesDynamic a'.strategy service = false := by
          simp only [usesDynamic,decide_eq_false_iff_not]
          tauto
        constructor
        · simpa [SlotMapping.append,hasil,hle,huses,hashedEntry] using hrest.static
        · simpa [SlotMapping.append,hasil,hle,hother] using hrest.dynamic
        · simpa [SlotMapping.append,hasil,hle,usesAsil] using hrest.asil
      · obtain ⟨hasil,hstrategy,hcategory⟩ : service.safetyLevel ≠ .ASIL_D ∧
          a.strategy ≠ .static ∧ service.category ≠ .static := by
            simpa [usesDynamic] using huses
        have hrest : HandedOut services { a with nextDynamicSlot := a.nextDynamicSlot+1 }
          (mapping.append service a.nextDynamicSlot) mapping' := ih (Nat.le_succ_of_le hdynamic) h
        have hgt : ¬ a.nextDynamicSlot ≤ staticSlotEnd := by
          simp only [dynamicSlotStart,staticSlotEnd] at hdynamic ⊢
          omega
        have hother : usesHash a.strategy service = false := by
          simp [usesHash,hstrategy,hcategory]
        constructor
        · simpa [SlotMapping.append,hasil,hcategory,hgt,hother] using hrest.static
        · simpa [SlotMapping.append,hasil,hcategory,hgt,huses,List.range'_succ]
            using hrest.dynamic
        · simpa [SlotMapping.append,hasil,hcategory,hgt,usesAsil] using hrest.asil

section Generate
variable {strategy : Strategy} {services : List ServiceDefinition} {config : Config}

theorem generate_handsOut (h : YAMLGenerator.generate ⟨services,.new strategy⟩ = .ok config) :
    config.systemConfig = (Config.new services.length).systemConfig ∧
      HandedOut services (.new strategy) ⟨[],[],[]⟩ config.slotMapping := by
  simp only [YAMLGenerator.generate,Config.new,bind,Except.bind,pure,Except.pure] at h
  cases halloc : allocateAll services (.new strategy) ⟨[],[],[]⟩ with
  | error e => rw [halloc] at h; cases h
  | ok mapping =>
    rw [halloc] at h
    cases h
    exact ⟨rfl,allocateAll_handsOut (Nat.le_refl _) halloc⟩

theorem generate_slots (h : YAMLGenerator.generate ⟨services,.new strategy⟩ = .ok config) :
    config.slotMapping.slots = (services.filter (usesHash strategy)).map hashedSlot ++
      (List.range' dynamicSlotStart (services.countP (usesDynamic strategy)) ++
        List.range' asilSlotStart (services.countP usesAsil)) := by
  obtain ⟨_,hout⟩ := generate_handsOut h
  rw [SlotMapping.slots,SlotMapping.entries,List.map_append,List.map_append,hout.static,
    hout.dynamic,hout.asil,List.nil_append,List.map_map]
  rfl

theorem generate_fits (h : YAMLGenerator.generate ⟨services,.new strategy⟩ = .ok config) :
    services.countP usesAsil ≤ 100 ∧ services.countP (usesDynamic strategy) ≤ 724 :=
  generate_ok_iff.mp ⟨config,h⟩

theorem HandedOut.static_hashed {a : SlotAllocator} {mapping : SlotMapping}
    (hout : HandedOut services a ⟨[],[],[]⟩ mapping) {e : Entry}
    (he : e ∈ mapping.staticAllocations) :
    ∃ service ∈ services, usesHash a.strategy service = true ∧ e = hashedEntry service := by
  rw [hout.static,List.nil_append] at he
  obtain ⟨service,hmem,rfl⟩ := List.mem_map.mp he
  obtain ⟨hmem,huses⟩ := List.mem_filter.mp hmem
  exact ⟨service,hmem,huses,rfl⟩

theorem pool_within {entries : List Entry} {first last n : Nat}
    (hslots : entries.map Entry.slotIndex = List.range' first n) (hn : first+n ≤ last+1)
    {e : Entry} (he : e ∈ entries) : Within (range first last) e.slotIndex := by
  have hmem := List.mem_map_of_mem (f := Entry.slotIndex) he
  rw [hslots,List.mem_range'_1] at hmem
  exact ⟨first,last,rfl,hmem.1,by omega⟩

theorem pool_pos {entries : List Entry} {first n : Nat}
    (hslots : entries.map Entry.slotIndex = List.range' first n) {e : Entry} (he : e ∈ entries)
    (hfirst : 0 < first) : 0 < e.slotIndex := by
  have hmem := List.mem_map_of_mem (f := Entry.slotIndex) he
  rw [hslots,List.mem_range'_1] at hmem
  omega

theorem generate_inDeclaredRanges
    (h : YAMLGenerator.generate ⟨services,.new strategy⟩ = .ok config) :
    InDeclaredRanges config := by
  obtain ⟨hsystem,hout⟩ := generate_handsOut h
  obtain ⟨hasil,hdynamic⟩ := generate_fits h
  constructor
  · intro e he
    obtain ⟨service,-,-,rfl⟩ := hout.static_hashed he
    rw [hsystem]
    exact ⟨_,_,rfl,Nat.zero_le _,hashedSlot_le service⟩
  · intro e he
    rw [hsystem]
    refine pool_within hout.dynamic ?_ he
    simp only [SlotAllocator.new,dynamicSlotStart,dynamicSlotEnd]
    omega
  · intro e he
    rw [hsystem]
    refine pool_within hout.asil ?_ he
    simp only [SlotAllocator.new,asilSlotStart,asilSlotEnd]
    omega

theorem pools_nodup {n m : Nat} (hn : n ≤ 724) :
    (List.range' dynamicSlotStart n ++ List.range' asilSlotStart m).Nodup := by
  refine List.nodup_append.mpr ⟨List.nodup_range',List.nodup_range',?_⟩
  intro i hi j hj
  simp only [List.mem_range'_1,dynamicSlotStart,asilSlotStart] at hi hj
  omega

theorem hashedSlot_notMem (service : ServiceDefinition) (n m : Nat) :
    hashedSlot service ∉ List.range' dynamicSlotStart n ++ List.range' asilSlotStart m := by
  have hle := hashedSlot_le service
  simp only [List.mem_append,List.mem_range'_1,dynamicSlotStart,asilSlotStart,
    staticSlotEnd] at hle ⊢
  omega

theorem append_pools_nodup {hashed : List ServiceDefinition} {n m : Nat} (hn : n ≤ 724) :
    (hashed.map hashedSlot ++
        (List.range' dynamicSlotStart n ++ List.range' asilSlotStart m)).Nodup ↔
      (hashed.map hashedSlot).Nodup := by
  rw [List.nodup_append]
  refine ⟨fun h => h.1,fun h => ⟨h,pools_nodup hn,?_⟩⟩
  intro i hi j hj heq
  obtain ⟨service,_,rfl⟩ := List.mem_map.mp hi
  exact hashedSlot_notMem service n m (heq ▸ hj)

theorem hashed_nodup_iff (hashed : List ServiceDefinition) :
    (hashed.map hashedSlot).Nodup ↔
      hashed.Pairwise fun s t => s.serviceId%200 ≠ t.serviceId%200 := by
  rw [List.Nodup,List.pairwise_map]
  rfl

/-- The entries of the two pools share no slot, among them or with a static one. -/
structure PoolsApart (mapping : SlotMapping) : Prop where
  nodup : ((mapping.dynamicAllocations ++ mapping.asilAllocations).map Entry.slotIndex).Nodup
  static : ∀ e ∈ mapping.staticAllocations,
    e.slotIndex ∉ (mapping.dynamicAllocations ++ mapping.asilAllocations).map Entry.slotIndex

theorem generate_poolsApart (h : YAMLGenerator.generate ⟨services,.new strategy⟩ = .ok config) :
    PoolsApart config.slotMapping := by
  obtain ⟨_,hout⟩ := generate_handsOut h
  obtain ⟨_,hdynamic⟩ := generate_fits h
  have hpools : (config.slotMapping.dynamicAllocations ++
        config.slotMapping.asilAllocations).map Entry.slotIndex =
      List.range' dynamicSlotStart (services.countP (usesDynamic strategy)) ++
        List.range' asilSlotStart (services.countP usesAsil) := by
    rw [List.map_append,hout.dynamic,hout.asil]
    rfl
  constructor
  · rw [hpools]
    exact pools_nodup hdynamic
  · intro e he
    obtain ⟨service,-,-,rfl⟩ := hout.static_hashed he
    rw [hpools]
    exact hashedSlot_notMem service _ _

end Generate

/-- Every slot is in its category's declared range, two entries share one just where two hashed ids
agree modulo 200, and only a hashed id and the hundredth service with ASIL-D reach the two slots
that the registry keeps for itself. -/
theorem generated_slots (services : List ServiceDefinition) (strategy : Strategy) (config : Config)
    (h : YAMLGenerator.generate ⟨services,.new strategy⟩ = .ok config) :
    InDeclaredRanges config ∧ PoolsApart config.slotMapping ∧
      (config.slotMapping.slots.Nodup ↔ (services.filter (usesHash strategy)).Pairwise
        fun s t => s.serviceId%200 ≠ t.serviceId%200) ∧
      (∀ e ∈ config.slotMapping.entries, e.slotIndex = 0 → ∃ service ∈ services,
        e.service = service.toDict ∧ usesHash strategy service = true ∧
          200 ∣ service.serviceId) ∧
      (1023 ∈ config.slotMapping.slots → services.countP usesAsil = 100) := by
  obtain ⟨hasil,hdynamic⟩ := generate_fits h
  refine ⟨generate_inDeclaredRanges h,generate_poolsApart h,?_,?_,?_⟩
  · rw [generate_slots h,append_pools_nodup hdynamic,hashed_nodup_iff]
  · obtain ⟨_,hout⟩ := generate_handsOut h
    intro e he hzero
    rcases List.mem_append.mp he with hhashed | hpool
    · obtain ⟨service,hmem,huses,rfl⟩ := hout.static_hashed hhashed
      exact ⟨service,hmem,rfl,huses,Nat.dvd_of_mod_eq_zero hzero⟩
    · rcases List.mem_append.mp hpool with hpool | hpool
      · have hpos := pool_pos hout.dynamic hpool (show 0 < dynamicSlotStart by decide)
        omega
      · have hpos := pool_pos hout.asil hpool (show 0 < asilSlotStart by decide)
        omega
  · rw [generate_slots h]
    intro hlast
    simp only [List.mem_append,List.mem_map,List.mem_range'_1,dynamicSlotStart,
      asilSlotStart] at hlast
    rcases hlast with ⟨service,_,hslot⟩ | hpool
    · have hle := hashedSlot_le service
      simp only [staticSlotEnd] at hle
      omega
    · omega

section MapService

def mapService (instanceId : Int) : ServiceDefinition :=
  { ServiceDefinition.new with
    serviceName := "MapService".toList, instanceId := instanceId }.computeServiceId

theorem generated_slots_mapService :
    ∃ config, YAMLGenerator.generate ⟨[mapService 1,mapService 2],.new .auto⟩ = .ok config ∧
      config.slotMapping.slots.Nodup := by
  refine ⟨_,rfl,?_⟩
  exact (generated_slots [mapService 1,mapService 2] .auto _ rfl).2.2.1.mpr (by decide)

/-- With the strategy `static`, both instances get the slot 0. -/
theorem instances_share_reserved_slot :
    ∃ config, YAMLGenerator.generate ⟨[mapService 1,mapService 2],.new .static⟩ = .ok config ∧
      config.slotMapping.slots = [0,0] ∧ ¬ config.slotMapping.slots.Nodup := by
  refine ⟨_,rfl,?_,?_⟩ <;> decide +kernel

end MapService

end LapCom.Arxml2yaml
