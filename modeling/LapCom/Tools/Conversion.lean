import LapCom.Tools.SlotMapping
import Mathlib.Data.List.Perm.Basic

set_option autoImplicit false

namespace LapCom.Arxml2yaml

def SlotMapping.entries (mapping : SlotMapping) : List Entry :=
  mapping.staticAllocations ++ (mapping.dynamicAllocations ++ mapping.asilAllocations)

theorem SlotMapping.entries_append (mapping : SlotMapping) (service : ServiceDefinition)
    (slotIndex : Nat) : ((mapping.append service slotIndex).entries.map Entry.service).Perm
      (mapping.entries.map Entry.service ++ [service.toDict]) := by
  unfold append entries
  split_ifs
  · simp
  · simp only [List.map_append,List.map_cons,List.map_nil,List.append_assoc]
    refine List.Perm.append_left _ ?_
    rw [← List.append_assoc (mapping.dynamicAllocations.map Entry.service)]
    exact List.perm_append_comm
  · simp only [List.map_append,List.map_cons,List.map_nil,List.append_assoc]
    exact ((List.perm_append_comm).append_left _).append_left _

/-- Whatever the slots, every service of the list gets one entry. -/
theorem allocateAll_entries {services : List ServiceDefinition} {a : SlotAllocator}
    {mapping mapping' : SlotMapping} (h : allocateAll services a mapping = .ok mapping') :
    (mapping'.entries.map Entry.service).Perm
      (mapping.entries.map Entry.service ++ services.map ServiceDefinition.toDict) := by
  induction services generalizing a mapping with
  | nil =>
    cases h
    simp
  | cons service services ih =>
    rw [allocateAll] at h
    cases halloc : a.allocate service none with
    | error e => rw [halloc] at h; cases h
    | ok next =>
      obtain ⟨slotIndex,a'⟩ := next
      rw [halloc] at h
      have hstep := (mapping.entries_append service slotIndex).append_right
        (services.map ServiceDefinition.toDict)
      rw [List.map_cons]
      exact (ih h).trans (by simpa using hstep)

def usesAsil (service : ServiceDefinition) : Bool := service.safetyLevel = .ASIL_D

def usesDynamic (strategy : Strategy) (service : ServiceDefinition) : Bool :=
  service.safetyLevel ≠ .ASIL_D ∧ strategy ≠ .static ∧ service.category ≠ .static

def Fits (strategy : Strategy) (services : List ServiceDefinition) : Prop :=
  services.countP usesAsil ≤ asilSlotEnd+1-asilSlotStart ∧
    services.countP (usesDynamic strategy) ≤ dynamicSlotEnd+1-dynamicSlotStart

theorem allocateAll_ok_iff (services : List ServiceDefinition) (a : SlotAllocator)
    (mapping : SlotMapping) (hasil : a.nextAsilSlot ≤ asilSlotEnd+1)
    (hdynamic : a.nextDynamicSlot ≤ dynamicSlotEnd+1) :
    (∃ mapping', allocateAll services a mapping = .ok mapping') ↔
      a.nextAsilSlot+services.countP usesAsil ≤ asilSlotEnd+1 ∧
        a.nextDynamicSlot+services.countP (usesDynamic a.strategy) ≤ dynamicSlotEnd+1 := by
  induction services generalizing a mapping with
  | nil => simp [allocateAll,hasil,hdynamic]
  | cons service services ih =>
    simp only [allocateAll,SlotAllocator.allocate,validHint,List.countP_cons,usesAsil,usesDynamic,
      decide_eq_true_eq]
    by_cases hsafety : service.safetyLevel = .ASIL_D
    · by_cases hfull : asilSlotEnd < a.nextAsilSlot
      · simp [hsafety,hfull]; omega
      · have hrest := ih { a with nextAsilSlot := a.nextAsilSlot+1 }
          (mapping.append service a.nextAsilSlot) (by simp only; omega) hdynamic
        simp only [hsafety,hfull,if_true,if_false]
        rw [hrest]
        simp; omega
    · by_cases hstatic : a.strategy = .static ∨ service.category = .static
      · simp only [hsafety,hstatic,if_true,if_false]
        rw [ih _ _ hasil hdynamic]
        have hnone : ¬ (a.strategy ≠ .static ∧ service.category ≠ .static) := by tauto
        simp [hnone]
      · obtain ⟨hstrategy,hcategory⟩ := not_or.mp hstatic
        by_cases hfull : dynamicSlotEnd < a.nextDynamicSlot
        · simp [hsafety,hstrategy,hcategory,hfull]; omega
        · have hrest := ih { a with nextDynamicSlot := a.nextDynamicSlot+1 }
            (mapping.append service a.nextDynamicSlot) hasil (by simp only; omega)
          simp only [hsafety,hstatic,hfull,if_false]
          rw [hrest]
          simp [hsafety,hstrategy,hcategory]; omega

section Files
variable (b : Builtins)

def InputFile.parsed : InputFile → Except Raised (List Interface × List Instance)
  | .present (some root) => do
    let services ← findServiceInterfaces b root
    let instances ← findServiceInstances b root
    return (services,instances)
  | _ => .ok ([],[])

def InputFile.instances (file : InputFile) : List Instance :=
  match file.parsed b with
  | .ok (_,instances) => instances
  | .error _ => []

def InputFile.definitions (file : InputFile) : List ServiceDefinition :=
  match file.parsed b with
  | .ok (services,instances) => combineDefinitions b services instances
  | .error _ => []

def InputFile.isDocument : InputFile → Bool
  | .present (some _) => true
  | _ => false

def InputFile.Readable (file : InputFile) : Prop := ∃ found, file.parsed b = .ok found

def instanceCount (files : List InputFile) : Nat :=
  (files.map fun file => (file.instances b).length).sum

/-- Every instance of every file is in one entry, and they are counted. -/
structure KeepsEachOnce (files : List InputFile) (config : Config) : Prop where
  entries : config.slotMapping.entries.length = instanceCount b files
  total : config.metadata.totalServices = instanceCount b files
  once : (config.slotMapping.entries.map Entry.service).Perm
    ((files.flatMap fun file => file.definitions b).map ServiceDefinition.toDict)

/-- No document follows a file in which an instance is found. -/
def OnlyLast (files : List InputFile) : Prop :=
  files.Pairwise fun file later => later.isDocument → file.instances b = []

def collected : List ServiceDefinition → List InputFile → List ServiceDefinition
  | _, [] => []
  | kept, file :: files =>
    if file.isDocument then
      kept ++ file.definitions b ++ collected (kept ++ file.definitions b) files
    else collected kept files

def Generates (strategy : Strategy) (files : List InputFile) : Prop :=
  (∀ file ∈ files, file.Readable b) ∧ instanceCount b files ≠ 0 ∧
    Fits strategy (collected b [] files)

variable {b}

theorem InputFile.definitions_length (file : InputFile) :
    (file.definitions b).length = (file.instances b).length := by
  unfold definitions instances
  cases file.parsed b <;> simp [combineDefinitions]

theorem InputFile.parsed_of_not_document {file : InputFile} (h : file.isDocument = false) :
    file.parsed b = .ok ([],[]) := by
  match file with
  | .missing => rfl
  | .present none => rfl
  | .present (some root) => cases h

theorem InputFile.definitions_of_not_document {file : InputFile} (h : file.isDocument = false) :
    file.definitions b = [] := by
  rw [definitions,parsed_of_not_document h]
  rfl

theorem OnlyLast.cons_iff {file : InputFile} {files : List InputFile} :
    OnlyLast b (file :: files) ↔
      (file.definitions b = [] ∨ ∀ later ∈ files, later.isDocument = false) ∧
        OnlyLast b files := by
  have hlen := file.definitions_length (b := b)
  have hnil : file.instances b = [] ↔ file.definitions b = [] := by
    rw [← List.length_eq_zero_iff,← List.length_eq_zero_iff,hlen]
  rw [OnlyLast,OnlyLast,List.pairwise_cons,and_congr_left_iff,hnil]
  intro _
  constructor
  · intro h
    by_cases hdefs : file.definitions b = []
    · exact .inl hdefs
    · exact .inr fun later hlater => Bool.eq_false_iff.mpr fun hdoc => hdefs (h later hlater hdoc)
  · rintro (hdefs | hnone) later hlater hdoc
    · exact hdefs
    · rw [hnone later hlater] at hdoc
      cases hdoc

theorem collected_cons_document {kept : List ServiceDefinition} {file : InputFile}
    {files : List InputFile} (h : file.isDocument = true) : collected b kept (file :: files) =
      kept ++ file.definitions b ++ collected b (kept ++ file.definitions b) files := by
  rw [collected,if_pos h]

theorem collected_cons_other {kept : List ServiceDefinition} {file : InputFile}
    {files : List InputFile} (h : file.isDocument = false) :
    collected b kept (file :: files) = collected b kept files := by
  rw [collected,if_neg (by simp [h])]

theorem instanceCount_cons (file : InputFile) (files : List InputFile) :
    instanceCount b (file :: files) = (file.definitions b).length+instanceCount b files := by
  rw [instanceCount,List.map_cons,List.sum_cons,file.definitions_length]
  rfl

theorem instanceCount_le_collected (kept : List ServiceDefinition) (files : List InputFile) :
    instanceCount b files ≤ (collected b kept files).length := by
  induction files generalizing kept with
  | nil => exact Nat.le_refl 0
  | cons file files ih =>
    rw [instanceCount_cons]
    cases hdoc : file.isDocument with
    | true =>
      have hrest := ih (kept ++ file.definitions b)
      simp only [collected_cons_document hdoc,List.length_append]
      omega
    | false =>
      rw [collected_cons_other hdoc,InputFile.definitions_of_not_document hdoc]
      simpa using ih kept

theorem collected_length_iff (kept : List ServiceDefinition) (files : List InputFile) :
    (collected b kept files).length = instanceCount b files ↔
      (kept = [] ∨ ∀ file ∈ files, file.isDocument = false) ∧ OnlyLast b files := by
  induction files generalizing kept with
  | nil => simp [collected,instanceCount,OnlyLast]
  | cons file files ih =>
    rw [instanceCount_cons,OnlyLast.cons_iff]
    cases hdoc : file.isDocument with
    | true =>
      have hle := instanceCount_le_collected (b := b) (kept ++ file.definitions b) files
      have hrest := ih (kept ++ file.definitions b)
      have hsplit : (collected b kept (file :: files)).length =
          (file.definitions b).length+instanceCount b files ↔ kept.length = 0 ∧
            (collected b (kept ++ file.definitions b) files).length = instanceCount b files := by
        simp only [collected_cons_document hdoc,List.length_append]
        omega
      rw [hsplit,hrest,List.length_eq_zero_iff]
      simp only [List.forall_mem_cons,hdoc,Bool.true_eq_false,false_and,or_false,
        List.append_eq_nil_iff]
      constructor
      · rintro ⟨hkept,hnone | hnone,honly⟩
        · exact ⟨hkept,.inl hnone.2,honly⟩
        · exact ⟨hkept,.inr hnone,honly⟩
      · rintro ⟨hkept,hnone | hnone,honly⟩
        · exact ⟨hkept,.inl ⟨hkept,hnone⟩,honly⟩
        · exact ⟨hkept,.inr hnone,honly⟩
    | false =>
      rw [collected_cons_other hdoc,InputFile.definitions_of_not_document hdoc,List.length_nil,
        Nat.zero_add,ih kept]
      simp [hdoc]

theorem collected_eq {kept : List ServiceDefinition} {files : List InputFile}
    (hkept : kept = [] ∨ ∀ file ∈ files, file.isDocument = false) (h : OnlyLast b files) :
    collected b kept files = files.flatMap fun file => file.definitions b := by
  induction files generalizing kept with
  | nil => rfl
  | cons file files ih =>
    obtain ⟨hfile,honly⟩ := OnlyLast.cons_iff.mp h
    rw [List.flatMap_cons]
    cases hdoc : file.isDocument with
    | true =>
      rcases hkept with rfl | hnone
      · have hrest : file.definitions b = [] ∨ ∀ file ∈ files, file.isDocument = false := hfile
        rw [collected_cons_document hdoc,List.nil_append,ih hrest honly]
      · rw [hnone file List.mem_cons_self] at hdoc
        cases hdoc
    | false =>
      have hrest : kept = [] ∨ ∀ file ∈ files, file.isDocument = false :=
        hkept.imp_right fun hnone later hlater => hnone later (List.mem_cons_of_mem file hlater)
      rw [collected_cons_other hdoc,InputFile.definitions_of_not_document hdoc,List.nil_append,
        ih hrest honly]

theorem collected_eq_nil_iff {files : List InputFile} :
    collected b [] files = [] ↔ instanceCount b files = 0 := by
  constructor
  · intro hnil
    have hle := instanceCount_le_collected (b := b) [] files
    rw [hnil] at hle
    exact Nat.le_zero.mp hle
  · intro hzero
    have hempty : ∀ file ∈ files, file.instances b = [] := by
      intro file hfile
      rw [instanceCount,List.sum_eq_zero_iff_forall_eq_nat] at hzero
      exact List.length_eq_zero_iff.mp (hzero _ (List.mem_map_of_mem hfile))
    have honly : OnlyLast b files :=
      List.pairwise_of_forall_mem_list fun file hfile _ _ _ => hempty file hfile
    have hlength := (collected_length_iff [] files).mpr ⟨.inl rfl,honly⟩
    rwa [hzero,List.length_eq_zero_iff] at hlength

theorem ARXMLParser.parseFile_eq (parser : ARXMLParser) (root : Element) :
    parser.parseFile b (some root) =
      match (InputFile.present (some root)).parsed b with
      | .error e => .error e
      | .ok _ => .ok (parser.services ++ (InputFile.present (some root)).definitions b,
          ⟨parser.services ++ (InputFile.present (some root)).definitions b⟩) := by
  simp only [ARXMLParser.parseFile,InputFile.definitions,InputFile.parsed,bind,Except.bind,pure,
    Except.pure]
  cases findServiceInterfaces b root with
  | error e => rfl
  | ok services => cases findServiceInstances b root <;> rfl

theorem parseAll_eq_ok {files : List InputFile} {kept all services : List ServiceDefinition} :
    parseAll b files ⟨kept⟩ all = .ok services ↔
      (∀ file ∈ files, file.Readable b) ∧ services = all ++ collected b kept files := by
  induction files generalizing kept all with
  | nil => simp [parseAll,collected,eq_comm]
  | cons file files ih =>
    rw [List.forall_mem_cons]
    match file with
    | .missing =>
      have hread : InputFile.Readable b .missing := ⟨_,rfl⟩
      rw [parseAll,ih,collected_cons_other rfl]
      simp [hread]
    | .present none =>
      have hread : InputFile.Readable b (.present none) := ⟨_,rfl⟩
      simp only [parseAll,ARXMLParser.parseFile,List.append_nil]
      rw [ih,collected_cons_other rfl]
      simp [hread]
    | .present (some root) =>
      simp only [parseAll,ARXMLParser.parseFile_eq]
      cases hparsed : (InputFile.present (some root)).parsed b with
      | error e => simp [InputFile.Readable,hparsed]
      | ok found =>
        have hread : InputFile.Readable b (.present (some root)) := ⟨found,hparsed⟩
        simp only
        rw [ih,collected_cons_document rfl]
        simp [hread]

theorem main_eq_some {strategy : Strategy} {files : List InputFile} {config : Config} :
    main b strategy files = .ok (some config) ↔ (∀ file ∈ files, file.Readable b) ∧
      collected b [] files ≠ [] ∧
        YAMLGenerator.generate ⟨collected b [] files,.new strategy⟩ = .ok config := by
  have hparse : ∀ services, parseAll b files .new [] = .ok services ↔
      (∀ file ∈ files, file.Readable b) ∧ services = collected b [] files :=
    fun services => parseAll_eq_ok
  unfold main
  cases hcase : parseAll b files .new [] with
  | error e =>
    have hno : ¬ ∀ file ∈ files, file.Readable b := fun hread => by
      have hok := (hparse _).mpr ⟨hread,rfl⟩
      rw [hcase] at hok
      cases hok
    simp [bind,Except.bind,hno]
  | ok services =>
    obtain ⟨hread,rfl⟩ := (hparse services).mp hcase
    by_cases hnil : collected b [] files = []
    · simp [bind,Except.bind,pure,Except.pure,hnil]
    · cases hgen : YAMLGenerator.generate ⟨collected b [] files,.new strategy⟩ with
      | error e => simp [bind,Except.bind,hnil,hgen]
      | ok generated =>
        rw [and_iff_right hread,and_iff_right hnil]
        simp [bind,Except.bind,pure,Except.pure,hnil,hgen]

theorem generate_ok_iff {services : List ServiceDefinition} {strategy : Strategy} :
    (∃ config, YAMLGenerator.generate ⟨services,.new strategy⟩ = .ok config) ↔
      Fits strategy services := by
  have halloc := allocateAll_ok_iff services (.new strategy) ⟨[],[],[]⟩ (Nat.le_of_ble_eq_true rfl)
    (Nat.le_of_ble_eq_true rfl)
  have hfits : Fits strategy services ↔ ∃ mapping,
      allocateAll services (.new strategy) ⟨[],[],[]⟩ = .ok mapping := by
    rw [halloc,Fits]
    simp only [SlotAllocator.new,asilSlotStart,asilSlotEnd,dynamicSlotStart,dynamicSlotEnd]
    omega
  rw [hfits]
  simp only [YAMLGenerator.generate,Config.new,bind,Except.bind,pure,Except.pure]
  cases allocateAll services (.new strategy) ⟨[],[],[]⟩ <;> simp

theorem generate_eq_ok {services : List ServiceDefinition} {a : SlotAllocator} {config : Config}
    (h : YAMLGenerator.generate ⟨services,a⟩ = .ok config) :
    config.metadata.totalServices = services.length ∧
      (config.slotMapping.entries.map Entry.service).Perm
        (services.map ServiceDefinition.toDict) := by
  simp only [YAMLGenerator.generate,Config.new,bind,Except.bind,pure,Except.pure] at h
  cases halloc : allocateAll services a ⟨[],[],[]⟩ with
  | error e => rw [halloc] at h; cases h
  | ok mapping =>
    rw [halloc] at h
    cases h
    exact ⟨rfl,by simpa [SlotMapping.entries] using allocateAll_entries halloc⟩

end Files

/-- A configuration has every instance of every file once just where no document follows a file
with an instance; and when a configuration is generated. -/
theorem conversion_keeps_iff (b : Builtins) (strategy : Strategy) (files : List InputFile) :
    (∀ config, main b strategy files = .ok (some config) →
      (KeepsEachOnce b files config ↔ OnlyLast b files)) ∧
    ((∃ config, main b strategy files = .ok (some config)) ↔ Generates b strategy files) := by
  refine ⟨fun config h => ?_,?_⟩
  · obtain ⟨hread,hne,hgen⟩ := main_eq_some.mp h
    obtain ⟨htotal,hentries⟩ := generate_eq_ok hgen
    have hlength := hentries.length_eq
    simp only [List.length_map] at hlength
    constructor
    · intro hkeeps
      have hcount := hkeeps.total
      rw [htotal,collected_length_iff] at hcount
      exact hcount.2
    · intro honly
      have hcount := (collected_length_iff [] files).mpr ⟨.inl rfl,honly⟩
      rw [collected_eq (.inl rfl) honly] at hentries
      exact ⟨hlength.trans hcount,htotal.trans hcount,hentries⟩
  · have hnil : collected b [] files ≠ [] ↔ instanceCount b files ≠ 0 :=
      not_congr collected_eq_nil_iff
    simp only [main_eq_some,exists_and_left,Generates,hnil,generate_ok_iff]

section Twice

def leaf (tag text : String) : Element := .mk tag.toList (some text.toList) []

def radarManifest : Element :=
  .mk "AUTOSAR".toList none
    [.mk "SERVICE-INTERFACE".toList none [leaf "SHORT-NAME" "Radar"],
      .mk "PROVIDED-SERVICE-INSTANCE".toList none
        [leaf "SERVICE-INTERFACE-REF" "/interfaces/Radar"]]

/-- Enough of the two functions for texts in ASCII that hold no numbers. -/
def asciiBuiltins : Builtins := ⟨fun text => text.map Char.toLower,fun _ _ => none⟩

def twoManifests : List InputFile := [.present (some radarManifest),.present (some radarManifest)]

theorem first_manifest_converted_twice :
    ∃ config, main asciiBuiltins .auto twoManifests = .ok (some config) ∧
      instanceCount asciiBuiltins twoManifests = 2 ∧
      config.slotMapping.entries.length = 3 ∧ config.metadata.totalServices = 3 := by
  refine ⟨_,rfl,?_,?_,?_⟩ <;> decide +kernel

end Twice

end LapCom.Arxml2yaml
