import LapCom.Tools.Arxml

set_option autoImplicit false

namespace LapCom.Arxml2yaml

def staticSlotStart : Nat := 0
def staticSlotEnd : Nat := 199
def dynamicSlotStart : Nat := 200
def dynamicSlotEnd : Nat := 923
def asilSlotStart : Nat := 924
def asilSlotEnd : Nat := 1023

inductive Strategy where
  | auto | static | dynamic
  deriving DecidableEq

structure SlotAllocator where
  strategy : Strategy
  nextDynamicSlot : Nat
  nextAsilSlot : Nat

def SlotAllocator.new (strategy : Strategy) : SlotAllocator :=
  ⟨strategy,dynamicSlotStart,asilSlotStart⟩

/-- A hint outside the slots is no hint. -/
def validHint : Option Int → Option Nat
  | some hint => if 0 ≤ hint ∧ hint ≤ 1023 then some hint.toNat else none
  | none => none

def SlotAllocator.allocate (a : SlotAllocator) (service : ServiceDefinition)
    (slotHint : Option Int) : Except Raised (Nat × SlotAllocator) :=
  match validHint slotHint with
  | some slot => .ok (slot,a)
  | none =>
    if service.safetyLevel = .ASIL_D then
      if asilSlotEnd < a.nextAsilSlot then
        .error (.valueError ("ASIL-D slot pool exhausted for ".toList ++ service.serviceName))
      else .ok (a.nextAsilSlot,{ a with nextAsilSlot := a.nextAsilSlot+1 })
    else if a.strategy = .static ∨ service.category = .static then
      .ok (service.serviceId%(staticSlotEnd-staticSlotStart+1)+staticSlotStart,a)
    else if dynamicSlotEnd < a.nextDynamicSlot then
      .error (.valueError ("Dynamic slot pool exhausted for ".toList ++ service.serviceName))
    else .ok (a.nextDynamicSlot,{ a with nextDynamicSlot := a.nextDynamicSlot+1 })

structure ServiceDict where
  serviceName : Text
  serviceId : Text
  instanceId : Int
  version : Text
  binding : Text
  endpoint : Option Text
  safetyLevel : SafetyLevel
  description : Option Text

def ServiceDefinition.toDict (service : ServiceDefinition) : ServiceDict :=
  ⟨service.serviceName,"0x".toList ++ (Text.hexWidth 8 service.serviceId).map Char.toUpper,
    service.instanceId,
    (toString service.majorVersion).toList ++ '.' :: (toString service.minorVersion).toList,
    service.bindingType,service.endpoint,service.safetyLevel,service.description⟩

structure Entry where
  slotIndex : Nat
  service : ServiceDict

structure Metadata where
  generatedBy : Text
  source : Text
  date : Text
  totalServices : Nat

structure SlotMapping where
  staticAllocations : List Entry
  dynamicAllocations : List Entry
  asilAllocations : List Entry

structure SystemConfig where
  totalSlots : Nat
  staticRange : Text
  dynamicRange : Text
  asilRange : Text
  enableHugepages : Bool
  enableGuardPages : Bool

structure Security where
  enableCrc32Check : Bool
  enableExecWhitelist : Bool
  qmAsilSeparation : Bool

structure Config where
  version : Text
  metadata : Metadata
  slotMapping : SlotMapping
  systemConfig : SystemConfig
  security : Security

def range (first last : Nat) : Text := Nat.toDigits 10 first ++ '-' :: Nat.toDigits 10 last

def Config.new (totalServices : Nat) : Config :=
  ⟨"1.0".toList,⟨"arxml2yaml.py".toList,"AUTOSAR ARXML".toList,"2025-11-19".toList,totalServices⟩,
    ⟨[],[],[]⟩,⟨1024,range staticSlotStart staticSlotEnd,range dynamicSlotStart dynamicSlotEnd,
      range asilSlotStart asilSlotEnd,true,true⟩,⟨true,true,true⟩⟩

def SlotMapping.append (mapping : SlotMapping) (service : ServiceDefinition) (slotIndex : Nat) :
    SlotMapping :=
  let entry : Entry := ⟨slotIndex,service.toDict⟩
  if service.safetyLevel = .ASIL_D then
    { mapping with asilAllocations := mapping.asilAllocations ++ [entry] }
  else if service.category = .static ∨ slotIndex ≤ staticSlotEnd then
    { mapping with staticAllocations := mapping.staticAllocations ++ [entry] }
  else { mapping with dynamicAllocations := mapping.dynamicAllocations ++ [entry] }

def allocateAll : List ServiceDefinition → SlotAllocator → SlotMapping → Except Raised SlotMapping
  | [], _, mapping => .ok mapping
  | service :: services, a, mapping =>
    match a.allocate service none with
    | .error e => .error e
    | .ok (slotIndex,a) => allocateAll services a (mapping.append service slotIndex)

structure YAMLGenerator where
  services : List ServiceDefinition
  allocator : SlotAllocator

def YAMLGenerator.generate (g : YAMLGenerator) : Except Raised Config := do
  let config := Config.new g.services.length
  let slotMapping ← allocateAll g.services g.allocator config.slotMapping
  return { config with slotMapping := slotMapping }

inductive InputFile where
  | missing
  | present (tree : Option Element)

section Conversion
variable (b : Builtins)

def parseAll : List InputFile → ARXMLParser → List ServiceDefinition →
    Except Raised (List ServiceDefinition)
  | [], _, allServices => .ok allServices
  | .missing :: files, parser, allServices => parseAll files parser allServices
  | .present tree :: files, parser, allServices =>
    match parser.parseFile b tree with
    | .error e => .error e
    | .ok (services,parser) => parseAll files parser (allServices ++ services)

/-- The configuration that is saved; `none` where no service is found. -/
def main (strategy : Strategy) (files : List InputFile) : Except Raised (Option Config) := do
  let allServices ← parseAll b files .new []
  if allServices.isEmpty then return none
  let config ← YAMLGenerator.generate ⟨allServices,.new strategy⟩
  return some config

end Conversion

end LapCom.Arxml2yaml
