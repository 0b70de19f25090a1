import LapCom.Text.Parse

set_option autoImplicit false

namespace LapCom.Arxml2yaml

abbrev Text := List Char

/-- What the converter uses of `str.lower` and of `int(text, base)`; `none` is a `ValueError`. -/
structure Builtins where
  lower : Text → Text
  int : Text → Nat → Option Int

inductive Raised where
  | typeError
  | attributeError
  | invalidLiteral
  | valueError (message : Text)
  deriving DecidableEq

inductive Element where
  | mk (tag : Text) (text : Option Text) (children : List Element)

namespace Element

def tag : Element → Text
  | .mk tag _ _ => tag

def text : Element → Option Text
  | .mk _ text _ => text

mutual

/-- The element and all below it, in document order. -/
def iter : Element → List Element
  | .mk tag text children => .mk tag text children :: iterAll children

def iterAll : List Element → List Element
  | [] => []
  | e :: es => e.iter ++ iterAll es

end

/-- `find('.//TAG')`: the element itself is not looked at. -/
def find (tag : Text) : Element → Option Element
  | .mk _ _ children => (iterAll children).find? fun e => e.tag == tag

end Element

inductive SafetyLevel where
  | QM | ASIL_D
  deriving DecidableEq

inductive Category where
  | static | dynamic
  deriving DecidableEq

structure ServiceDefinition where
  serviceName : Text
  serviceId : Nat
  instanceId : Int
  majorVersion : Int
  minorVersion : Int
  bindingType : Text
  endpoint : Option Text
  safetyLevel : SafetyLevel
  category : Category
  description : Option Text

def ServiceDefinition.new : ServiceDefinition :=
  ⟨[],0,0,1,0,"iceoryx2".toList,some [],.QM,.dynamic,some []⟩

def fnvPrime : Nat := 0x01000193

def fnvOffset : Nat := 0x811c9dc5

def fnv1a (bytes : List UInt8) : Nat :=
  bytes.foldl (fun hash byte => (hash ^^^ byte.toNat)*fnvPrime%2^32) fnvOffset

def ServiceDefinition.computeServiceId (service : ServiceDefinition) : ServiceDefinition :=
  if 0 < service.serviceId then service
  else { service with serviceId := fnv1a (service.serviceName.flatMap String.utf8EncodeChar) }

/-- An interface element. A missing name and an empty one are both `None`. -/
structure Interface where
  name : Option Text
  majorVersion : Option Int
  minorVersion : Option Int
  description : Option (Option Text)

/-- An instance element: the keys that its dictionary has. -/
structure Instance where
  instanceId : Option Int
  serviceRef : Option Text
  binding : Option Text
  endpoint : Option (Option Text)

section Parser
variable (b : Builtins)

def intOf (base : Nat) : Option Element → Except Raised (Option Int)
  | none => .ok none
  | some e =>
    match e.text with
    | none => .error .typeError
    | some text =>
      match b.int text base with
      | none => .error .invalidLiteral
      | some n => .ok (some n)

def findServiceInterface (elem : Element) : Except Raised Interface := do
  let majorVersion ← intOf b 10 (elem.find "MAJOR-VERSION".toList)
  let minorVersion ← intOf b 10 (elem.find "MINOR-VERSION".toList)
  return ⟨(elem.find "SHORT-NAME".toList).bind Element.text,majorVersion,minorVersion,
    (elem.find "DESC".toList).map Element.text⟩

def isServiceInterface (elem : Element) : Bool := "SERVICE-INTERFACE".toList.isSuffixOf elem.tag

def findServiceInterfaces (root : Element) : Except Raised (List Interface) :=
  (root.iter.filter isServiceInterface).mapM (findServiceInterface b)

def lastPart (text : Text) : Text := (text.reverse.takeWhile fun a => a != '/').reverse

def serviceRefOf : Option Element → Option Text
  | none => none
  | some e => (e.text.filter fun text => !text.isEmpty).map lastPart

def bindingOf : Option Element → Except Raised (Option Text)
  | none => .ok none
  | some connector =>
    match connector.find "TYPE".toList with
    | none => .ok none
    | some e =>
      match e.text with
      | none => .error .attributeError
      | some text => .ok (some (b.lower text))

def findServiceInstance (elem : Element) : Except Raised Instance := do
  let instanceId ← intOf b 0 (elem.find "INSTANCE-ID".toList)
  let binding ← bindingOf b (elem.find "COMMUNICATION-CONNECTOR".toList)
  return ⟨instanceId,serviceRefOf (elem.find "SERVICE-INTERFACE-REF".toList),binding,
    (elem.find "ENDPOINT".toList).map Element.text⟩

def isServiceInstance (elem : Element) : Bool :=
  "PROVIDED-SERVICE-INSTANCE".toList.isSuffixOf elem.tag ||
    "REQUIRED-SERVICE-INSTANCE".toList.isSuffixOf elem.tag

def findServiceInstances (root : Element) : Except Raised (List Instance) :=
  (root.iter.filter isServiceInstance).mapM (findServiceInstance b)

def contains (needle text : Text) : Bool := text.tails.any fun rest => needle.isPrefixOf rest

def unknownService (n : Nat) : Text := "UnknownService_".toList ++ Nat.toDigits 10 n

/-- The definition of one instance; `n` is the number of those before it. -/
def combineDefinition (services : List Interface) (n : Nat) (i : Instance) : ServiceDefinition :=
  let serviceRef := i.serviceRef.getD []
  let named : ServiceDefinition :=
    match services.find? fun s => s.name == some serviceRef with
    | some s =>
      { ServiceDefinition.new with
        serviceName := s.name.getD (unknownService n),
        majorVersion := s.majorVersion.getD 1, minorVersion := s.minorVersion.getD 0,
        description := s.description.getD (some []) }
    | none =>
      { ServiceDefinition.new with
        serviceName := if serviceRef.isEmpty then unknownService n else serviceRef }
  let service := { named with
    instanceId := i.instanceId.getD n, bindingType := i.binding.getD "iceoryx2".toList,
    endpoint := i.endpoint.getD (some ("/lap/".toList ++ named.serviceName)) }
  let service := service.computeServiceId
  let name := b.lower service.serviceName
  { service with
    safetyLevel :=
      if contains "control".toList name || contains "safety".toList name then .ASIL_D else .QM }

def combineDefinitions (services : List Interface) (instances : List Instance) :
    List ServiceDefinition :=
  instances.mapIdx (combineDefinition b services)

structure ARXMLParser where
  services : List ServiceDefinition

def ARXMLParser.new : ARXMLParser := ⟨[]⟩

/-- `none` is a file with an `ET.ParseError`. The list that is returned is the one that the parser
keeps. -/
def ARXMLParser.parseFile (parser : ARXMLParser) :
    Option Element → Except Raised (List ServiceDefinition × ARXMLParser)
  | none => .ok ([],parser)
  | some root => do
    let services ← findServiceInterfaces b root
    let instances ← findServiceInstances b root
    let parser : ARXMLParser := ⟨parser.services ++ combineDefinitions b services instances⟩
    return (parser.services,parser)

end Parser

end LapCom.Arxml2yaml
