import Mathlib

set_option autoImplicit false

namespace LapCom.Binding

abbrev Priority := Fin (2^32)

/-- Two of the named values of `BindingPriority`; a file may set any other number. -/
def BindingPriority.iceoryx2 : Priority := 100
def BindingPriority.dds : Priority := 80

structure BindingConfig where
  name : String
  libraryPath : String
  priority : Priority
  enabled : Bool
  deriving DecidableEq, Repr

structure StaticBindingMapping where
  serviceId : BitVec 64
  instanceId : BitVec 64
  bindingName : String
  deriving DecidableEq, Repr

/-- One element of `static_mappings` as yaml-cpp hands it out: strings with their
fallbacks, and whether `instance_id` is there. -/
structure MappingNode where
  serviceId : String
  instanceId : Option String
  binding : String

/-- A loaded file. An element is `none` where reading it throws. -/
structure Document where
  bindings : List (Option BindingConfig)
  staticMappings : List (Option MappingNode)

def isSpace (c : Char) : Bool := c.val = 32 ∨ (9 ≤ c.val ∧ c.val ≤ 13)

def digitValue (base : Nat) (c : Char) : Option Nat :=
  let n := c.toNat
  let v := if 48 ≤ n ∧ n ≤ 57 then n-48
    else if 97 ≤ n ∧ n ≤ 122 then n-87
    else if 65 ≤ n ∧ n ≤ 90 then n-55
    else base
  if v < base then some v else none

def skipHexPrefix : List Char → List Char
  | '0' :: x :: d :: rest =>
      if (x = 'x' ∨ x = 'X') ∧ (digitValue 16 d).isSome then d :: rest else '0' :: x :: d :: rest
  | s => s

/-- `std::stoull(s, nullptr, base)`; `none` is an exception. -/
def stoull (s : List Char) (base : Nat) : Option (BitVec 64) :=
  let s := s.dropWhile isSpace
  let negative := s.head? = some '-'
  let s := if s.head? = some '-' ∨ s.head? = some '+' then s.tail else s
  let s := if base = 16 then skipHexPrefix s else s
  let digits := s.takeWhile fun c => (digitValue base c).isSome
  let n := digits.foldl (fun n c => n*base+(digitValue base c).getD 0) 0
  if digits = [] ∨ 2^64 ≤ n then none
  else some (if negative then -(BitVec.ofNat 64 n) else BitVec.ofNat 64 n)

def parseId (s : String) : Option (BitVec 64) :=
  let s := s.toList
  if ['0','x'].isPrefixOf s ∨ ['0','X'].isPrefixOf s then stoull s 16 else stoull s 10

def MappingNode.parse (node : MappingNode) : Option StaticBindingMapping :=
  match parseId node.serviceId with
  | none => none
  | some serviceId =>
    match node.instanceId with
    | none => some ⟨serviceId,0,node.binding⟩
    | some s => (parseId s).map fun instanceId => ⟨serviceId,instanceId,node.binding⟩

/-- The mappings pushed before the first exception, and whether there was none. -/
def parseMappings : List (Option MappingNode) → List StaticBindingMapping × Bool
  | [] => ([],true)
  | node :: rest =>
    match node.bind MappingNode.parse with
    | none => ([],false)
    | some mapping => (mapping :: (parseMappings rest).1,(parseMappings rest).2)

def parseBindings : List (Option BindingConfig) → Option (List BindingConfig)
  | [] => some []
  | none :: _ => none
  | some config :: rest => (parseBindings rest).map fun configs => config :: configs

def parseYamlConfig (file : Option Document) :
    List StaticBindingMapping × Option (List BindingConfig) :=
  match file with
  | none => ([],none)
  | some doc =>
    match parseBindings doc.bindings with
    | none => ([],none)
    | some configs =>
      ((parseMappings doc.staticMappings).1,
        if (parseMappings doc.staticMappings).2 then some configs else none)

example : parseId "0xF001" = some 0xF001 := by decide

end LapCom.Binding
