set_option autoImplicit false

namespace LapCom

abbrev Byte := BitVec 8

/-- The error codes of `ComErrc` that the modelled functions return. -/
inductive ComErrc where
  | kServiceNotAvailable
  | kMaxSamplesExceeded
  | kNetworkBindingFailure
  | kSetHandlerNotSet
  | kBindingConnectionError
  | kCommunicationLinkError
  | kInvalidArgument
  | kServiceNotOffered
  | kNotInitialized
  | kInternal
  | kTimeout
  | kMessageTooLarge
  | kDeserializationError
  | kSerializationError
  | kInvalidState
  deriving DecidableEq, Repr

def ComErrc.value : ComErrc → BitVec 32
  | .kServiceNotAvailable => 0x01
  | .kMaxSamplesExceeded => 0x02
  | .kNetworkBindingFailure => 0x03
  | .kSetHandlerNotSet => 0x06
  | .kBindingConnectionError => 0x09
  | .kCommunicationLinkError => 0x0A
  | .kInvalidArgument => 0x0C
  | .kServiceNotOffered => 0x0D
  | .kNotInitialized => 0x12
  | .kTimeout => 0x13
  | .kMessageTooLarge => 0x14
  | .kSerializationError => 0x15
  | .kDeserializationError => 0x16
  | .kInvalidState => 0x18
  | .kInternal => 0x19

structure ErrorCode where
  code : ComErrc
  supportData : Nat
  deriving DecidableEq, Repr

abbrev Result (α : Type) := Except ErrorCode α

def Result.hasValue {α : Type} : Result α → Bool
  | .ok _ => true
  | .error _ => false

def fail {α : Type} (code : ComErrc) (supportData : Nat) : Result α := .error ⟨code,supportData⟩

inductive E2EResult where
  | kOk | kNotAvailable | kNoNewData | kRepeated | kWrongSequence | kError
  deriving DecidableEq, Repr

structure E2ECheckStatus where
  result : E2EResult
  counter : BitVec 32
  deriving DecidableEq, Repr

end LapCom
