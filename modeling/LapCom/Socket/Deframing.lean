import LapCom.Machine.Run
import LapCom.Socket.Method
import LapCom.Socket.Serializer

set_option autoImplicit false

namespace LapCom.Socket
open LapCom.Machine LapCom.Serialization

/-- What `ParseFromArray` is handed; the size is an `int`. -/
structure ParseRange where
  offset : Nat
  size : Int
  deriving DecidableEq

def ParseRange.Inside (r : ParseRange) (data : Span) : Prop :=
  0 ≤ r.size ∧ r.offset+r.size ≤ data.bytes.length

inductive DeserializerCall where
  | deserializeMessage (parsed : Bool)
  | reset

namespace ProtobufDeserializer

def messageSize (d : ProtobufDeserializer) : Nat :=
  ntohl ((d.data.bytes.drop d.position).take 4)

def handed (d : ProtobufDeserializer) : Option ParseRange :=
  if d.remaining < 4 then none
  else if d.remaining < (4+d.messageSize) % 4294967296 then none
  else some ⟨d.position+4,asInt d.messageSize⟩

def advance (d : ProtobufDeserializer) : ProtobufDeserializer :=
  { d with position := (d.position+(4+d.messageSize) % 4294967296) % 18446744073709551616 }

def reads (d : ProtobufDeserializer) (parsed : Bool) : Bool := d.handed.isSome && parsed

def deframe (d : ProtobufDeserializer) (parsed : Bool) : ProtobufDeserializer :=
  if d.reads parsed then d.advance else d

theorem reads_of_none {d : ProtobufDeserializer} (h : d.handed = none) (parsed : Bool) :
    d.reads parsed = false := by
  rw [reads,h]
  rfl

theorem reads_of_some {d : ProtobufDeserializer} {r : ParseRange} (h : d.handed = some r)
    (parsed : Bool) : d.reads parsed = parsed := by
  rw [reads,h]
  rfl

theorem deframe_of_reads {d : ProtobufDeserializer} {parsed : Bool} (h : d.reads parsed = true) :
    d.deframe parsed = d.advance := by
  rw [deframe,if_pos h]

theorem deframe_of_fails {d : ProtobufDeserializer} {parsed : Bool} (h : d.reads parsed = false) :
    d.deframe parsed = d := by
  rw [deframe,h]
  rfl

theorem deserializeMessage_deframe {V : Type} (m : MessageLite V) (d : ProtobufDeserializer)
    {parsed : Bool} (hparsed :
      parsed = (m.parseFromArray (d.data.bytes.drop (d.position+4))
        (asInt d.messageSize)).isSome) :
    ((d.deserializeMessage m).1.hasValue,(d.deserializeMessage m).2) =
      (d.reads parsed,d.deframe parsed) := by
  by_cases hfour : d.remaining < 4
  · have hnone : d.handed = none := by rw [handed,if_pos hfour]
    have hfails := reads_of_none hnone parsed
    rw [deframe_of_fails hfails,hfails,deserializeMessage,if_pos hfour]
    rfl
  · by_cases hsize : d.remaining < (4+d.messageSize) % 4294967296
    · have hnone : d.handed = none := by rw [handed,if_neg hfour,if_pos hsize]
      have hfails := reads_of_none hnone parsed
      rw [deframe_of_fails hfails,hfails,deserializeMessage,if_neg hfour]
      simp only [Nat.reducePow]
      rw [← messageSize,if_pos hsize]
      rfl
    · have hsome : d.handed = some ⟨d.position+4,asInt d.messageSize⟩ := by
        rw [handed,if_neg hfour,if_neg hsize]
      have hreads := reads_of_some hsome parsed
      rw [deserializeMessage,if_neg hfour]
      simp only [Nat.reducePow]
      rw [← messageSize,if_neg hsize]
      cases hresult : m.parseFromArray (d.data.bytes.drop (d.position+4))
          (asInt d.messageSize) with
      | none =>
        rw [hresult] at hparsed
        subst hparsed
        rw [deframe_of_fails hreads,hreads]
        rfl
      | some v =>
        rw [hresult] at hparsed
        subst hparsed
        rw [deframe_of_reads hreads,hreads]
        rfl

def step (d : ProtobufDeserializer) : DeserializerCall → ProtobufDeserializer
  | .deserializeMessage parsed => d.deframe parsed
  | .reset => d.reset

/-- The call stays in the buffer, and moves behind a whole frame or not at all. -/
def Deframes (d : ProtobufDeserializer) : DeserializerCall → Prop
  | .deserializeMessage parsed =>
    (∀ r, d.handed = some r → r.Inside d.data) ∧
    (d.deframe parsed).position ≤ d.data.bytes.length ∧
    (d.reads parsed = true → (d.deframe parsed).position = d.position+(4+d.messageSize)) ∧
    (d.reads parsed = false → (d.deframe parsed).position = d.position)
  | .reset => d.reset.position ≤ d.data.bytes.length

/-- Four bytes more than the prefix says fit in 32 bits, and a message that is there in whole
has a size that fits in an `int`. -/
def Sized (d : ProtobufDeserializer) : DeserializerCall → Prop
  | .deserializeMessage _ => 4 ≤ d.remaining →
    4+d.messageSize < 4294967296 ∧ (4+d.messageSize ≤ d.remaining → d.messageSize < 2147483648)
  | .reset => True

variable {d : ProtobufDeserializer}

theorem handed_eq_some {r : ParseRange} (h : d.handed = some r) :
    4 ≤ d.remaining ∧ (4+d.messageSize) % 4294967296 ≤ d.remaining ∧
      r = ⟨d.position+4,asInt d.messageSize⟩ := by
  rw [handed] at h
  split_ifs at h with hfour hsize
  exact ⟨by omega,by omega,(Option.some.inj h).symm⟩

theorem deframe_cases (d : ProtobufDeserializer) (parsed : Bool) :
    (d.reads parsed = true ∧ 4 ≤ d.remaining ∧ (4+d.messageSize) % 4294967296 ≤ d.remaining ∧
      d.deframe parsed = d.advance) ∨
    (d.reads parsed = false ∧ d.deframe parsed = d) := by
  cases hreads : d.reads parsed with
  | true =>
    obtain ⟨r,hr⟩ := Option.isSome_iff_exists.mp (Bool.and_eq_true_iff.mp hreads).1
    obtain ⟨hfour,hsize,-⟩ := handed_eq_some hr
    exact .inl ⟨rfl,hfour,hsize,deframe_of_reads hreads⟩
  | false => exact .inr ⟨rfl,deframe_of_fails hreads⟩

theorem step_data (d : ProtobufDeserializer) (e : DeserializerCall) :
    (d.step e).data = d.data := by
  cases e with
  | reset => rfl
  | deserializeMessage parsed =>
    rw [step]
    obtain ⟨-,-,-,hdeframe⟩ | ⟨-,hdeframe⟩ := d.deframe_cases parsed
    · rw [hdeframe,advance]
    · rw [hdeframe]

theorem advance_position (h : d.position ≤ d.data.bytes.length)
    (hsize : (4+d.messageSize) % 4294967296 ≤ d.remaining) :
    d.advance.position = d.position+(4+d.messageSize) % 4294967296 := by
  have hremaining := remaining_eq h
  have hlt := d.data.size_lt
  exact Nat.mod_eq_of_lt (by omega)

theorem deframe_position_le (h : d.position ≤ d.data.bytes.length) (parsed : Bool) :
    (d.deframe parsed).position ≤ d.data.bytes.length := by
  obtain ⟨-,-,hsize,hdeframe⟩ | ⟨-,hdeframe⟩ := d.deframe_cases parsed
  · have hremaining := remaining_eq h
    rw [hdeframe,advance_position h hsize]
    omega
  · rw [hdeframe]
    exact h

theorem step_position_le (h : d.position ≤ d.data.bytes.length) (e : DeserializerCall) :
    (d.step e).position ≤ (d.step e).data.bytes.length := by
  rw [step_data]
  cases e with
  | reset => exact Nat.zero_le _
  | deserializeMessage parsed => exact deframe_position_le h parsed

theorem toInt_messageSize (d : ProtobufDeserializer) :
    asInt d.messageSize =
      if d.messageSize < 2147483648 then (d.messageSize : Int)
      else (d.messageSize : Int)-4294967296 := by
  have hlt : d.messageSize < 4294967296 := Method.ntohl_lt _
  rw [asInt,BitVec.toInt_eq_toNat_cond,BitVec.toNat_ofNat,Nat.mod_eq_of_lt hlt]
  split_ifs <;> omega

/-- A size in range is handed on as it is, and with a whole frame behind the position. -/
theorem inside_iff (h : d.position ≤ d.data.bytes.length) :
    (∀ r, d.handed = some r → r.Inside d.data) ↔ (4 ≤ d.remaining →
      4+d.messageSize < 4294967296 ∧
        (4+d.messageSize ≤ d.remaining → d.messageSize < 2147483648)) := by
  have hremaining := remaining_eq h
  have hlt : d.messageSize < 4294967296 := Method.ntohl_lt _
  constructor
  · intro hinside hfour
    by_cases hfits : 4+d.messageSize < 4294967296
    · refine ⟨hfits,fun hthere => ?_⟩
      have hhanded : d.handed = some ⟨d.position+4,asInt d.messageSize⟩ := by
        rw [handed,if_neg (by omega),if_neg (by omega)]
      have hnonneg := (hinside _ hhanded).1
      dsimp only at hnonneg
      rw [toInt_messageSize] at hnonneg
      split_ifs at hnonneg <;> omega
    · have hhanded : d.handed = some ⟨d.position+4,asInt d.messageSize⟩ := by
        rw [handed,if_neg (by omega),if_neg (by omega)]
      have hnonneg := (hinside _ hhanded).1
      dsimp only at hnonneg
      rw [toInt_messageSize] at hnonneg
      split_ifs at hnonneg <;> omega
  · intro hsized r hr
    obtain ⟨hfour,hsize,rfl⟩ := handed_eq_some hr
    obtain ⟨hfits,hint⟩ := hsized hfour
    rw [Nat.mod_eq_of_lt hfits] at hsize
    have hsmall := hint hsize
    rw [ParseRange.Inside,toInt_messageSize,if_pos hsmall]
    dsimp only
    omega

theorem deframes_iff (h : d.position ≤ d.data.bytes.length) (e : DeserializerCall) :
    d.Deframes e ↔ d.Sized e := by
  cases e with
  | reset => exact ⟨fun _ => trivial,fun _ => Nat.zero_le _⟩
  | deserializeMessage parsed =>
    refine ⟨fun hframes => (inside_iff h).mp hframes.1,fun hsized => ?_⟩
    refine ⟨(inside_iff h).mpr hsized,deframe_position_le h parsed,?_⟩
    obtain ⟨hreads,hfour,hsize,hdeframe⟩ | ⟨hfails,hdeframe⟩ := d.deframe_cases parsed
    · rw [hdeframe,hreads,advance_position h hsize,Nat.mod_eq_of_lt (hsized hfour).1]
      exact ⟨fun _ => rfl,(nomatch ·)⟩
    · rw [hdeframe,hfails]
      exact ⟨(nomatch ·),fun _ => rfl⟩

abbrev after (data : Span) (σ : Nat → DeserializerCall) (k : Nat) : ProtobufDeserializer :=
  stateAt step (new data) σ k

theorem run_deframes_iff (data : Span) (σ : Nat → DeserializerCall) (n : Nat) :
    (∀ k, k < n → (after data σ k).Deframes (σ k)) ↔
      ∀ k, k < n → (after data σ k).Sized (σ k) := by
  refine forall_iff_of_invariant
    (I := fun k => (after data σ k).position ≤ (after data σ k).data.bytes.length)
    (Nat.zero_le _) ?_ fun k hk => deframes_iff hk (σ k)
  intro k hk _
  rw [after,stateAt_succ]
  exact step_position_le hk (σ k)

/-- The prefix is the greatest of 32 bits, and nothing comes after it. -/
def oversized : Span := ⟨List.replicate 4 0xFF#8,by decide⟩

theorem oversized_not_deframes :
    ¬ (new oversized).Deframes (.deserializeMessage true) ∧
      ¬ (new oversized).Deframes (.deserializeMessage false) := by
  have hhanded : (new oversized).handed = some ⟨4,-1⟩ := by decide +kernel
  constructor
  · rintro ⟨hinside,-⟩
    exact absurd (hinside _ hhanded).1 (by decide)
  · rintro ⟨hinside,-⟩
    exact absurd (hinside _ hhanded).1 (by decide)

end ProtobufDeserializer

end LapCom.Socket
