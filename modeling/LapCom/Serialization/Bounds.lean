import LapCom.Serialization.Accesses

set_option autoImplicit false

namespace LapCom.Serialization.Accesses
open LapCom.Bytes LapCom.Machine LapCom.Machine.Traced

/-- An access to a buffer of `size` bytes that stays inside, or a sum that does not wrap. -/
def Access.Safe (size : Nat) : Access → Prop
  | .load index => index.toNat < size
  | .store index room => index < room
  | .add a b => a.toNat+b.toNat < 2^64

def hasMoreData : Step Bool := do
  let d ← Traced.state
  return decide (d.position.toNat < d.data.length)

def reset : Step Unit := fun d => ((),{ d with position := 0 },[])

inductive Call where
  | deserialize (ty : Ty) (target : ty.Target) (uninit : BitVec 64)
  | hasMoreData
  | reset

def Call.exec : Call → Step Unit
  | .deserialize ty target uninit => do
    let _ ← Accesses.deserialize uninit ty target
    return ()
  | .hasMoreData => do
    let _ ← Accesses.hasMoreData
    return ()
  | .reset => Accesses.reset

def execAll : List Call → Step Unit
  | [] => return ()
  | call :: calls => do
    call.exec
    execAll calls

def BinaryDeserializer.new (data : List Byte) (byteOrder : ByteOrder) : BinaryDeserializer :=
  ⟨data,byteOrder,0⟩

def Room (data : List Byte) (n : Nat) (d : BinaryDeserializer) : Prop :=
  d.data = data ∧ d.position.toNat+n ≤ data.length

section Bounds
variable {data : List Byte}

/-- From a position with `n` bytes left, the step only makes safe accesses and leaves `k` bytes. -/
def Reads {T : Type} (data : List Byte) (n : Nat) (m : Step T) (k : Nat) : Prop :=
  Triple (Access.Safe data.length) (Room data n) m fun _ => Room data k

theorem Room.weaken {n k : Nat} (h : k ≤ n) {d : BinaryDeserializer} (hd : Room data n d) :
    Room data k d := ⟨hd.1,by have := hd.2; omega⟩

theorem readByte_reads (hdata : data.length < 2^63) (n : Nat) :
    Reads data (n+1) readByte n := by
  rintro d ⟨rfl,hpos⟩
  have hnext : (d.position+1).toNat = d.position.toNat+1 := by
    rw [BitVec.toNat_add]
    exact Nat.mod_eq_of_lt (show d.position.toNat+1 < 2^64 by omega)
  refine ⟨⟨rfl,?_⟩,fun a ha => ?_⟩
  · simp only [run_readByte,hnext]
    omega
  · simp only [run_readByte,List.mem_cons,List.not_mem_nil,or_false] at ha
    rcases ha with rfl | rfl
    · show d.position.toNat+1 < 2^64
      omega
    · show d.position.toNat < d.data.length
      omega

theorem readPlaces_reads (hdata : data.length < 2^63) {w : Nat} (ps : List Nat)
    (value : BitVec w) (n : Nat) : Reads data (ps.length+n) (readPlaces ps value) n := by
  induction ps generalizing value with
  | nil => exact Triple.pure fun d hd => hd.weaken (by simp)
  | cons p ps ih =>
    rw [List.length_cons,Nat.add_right_comm]
    exact Triple.bind (readByte_reads hdata _) fun b => ih _

theorem readChars_reads (hdata : data.length < 2^63) (count : Nat) (value : List Byte) (n : Nat) :
    Reads data (count+n) (readChars count value) n := by
  induction count generalizing value with
  | zero => exact Triple.pure fun d hd => hd.weaken (by simp)
  | succ count ih =>
    rw [Nat.add_right_comm]
    exact Triple.bind (readByte_reads hdata _) fun b => ih _

theorem readInto_reads (hdata : data.length < 2^63) {room : Nat} (i count : Nat)
    (target : Vector Byte room) (h : i+count ≤ room) (n : Nat) :
    Reads data (count+n) (readInto i count target) n := by
  induction count generalizing i target with
  | zero => exact Triple.pure fun d hd => hd.weaken (by simp)
  | succ count ih =>
    rw [Nat.add_right_comm]
    have hstore : Access.Safe data.length (.store i room) := by
      show i < room
      omega
    exact Triple.bind (readByte_reads hdata _) fun b =>
      Triple.bind (Triple.record hstore) fun _ => ih (i+1) _ (by omega)

theorem checked_reads (hdata : data.length < 2^63) {T : Type} {size : BitVec 64}
    (hsize : size.toNat < 2^32) (refuses : BinaryDeserializer → BitVec 64 → Prop)
    [∀ d last, Decidable (refuses d last)] {failed : T} {m : BinaryDeserializer → Step T}
    (hrefuses : ∀ d last, ¬ refuses d last → last.toNat ≤ d.data.length)
    (hm : ∀ d last, ¬ refuses d last → Reads data size.toNat (m d) 0) :
    Reads data 0 (do
      let d ← Traced.state
      let last ← sum size
      if refuses d last then return failed else m d) 0 := by
  rintro d ⟨rfl,hpos⟩
  have hsum : Access.Safe d.data.length (.add d.position size) := by
    show d.position.toNat+size.toNat < 2^64
    omega
  simp only [run_bind,run_state,run_sum,List.nil_append,List.singleton_append]
  by_cases hc : refuses d (d.position+size)
  · simp only [hc,if_true,run_pure,List.mem_singleton]
    exact ⟨⟨rfl,hpos⟩,by rintro a rfl; exact hsum⟩
  · have hlast := hrefuses _ _ hc
    have hadd : (d.position+size).toNat = d.position.toNat+size.toNat := by
      rw [BitVec.toNat_add]
      exact Nat.mod_eq_of_lt hsum
    rw [hadd] at hlast
    obtain ⟨hroom,hsafe⟩ := hm d _ hc d ⟨rfl,hlast⟩
    simp only [hc,if_false,List.forall_mem_cons]
    exact ⟨hroom,hsum,hsafe⟩

theorem Reads.bind {S T : Type} {n k j : Nat} {m : Step S} {f : S → Step T}
    (hm : Reads data n m k) (hf : ∀ a, Reads data k (f a) j) : Reads data n (m >>= f) j :=
  Triple.bind hm hf

theorem Reads.pure {T : Type} {n : Nat} (a : T) : Reads data n (Pure.pure a) n :=
  Triple.pure fun _ hd => hd

theorem Reads.ite {T : Type} {n k : Nat} {c : Prop} [Decidable c] {m m' : Step T}
    (hm : c → Reads data n m k) (hm' : ¬ c → Reads data n m' k) :
    Reads data n (if c then m else m') k :=
  Triple.ite hm hm'

theorem deserializeByte_reads (hdata : data.length < 2^63) {T : Type} (convert : Byte → T)
    (value : T) : Reads data 0 (deserializeByte convert value) 0 := by
  rintro d ⟨rfl,hpos⟩
  by_cases hend : d.data.length ≤ d.position.toNat
  · simp only [deserializeByte,run_bind,run_state,hend,if_true,run_pure]
    exact ⟨⟨rfl,hpos⟩,by simp⟩
  · obtain ⟨hroom,hsafe⟩ := readByte_reads hdata 0 d ⟨rfl,by omega⟩
    simp only [deserializeByte,run_bind,run_state,hend,if_false,run_pure,List.nil_append,
      List.append_nil]
    exact ⟨hroom,hsafe⟩

theorem deserializeInteger_reads (hdata : data.length < 2^63) (size : Nat) (hsize : size < 2^32)
    (value : BitVec (8*size)) : Reads data 0 (deserializeInteger size value) 0 := by
  have htoNat : (BitVec.ofNat 64 size).toNat = size := Nat.mod_eq_of_lt (by omega)
  refine checked_reads hdata (by rwa [htoNat]) (fun d last => d.data.length < last.toNat)
    (fun _ _ => Nat.le_of_not_lt) fun d last _ => ?_
  have hplaces := readPlaces_reads hdata (d.byteOrder.places size) (0 : BitVec (8*size)) 0
  rw [ByteOrder.places_length,Nat.add_zero] at hplaces
  rw [htoNat]
  exact hplaces.bind fun value => .pure _

theorem deserializeString_reads (hdata : data.length < 2^63) (uninit : BitVec 32)
    (value : List Byte) : Reads data 0 (deserializeString uninit value) 0 := by
  have hlength : Reads data 0 (deserializeInteger 4 uninit) 0 :=
    deserializeInteger_reads hdata 4 (by decide) uninit
  refine hlength.bind fun ⟨result,length⟩ => ?_
  refine Reads.ite (fun _ => ?_) fun _ => Reads.pure _
  have htoNat : (length.setWidth 64).toNat = length.toNat := by
    rw [BitVec.toNat_setWidth]
    exact Nat.mod_eq_of_lt (by omega)
  refine checked_reads hdata (by rw [htoNat]; exact length.isLt)
    (fun d last => d.data.length < last.toNat) (fun _ _ => Nat.le_of_not_lt) fun d last _ => ?_
  rw [htoNat]
  exact (readChars_reads hdata length.toNat [] 0).bind fun value => .pure _

theorem deserializeBytes_reads (hdata : data.length < 2^63) {room : Nat} (length : BitVec 32)
    (target : Vector Byte room) : Reads data 0 (deserializeBytes length target) 0 := by
  have htoNat : (length.setWidth 64).toNat = length.toNat := by
    rw [BitVec.toNat_setWidth]
    exact Nat.mod_eq_of_lt (by omega)
  refine checked_reads hdata (by rw [htoNat]; exact length.isLt)
    (fun d last => d.data.length < last.toNat ∨ room < length.toNat)
    (fun d last h => Nat.le_of_not_lt (not_or.mp h).1) fun d last h => ?_
  have hfits : length.toNat ≤ room := Nat.le_of_not_lt (not_or.mp h).2
  rw [htoNat]
  exact (readInto_reads hdata 0 length.toNat target (by omega) 0).bind fun target => .pure _

theorem deserialize_reads (hdata : data.length < 2^63) (uninit : BitVec 64) (ty : Ty)
    (target : ty.Target) : Reads data 0 (deserialize uninit ty target) 0 := by
  have hinteger : ∀ size, size ≤ 8 → ∀ value, Reads data 0 (deserializeInteger size value) 0 :=
    fun size hsize value => deserializeInteger_reads hdata size (by omega) value
  cases ty with
  | bool => exact deserializeByte_reads hdata _ target
  | int8 => exact deserializeByte_reads hdata _ target
  | uint8 => exact deserializeByte_reads hdata _ target
  | int16 => exact (hinteger 2 (by decide) _).bind fun _ => .pure _
  | int32 => exact (hinteger 4 (by decide) _).bind fun _ => .pure _
  | int64 => exact (hinteger 8 (by decide) _).bind fun _ => .pure _
  | uint16 => exact (hinteger 2 (by decide) _).bind fun _ => .pure _
  | uint32 => exact (hinteger 4 (by decide) _).bind fun _ => .pure _
  | uint64 => exact (hinteger 8 (by decide) _).bind fun _ => .pure _
  | float => exact (hinteger 4 (by decide) _).bind fun _ => .pure _
  | double => exact (hinteger 8 (by decide) _).bind fun _ => .pure _
  | string => exact deserializeString_reads hdata _ target
  | bytes room length => exact deserializeBytes_reads hdata length target

theorem Call.exec_reads (hdata : data.length < 2^63) (call : Call) : Reads data 0 call.exec 0 := by
  cases call with
  | deserialize ty target uninit =>
    exact (deserialize_reads hdata uninit ty target).bind fun _ => .pure _
  | hasMoreData =>
    refine Reads.bind (Reads.bind ?_ fun _ => .pure _) fun _ => .pure _
    exact Triple.state fun d hd => hd
  | reset =>
    rintro d ⟨rfl,_⟩
    exact ⟨⟨rfl,Nat.zero_le _⟩,nofun⟩

theorem execAll_reads (hdata : data.length < 2^63) (calls : List Call) :
    Reads data 0 (execAll calls) 0 := by
  induction calls with
  | nil => exact .pure _
  | cons call calls ih => exact (call.exec_reads hdata).bind fun _ => ih

end Bounds

/-- After every sequence of calls the position is inside the buffer, and no access or sum of the
sequence went wrong. -/
theorem deserializer_safe (data : List Byte) (byteOrder : ByteOrder) (calls : List Call)
    (hdata : data.length < 2^63) :
    ((execAll calls).run (.new data byteOrder)).2.1.position.toNat ≤ data.length ∧
      ∀ access ∈ ((execAll calls).run (.new data byteOrder)).2.2, access.Safe data.length := by
  have hstart : Room data 0 (.new data byteOrder) := ⟨rfl,Nat.zero_le _⟩
  obtain ⟨hroom,hsafe⟩ := execAll_reads hdata calls _ hstart
  exact ⟨hroom.2,hsafe⟩

/-- A string whose length is far too large, then a signed integer from what is left. -/
theorem deserializer_safe_malformed :
    ((execAll [.deserialize .string ([] : List Byte) 0,.deserialize .int16 (0 : Int16) 0]).run
        (.new [255,255,255,255,1,2] .kBigEndian)).2.1.position.toNat ≤ 6 ∧
      ∀ access ∈ ((execAll [.deserialize .string ([] : List Byte) 0,
        .deserialize .int16 (0 : Int16) 0]).run
          (.new [255,255,255,255,1,2] .kBigEndian)).2.2, access.Safe 6 :=
  deserializer_safe [255,255,255,255,1,2] .kBigEndian _ (by decide)

end LapCom.Serialization.Accesses
