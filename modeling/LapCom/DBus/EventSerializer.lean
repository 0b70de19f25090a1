import LapCom.Bytes.Word
import LapCom.ComTypes
import LapCom.Memory.Object
import Mathlib.Tactic.SplitIfs

set_option autoImplicit false

namespace LapCom.DBus
open LapCom.Memory

/-- How the platform keeps a `UInt32` in memory. -/
structure Host where
  uint32 : TriviallyCopyable (BitVec 32)
  sizeof_uint32 : uint32.size = 4

def sizeT (n : Nat) : Nat := n%18446744073709551616

/-- What the elements of one container may take, `PTRDIFF_MAX`. -/
def maxBytes : Nat := 9223372036854775807

/-- `Vector<T>(n)` and `resize(n)` throw `std::length_error` beyond `max_size()`. -/
def allocate (size n : Nat) : Except Fault Unit :=
  if n*size ≤ maxBytes then .ok () else .error .lengthError

structure StdVector {T : Type} (t : TriviallyCopyable T) where
  elements : List T
  size_le : elements.length*t.size ≤ maxBytes

namespace EventSerializer

section Plain
variable {T : Type} (t : TriviallyCopyable T)

def serialize (data : T) : List Byte := t.bytes data

/-- `out` is the value of `T{}`. -/
def deserialize (out : T) (buf : List Byte) : Except Fault T :=
  if t.size ≤ buf.length then do
    let bytes ← load buf 0 t.size
    return t.ofBytes bytes
  else return out

end Plain

section String
variable (host : Host)

def serializeString (str : List Byte) : Except Fault (List Byte) := do
  let sz : BitVec 32 := BitVec.ofNat 32 str.length
  allocate 1 (sizeT (4+sz.toNat))
  let buf := List.replicate (sizeT (4+sz.toNat)) 0
  let buf ← store buf 0 (host.uint32.bytes sz)
  if sz ≠ 0 then do
    let src ← load str 0 sz.toNat
    store buf 4 src
  else return buf

def deserializeString (buf : List Byte) : Except Fault (List Byte) :=
  if buf.length < 4 then return []
  else do
    let header ← load buf 0 4
    let sz := host.uint32.ofBytes header
    if buf.length < sizeT (4+sz.toNat) then return []
    else load buf 4 sz.toNat

end String

section Vector
variable (host : Host) {T : Type} (t : TriviallyCopyable T)

def serializeVector (vec : StdVector t) : Except Fault (List Byte) := do
  let cnt : BitVec 32 := BitVec.ofNat 32 vec.elements.length
  let length := sizeT (cnt.toNat*t.size)
  allocate 1 (sizeT (4+length))
  let buf := List.replicate (sizeT (4+length)) 0
  let buf ← store buf 0 (host.uint32.bytes cnt)
  if cnt ≠ 0 then do
    let src ← load (t.arrayBytes vec.elements) 0 length
    store buf 4 src
  else return buf

def deserializeVector (buf : List Byte) : Except Fault (List T) :=
  if buf.length < 4 then return []
  else do
    let header ← load buf 0 4
    let cnt := host.uint32.ofBytes header
    let length := sizeT (cnt.toNat*t.size)
    if buf.length < sizeT (4+length) then return []
    else do
      allocate t.size cnt.toNat
      let bytes ← load buf 4 length
      return t.ofArray cnt.toNat bytes

end Vector

section RoundTrip
variable (host : Host) {T : Type} (t : TriviallyCopyable T)

theorem sizeT_of_lt {n : Nat} (h : n ≤ maxBytes+4) : sizeT n = n := by
  simp only [maxBytes] at h
  exact Nat.mod_eq_of_lt (by omega)

theorem header_length (n : BitVec 32) : (host.uint32.bytes n).length = 4 :=
  (host.uint32.bytes_length n).trans host.sizeof_uint32

theorem encoded_eq (n : BitVec 32) (payload : List Byte) (hfits : 4+payload.length ≤ maxBytes)
    (hempty : n = 0 → payload = []) :
    (do
      allocate 1 (4+payload.length)
      let buf ← store (List.replicate (4+payload.length) 0) 0 (host.uint32.bytes n)
      if n ≠ 0 then do
        let src ← load payload 0 payload.length
        store buf 4 src
      else return buf) = .ok (host.uint32.bytes n ++ payload) := by
  have hheader := store_replicate [] (host.uint32.bytes n) payload.length
  have hpayload := store_replicate (host.uint32.bytes n) payload 0
  have hall := load_append [] payload []
  simp only [header_length,List.nil_append,List.append_nil,Nat.add_zero,List.replicate_zero,
    List.length_nil] at hheader hpayload hall
  simp only [allocate,Nat.mul_one,hfits,if_true,bind,Except.bind,hheader]
  by_cases hn : n = 0
  · simp [hn,hempty hn,pure,Except.pure]
  · simp only [hn,ne_eq,not_false_eq_true,if_true,hall,hpayload]

theorem load_header (n : BitVec 32) (payload : List Byte) :
    load (host.uint32.bytes n ++ payload) 0 4 = .ok (host.uint32.bytes n) := by
  have h := load_append [] (host.uint32.bytes n) payload
  rwa [header_length] at h

theorem load_payload (n : BitVec 32) (payload : List Byte) :
    load (host.uint32.bytes n ++ payload) 4 payload.length = .ok payload := by
  have h := load_append (host.uint32.bytes n) payload []
  rwa [header_length,List.append_nil] at h

theorem toNat_count {n : Nat} (h : n < 4294967296) : (BitVec.ofNat 32 n).toNat = n := by
  rw [BitVec.toNat_ofNat]
  exact Nat.mod_eq_of_lt h

theorem serializeString_eq {str : List Byte} (h : str.length < 4294967296) :
    serializeString host str =
      .ok (host.uint32.bytes (BitVec.ofNat 32 str.length) ++ str) := by
  have hfits : 4+str.length ≤ maxBytes := by
    simp only [maxBytes]
    omega
  have hempty : BitVec.ofNat 32 str.length = 0 → str = [] := by
    intro hzero
    have hcount := congrArg BitVec.toNat hzero
    rw [toNat_count h] at hcount
    exact List.eq_nil_of_length_eq_zero hcount
  have h' := encoded_eq host _ str hfits hempty
  rw [serializeString]
  simp only [toNat_count h,sizeT_of_lt (Nat.le_add_right_of_le hfits)]
  exact h'

theorem deserializeString_eq {str : List Byte} (h : str.length < 4294967296) :
    deserializeString host (host.uint32.bytes (BitVec.ofNat 32 str.length) ++ str) = .ok str := by
  have hlength : (host.uint32.bytes (BitVec.ofNat 32 str.length) ++ str).length =
      4+str.length := by rw [List.length_append,header_length]
  have hsize : sizeT (4+str.length) = 4+str.length := sizeT_of_lt (by simp only [maxBytes]; omega)
  rw [deserializeString,hlength,if_neg (by omega)]
  simp only [load_header,bind,Except.bind,host.uint32.ofBytes_bytes,toNat_count h,hsize,
    Nat.lt_irrefl,if_false]
  exact load_payload host _ str

variable {t}

theorem serializeVector_eq {vec : StdVector t} (h : vec.elements.length < 4294967296) :
    serializeVector host t vec =
      if 4+vec.elements.length*t.size ≤ maxBytes then
        .ok (host.uint32.bytes (BitVec.ofNat 32 vec.elements.length) ++
          t.arrayBytes vec.elements)
      else .error .lengthError := by
  have hsize := vec.size_le
  have hbytes := t.arrayBytes_length vec.elements
  rw [serializeVector]
  simp only [toNat_count h,sizeT_of_lt (Nat.le_add_right_of_le hsize),
    sizeT_of_lt (show 4+vec.elements.length*t.size ≤ maxBytes+4 by omega)]
  by_cases hfits : 4+vec.elements.length*t.size ≤ maxBytes
  · have hempty : BitVec.ofNat 32 vec.elements.length = 0 → t.arrayBytes vec.elements = [] := by
      intro hzero
      have hcount := congrArg BitVec.toNat hzero
      rw [toNat_count h] at hcount
      rw [List.eq_nil_of_length_eq_zero hcount]
      rfl
    rw [if_pos hfits]
    rw [← hbytes] at hfits ⊢
    exact encoded_eq host _ _ hfits hempty
  · rw [if_neg hfits,allocate,Nat.mul_one,if_neg hfits]
    rfl

theorem deserializeVector_eq {vec : StdVector t} (h : vec.elements.length < 4294967296) :
    deserializeVector host t (host.uint32.bytes (BitVec.ofNat 32 vec.elements.length) ++
      t.arrayBytes vec.elements) = .ok vec.elements := by
  have hsize := vec.size_le
  have hbytes := t.arrayBytes_length vec.elements
  have hlength : (host.uint32.bytes (BitVec.ofNat 32 vec.elements.length) ++
      t.arrayBytes vec.elements).length = 4+vec.elements.length*t.size := by
    rw [List.length_append,header_length,hbytes]
  have hload := load_payload host (BitVec.ofNat 32 vec.elements.length)
    (t.arrayBytes vec.elements)
  rw [hbytes] at hload
  rw [deserializeVector,hlength,if_neg (by omega)]
  simp only [load_header,bind,Except.bind,host.uint32.ofBytes_bytes,toNat_count h,
    sizeT_of_lt (Nat.le_add_right_of_le hsize),
    sizeT_of_lt (show 4+vec.elements.length*t.size ≤ maxBytes+4 by omega),Nat.lt_irrefl,if_false,
    allocate,hsize,if_true,hload,pure,Except.pure,t.ofArray_arrayBytes]

theorem deserialize_eq (out v : T) : deserialize t out (serialize t v) = .ok v := by
  have hlength := t.bytes_length v
  have hload := load_append [] (t.bytes v) []
  simp only [List.nil_append,List.append_nil,List.length_nil,hlength] at hload
  rw [deserialize,serialize,hlength,if_pos (Nat.le_refl _)]
  simp only [hload,bind,Except.bind,t.ofBytes_bytes]
  rfl

end RoundTrip

section Bounds
variable (host : Host) {T : Type} (t : TriviallyCopyable T)

theorem deserialize_inside (out : T) (buf : List Byte) :
    deserialize t out buf ≠ .error .overread := by
  rw [deserialize]
  split_ifs with hsize
  · rw [load_of_le (by omega)]
    exact (nomatch ·)
  · exact (nomatch ·)

theorem deserializeString_inside (buf : List Byte) :
    deserializeString host buf ≠ .error .overread := by
  rw [deserializeString]
  split_ifs with hheader
  · exact (nomatch ·)
  · rw [load_of_le (by omega)]
    simp only [bind,Except.bind]
    generalize host.uint32.ofBytes ((buf.drop 0).take 4) = sz
    have hsum : sizeT (4+sz.toNat) = 4+sz.toNat := by
      have := sz.isLt
      exact sizeT_of_lt (by simp only [maxBytes]; omega)
    split_ifs with hlength
    · exact (nomatch ·)
    · rw [hsum] at hlength
      rw [load_of_le (by omega)]
      exact (nomatch ·)

/-- Where the product or the sum of the check wraps, `resize` throws. -/
theorem deserializeVector_inside (buf : List Byte) :
    deserializeVector host t buf ≠ .error .overread := by
  rw [deserializeVector]
  split_ifs with hheader
  · exact (nomatch ·)
  · rw [load_of_le (by omega)]
    simp only [bind,Except.bind]
    generalize host.uint32.ofBytes ((buf.drop 0).take 4) = cnt
    split_ifs with hlength
    · exact (nomatch ·)
    · by_cases hmax : cnt.toNat*t.size ≤ maxBytes
      · rw [sizeT_of_lt (Nat.le_add_right_of_le hmax),
          sizeT_of_lt (show 4+cnt.toNat*t.size ≤ maxBytes+4 by omega)] at hlength
        rw [allocate,if_pos hmax,sizeT_of_lt (Nat.le_add_right_of_le hmax),
          load_of_le (by omega)]
        exact (nomatch ·)
      · rw [allocate,if_neg hmax]
        exact (nomatch ·)

end Bounds

/-- The decoders take back what the encoders made, and no buffer leads them past its end. A vector
has no encoding only where no vector of bytes can hold it. -/
theorem codec_sound (host : Host) {T : Type} (t : TriviallyCopyable T) :
    (∀ str : List Byte, str.length < 4294967296 → ∃ buf, serializeString host str = .ok buf ∧
        deserializeString host buf = .ok str) ∧
      (∀ vec : StdVector t, vec.elements.length < 4294967296 →
        (∀ buf, serializeVector host t vec = .ok buf →
          deserializeVector host t buf = .ok vec.elements) ∧
        ((∃ buf, serializeVector host t vec = .ok buf) ↔
          4+vec.elements.length*t.size ≤ maxBytes)) ∧
      (∀ out v, deserialize t out (serialize t v) = .ok v) ∧
      ∀ buf, deserializeString host buf ≠ .error .overread ∧
        deserializeVector host t buf ≠ .error .overread ∧
        ∀ out, deserialize t out buf ≠ .error .overread := by
  refine ⟨fun str hlength => ?_,fun vec hlength => ?_,deserialize_eq,fun buf => ?_⟩
  · exact ⟨_,serializeString_eq host hlength,deserializeString_eq host hlength⟩
  · rw [serializeVector_eq host hlength]
    by_cases hfits : 4+vec.elements.length*t.size ≤ maxBytes
    · rw [if_pos hfits]
      refine ⟨fun buf hbuf => ?_,by simp [hfits]⟩
      cases hbuf
      exact deserializeVector_eq host hlength
    · rw [if_neg hfits]
      simp [hfits]
  · exact ⟨deserializeString_inside host buf,deserializeVector_inside host t buf,
      fun out => deserialize_inside t out buf⟩

section LittleEndian

theorem sizeof_pos : 0 < 4 := by decide

def littleEndian : Host where
  uint32 :=
    { size := 4
      size_pos := sizeof_pos
      bytes := Bytes.split [0,1,2,3]
      bytes_length := Bytes.split_length _
      ofBytes := Bytes.join 0 [0,1,2,3]
      ofBytes_bytes := Bytes.join_split (n := 4) (by decide) }
  sizeof_uint32 := rfl

/-- A header with more elements than the buffer holds. -/
example : deserializeVector littleEndian littleEndian.uint32 [2,0,0,0,9,0,0,0] = .ok [] := by
  decide

end LittleEndian

end EventSerializer

end LapCom.DBus
