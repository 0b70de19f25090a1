import Mathlib.Data.Nat.Notation

set_option autoImplicit false

namespace LapCom.Memory

/-- What `memcpy` keeps of the values of a type: an object has `size` bytes, and an object with the
bytes of a value has that value. -/
structure TriviallyCopyable (T : Type) where
  size : Nat
  size_pos : 0 < size
  bytes : T → List (BitVec 8)
  bytes_length : ∀ v, (bytes v).length = size
  ofBytes : List (BitVec 8) → T
  ofBytes_bytes : ∀ v, ofBytes (bytes v) = v

namespace TriviallyCopyable
variable {T : Type} (t : TriviallyCopyable T)

/-- Elements lie one behind the other. -/
def arrayBytes (vs : List T) : List (BitVec 8) := vs.flatMap t.bytes

def ofArray : Nat → List (BitVec 8) → List T
  | 0, _ => []
  | n+1, bs => t.ofBytes (bs.take t.size) :: ofArray n (bs.drop t.size)

theorem arrayBytes_length (vs : List T) : (t.arrayBytes vs).length = vs.length*t.size := by
  induction vs with
  | nil => simp [arrayBytes]
  | cons v vs ih =>
    rw [arrayBytes] at ih
    simp [arrayBytes,ih,t.bytes_length,Nat.succ_mul,Nat.add_comm]

theorem ofArray_arrayBytes (vs : List T) : t.ofArray vs.length (t.arrayBytes vs) = vs := by
  induction vs with
  | nil => rfl
  | cons v vs ih =>
    have hbytes : t.arrayBytes (v :: vs) = t.bytes v ++ t.arrayBytes vs := rfl
    have hsize := t.bytes_length v
    rw [List.length_cons,ofArray,hbytes,← hsize,List.take_left,List.drop_left,
      t.ofBytes_bytes,ih]

end TriviallyCopyable

/-- What a copy of memory and a container's constructor can run into. -/
inductive Fault where
  | overread | overwrite | lengthError
  deriving DecidableEq, Repr

def load (buf : List (BitVec 8)) (offset n : Nat) : Except Fault (List (BitVec 8)) :=
  if offset+n ≤ buf.length then .ok ((buf.drop offset).take n) else .error .overread

def store (buf : List (BitVec 8)) (offset : Nat) (src : List (BitVec 8)) :
    Except Fault (List (BitVec 8)) :=
  if offset+src.length ≤ buf.length then
    .ok (buf.take offset ++ (src ++ buf.drop (offset+src.length)))
  else .error .overwrite

theorem load_of_le {buf : List (BitVec 8)} {offset n : Nat} (h : offset+n ≤ buf.length) :
    load buf offset n = .ok ((buf.drop offset).take n) := if_pos h

theorem load_append (a b c : List (BitVec 8)) : load (a ++ (b ++ c)) a.length b.length = .ok b := by
  rw [load_of_le (by simp),List.drop_left,List.take_left]

theorem store_append (a b c src : List (BitVec 8)) (h : b.length = src.length) :
    store (a ++ (b ++ c)) a.length src = .ok (a ++ (src ++ c)) := by
  rw [store,if_pos (by simp [h]),List.take_left,← h,← List.drop_drop,List.drop_left,
    List.drop_left]

theorem store_replicate (a src : List (BitVec 8)) (n : Nat) :
    store (a ++ List.replicate (src.length+n) 0) a.length src =
      .ok (a ++ src ++ List.replicate n 0) := by
  rw [← List.replicate_append_replicate,store_append _ _ _ _ List.length_replicate,
    List.append_assoc]

end LapCom.Memory
