import Mathlib.Data.List.TakeWhile
import Mathlib.Tactic.IntervalCases

set_option autoImplicit false

/-! Texts as lists of characters: where a character is found, and hexadecimal numbers as
streams print them and `std::stoull` reads them. -/

namespace LapCom.Text

def find (text : List Char) (a : Char) (pos : Nat) : Option Nat :=
  ((text.drop pos).findIdx? fun b => b == a).map fun i => pos+i

def substr (text : List Char) (pos count : Nat) : List Char := (text.drop pos).take count

theorem find_append {p q r : List Char} {a : Char} (h : a ∉ q) :
    find (p++(q++a :: r)) a p.length = some (p.length+q.length) := by
  have hq : q.findIdx? (fun b => b == a) = none := by
    rw [List.findIdx?_eq_none_iff]
    intro b hb
    rw [beq_eq_false_iff_ne]
    rintro rfl
    exact h hb
  rw [find,List.drop_left,List.findIdx?_append,hq]
  simp [List.findIdx?_cons]

theorem substr_append (p q r : List Char) :
    substr (p++(q++r)) p.length q.length = q := by
  rw [substr,List.drop_left,List.take_left]

def hexDigit? (a : Char) : Option Nat :=
  if '0' ≤ a ∧ a ≤ '9' then some (a.toNat-48)
  else if 'a' ≤ a ∧ a ≤ 'f' then some (a.toNat-87)
  else if 'A' ≤ a ∧ a ≤ 'F' then some (a.toNat-55)
  else none

def isHexDigit (a : Char) : Bool := (hexDigit? a).isSome

def hexValue (digits : List Char) : Nat :=
  digits.foldl (fun n a => 16*n+(hexDigit? a).getD 0) 0

/-- What `std::hex` prints. -/
def hex (n : Nat) : List Char := Nat.toDigits 16 n

/-- What `std::hex` prints with `std::setfill('0')` and a width. -/
def hexWidth (width n : Nat) : List Char :=
  List.replicate (width-(hex n).length) '0'++hex n

theorem hexDigit_digitChar {d : Nat} (hd : d < 16) : hexDigit? (Nat.digitChar d) = some d := by
  interval_cases d <;> rfl

theorem hexValue_concat (digits : List Char) (a : Char) :
    hexValue (digits++[a]) = 16*hexValue digits+(hexDigit? a).getD 0 := by
  simp [hexValue,List.foldl_append]

theorem hex_of_lt {n : Nat} (hn : n < 16) : hex n = [Nat.digitChar n] :=
  Nat.toDigits_of_lt_base hn

theorem hex_of_le {n : Nat} (hn : 16 ≤ n) : hex n = hex (n/16)++[Nat.digitChar (n%16)] :=
  Nat.toDigits_of_base_le (by decide) hn

theorem hexValue_hex (n : Nat) : hexValue (hex n) = n := by
  induction n using Nat.strongRecOn with
  | ind n ih =>
    by_cases hn : n < 16
    · rw [hex_of_lt hn]
      simp [hexValue,hexDigit_digitChar hn]
    · rw [hex_of_le (by omega),hexValue_concat,ih (n/16) (by omega),
        hexDigit_digitChar (Nat.mod_lt n (by decide)),Option.getD_some]
      omega

theorem hex_digits (n : Nat) : ∀ a, a ∈ hex n → isHexDigit a = true := by
  have hdigit {d : Nat} (hd : d < 16) : isHexDigit (Nat.digitChar d) = true := by
    rw [isHexDigit,hexDigit_digitChar hd]
    rfl
  induction n using Nat.strongRecOn with
  | ind n ih =>
    intro a ha
    by_cases hn : n < 16
    · rw [hex_of_lt hn,List.mem_singleton] at ha
      rw [ha]
      exact hdigit hn
    · rw [hex_of_le (by omega)] at ha
      obtain ha | ha := List.mem_append.mp ha
      · exact ih (n/16) (by omega) a ha
      · rw [List.mem_singleton.mp ha]
        exact hdigit (Nat.mod_lt n (by decide))

theorem hex_ne_nil (n : Nat) : hex n ≠ [] := Nat.toDigits_ne_nil

theorem hex_injective : Function.Injective hex :=
  Function.LeftInverse.injective hexValue_hex

theorem hex_not_mem {a : Char} (ha : isHexDigit a = false) (n : Nat) : a ∉ hex n := by
  intro h
  rw [hex_digits n a h] at ha
  cases ha

theorem append_separated {a : Char} {p q r s : List Char} (hp : a ∉ p) (hq : a ∉ q)
    (h : p++a :: r = q++a :: s) : p = q ∧ r = s := by
  induction p generalizing q with
  | nil =>
    cases q with
    | nil => exact ⟨rfl,(List.cons.inj h).2⟩
    | cons b q => exact absurd (by simp [(List.cons.inj h).1]) hq
  | cons b p ih =>
    cases q with
    | nil => exact absurd (by simp [(List.cons.inj h).1]) hp
    | cons b' q =>
      obtain ⟨rfl,hrest⟩ := List.cons.inj h
      obtain ⟨rfl,hrs⟩ := ih (fun h => hp (by simp [h])) (fun h => hq (by simp [h])) hrest
      exact ⟨rfl,hrs⟩

theorem hex_separated {a : Char} (ha : isHexDigit a = false) {l m n l' m' n' : Nat}
    (h : hex l++a :: (hex m++a :: hex n) = hex l'++a :: (hex m'++a :: hex n')) :
    l = l' ∧ m = m' ∧ n = n' := by
  obtain ⟨hl,hrest⟩ := append_separated (hex_not_mem ha l) (hex_not_mem ha l') h
  obtain ⟨hm,hn⟩ := append_separated (hex_not_mem ha m) (hex_not_mem ha m') hrest
  exact ⟨hex_injective hl,hex_injective hm,hex_injective hn⟩

theorem hexValue_replicate (k : Nat) (digits : List Char) :
    hexValue (List.replicate k '0'++digits) = hexValue digits := by
  induction k with
  | zero => rfl
  | succ k ih => exact ih

theorem hexWidth_injective (width : Nat) {m n : Nat} (h : hexWidth width m = hexWidth width n) :
    m = n := by
  have hvalue := congrArg hexValue h
  rwa [hexWidth,hexWidth,hexValue_replicate,hexValue_replicate,hexValue_hex,hexValue_hex] at hvalue

theorem hexWidth_length {width n : Nat} (hwidth : 0 < width) (hn : n < 16^width) :
    (hexWidth width n).length = width := by
  have hlen : (hex n).length ≤ width := (Nat.length_toDigits_le_iff (by decide) hwidth).mpr hn
  rw [hexWidth,List.length_append,List.length_replicate]
  omega

inductive NumberError where
  | invalidArgument
  | outOfRange
  deriving DecidableEq

def isSpace (a : Char) : Bool :=
  a = ' ' || a = '\t' || a = '\n' || a = '\x0b' || a = '\x0c' || a = '\r'

def readSign : List Char → Bool × List Char
  | '-' :: text => (true,text)
  | '+' :: text => (false,text)
  | text => (false,text)

def skipBase : List Char → List Char
  | '0' :: x :: a :: text =>
    if (x = 'x' || x = 'X') && isHexDigit a then a :: text else '0' :: x :: a :: text
  | text => text

/-- `std::stoull` in base 16. -/
def stoull (text : List Char) : Except NumberError (BitVec 64) :=
  let (negative,text) := readSign (text.dropWhile isSpace)
  let digits := (skipBase text).takeWhile isHexDigit
  if digits = [] then .error .invalidArgument
  else if 2^64 ≤ hexValue digits then .error .outOfRange
  else
    let value := BitVec.ofNat 64 (hexValue digits)
    .ok (if negative then -value else value)

theorem not_space_of_hexDigit {a : Char} (h : isHexDigit a = true) : isSpace a = false := by
  cases hspace : isSpace a with
  | false => rfl
  | true =>
    simp only [isSpace,Bool.or_eq_true,decide_eq_true_eq] at hspace
    obtain ((((rfl | rfl) | rfl) | rfl) | rfl) | rfl := hspace <;> cases h

theorem readSign_of_hexDigit {a : Char} (h : isHexDigit a = true) (text : List Char) :
    readSign (a :: text) = (false,a :: text) := by
  rw [readSign.eq_def]
  split
  · next heq =>
    cases heq
    cases h
  · next heq =>
    cases heq
    cases h
  · rfl

theorem skipBase_of_hexDigits {digits : List Char} (h : ∀ a, a ∈ digits → isHexDigit a = true) :
    skipBase digits = digits := by
  rw [skipBase.eq_def]
  split
  · next x a text =>
    have hx : isHexDigit x = true := h x (by simp)
    apply if_neg
    intro hbase
    simp only [Bool.and_eq_true,Bool.or_eq_true,decide_eq_true_eq] at hbase
    obtain ⟨rfl | rfl,_⟩ := hbase <;> cases hx
  · rfl

theorem stoull_digits {digits : List Char} (hne : digits ≠ [])
    (hdigits : ∀ a, a ∈ digits → isHexDigit a = true) (hlt : hexValue digits < 2^64) :
    stoull digits = .ok (BitVec.ofNat 64 (hexValue digits)) := by
  obtain ⟨a,rest,rfl⟩ := List.exists_cons_of_ne_nil hne
  have ha := hdigits a List.mem_cons_self
  have hspace : (a :: rest).dropWhile isSpace = a :: rest :=
    List.dropWhile_cons_of_neg (by simp [not_space_of_hexDigit ha])
  have htake : (a :: rest).takeWhile isHexDigit = a :: rest :=
    List.takeWhile_eq_self_iff.mpr hdigits
  simp only [stoull,hspace,readSign_of_hexDigit ha,skipBase_of_hexDigits hdigits,htake]
  rw [if_neg hne,if_neg (by omega)]
  rfl

end LapCom.Text
