import LapCom.Crc.Polynomial
import LapCom.E2E.Profile1
import Mathlib.Tactic.IntervalCases

set_option autoImplicit false

namespace LapCom.E2E
open Polynomial

/-- One pass of the loop of `Crc8Update`: the byte is promoted to `int`, and the assignment keeps
the low byte of what was computed there. -/
def crc8Pass (crc : Byte) : Byte :=
  let int : BitVec 32 := crc.setWidth 32
  if int &&& 0x80 ≠ 0 then ((int <<< 1) ^^^ 0x1D).setWidth 8 else (int <<< 1).setWidth 8

theorem crc8Pass_eq (crc : Byte) : crc8Pass crc = crc8Step crc := by
  revert crc
  decide +kernel

theorem iterate_crc8Pass (n : Nat) (crc : Byte) : crc8Pass^[n] crc = crc8Loop n crc := by
  induction n generalizing crc with
  | zero => rfl
  | succ n ih => rw [Function.iterate_succ_apply,ih,crc8Pass_eq,crc8Loop]

section Copies

def E2EProfile1Protector.crc8Update (_ : E2EProfile1Protector) (crc data : Byte) : Byte :=
  crc8Pass^[8] (crc ^^^ data)

def E2EProfile1Protector.calculateCRC8 (p : E2EProfile1Protector) (data : List Byte)
    (counter : Byte) (dataId : BitVec 16) : Byte :=
  let crc := p.crc8Update 0xFF ((dataId &&& 0xFF).setWidth 8)
  let crc := p.crc8Update crc (((dataId >>> 8) &&& 0xFF).setWidth 8)
  let crc := p.crc8Update crc counter
  data.foldl p.crc8Update crc ^^^ 0xFF

def E2EProfile1Checker.crc8Update (_ : E2EProfile1Checker) (crc data : Byte) : Byte :=
  crc8Pass^[8] (crc ^^^ data)

def E2EProfile1Checker.calculateCRC8 (c : E2EProfile1Checker) (data : List Byte)
    (counter : Byte) (dataId : BitVec 16) : Byte :=
  let crc := c.crc8Update 0xFF ((dataId &&& 0xFF).setWidth 8)
  let crc := c.crc8Update crc (((dataId >>> 8) &&& 0xFF).setWidth 8)
  let crc := c.crc8Update crc counter
  data.foldl c.crc8Update crc ^^^ 0xFF

theorem E2EProfile1Protector.calculateCRC8_eq (p : E2EProfile1Protector) (data : List Byte)
    (counter : Byte) (dataId : BitVec 16) :
    p.calculateCRC8 data counter dataId = E2E.calculateCRC8 data counter dataId := by
  have hupdate : p.crc8Update = E2E.crc8Update := by
    funext crc data
    exact iterate_crc8Pass 8 (crc ^^^ data)
  rw [E2EProfile1Protector.calculateCRC8,hupdate]
  rfl

theorem E2EProfile1Checker.calculateCRC8_eq (c : E2EProfile1Checker) (data : List Byte)
    (counter : Byte) (dataId : BitVec 16) :
    c.calculateCRC8 data counter dataId = E2E.calculateCRC8 data counter dataId := by
  have hupdate : c.crc8Update = E2E.crc8Update := by
    funext crc data
    exact iterate_crc8Pass 8 (crc ^^^ data)
  rw [E2EProfile1Checker.calculateCRC8,hupdate]
  rfl

end Copies

theorem generator_j1850 : Crc.generator (0x1D : Byte) = X^8+X^4+X^3+X^2+1 := by
  have hbits : ∀ k, (0x1D : Byte).getLsbD k = (k == 4 || k == 3 || k == 2 || k == 0) := by
    intro k
    by_cases hk : k < 8
    · revert k
      decide
    · rw [BitVec.getLsbD_of_ge _ k (Nat.le_of_not_gt hk)]
      simp; omega
  have hlow : Crc.toPolynomial (0x1D : Byte) = X^4+X^3+X^2+1 := by
    ext k
    simp only [Crc.coeff_toPolynomial,hbits,coeff_add,coeff_X_pow,coeff_one]
    by_cases hk : k < 5
    · interval_cases k <;> simp
    · have h4 : k ≠ 4 := by omega
      have h3 : k ≠ 3 := by omega
      have h2 : k ≠ 2 := by omega
      have h0 : k ≠ 0 := by omega
      simp [h4,h3,h2,h0]
  rw [Crc.generator,hlow]
  ring

def crcMessage (data : List Byte) (counter : Byte) (dataId : BitVec 16) : List Byte :=
  dataId.setWidth 8 :: (dataId >>> 8).setWidth 8 :: counter :: data

/-- CRC-8 SAE J1850. -/
noncomputable def crc8J1850 (message : List Byte) : Byte :=
  Crc.crc (X^8+X^4+X^3+X^2+1) 0xFF 0xFF message

theorem calculateCRC8_eq_j1850 (data : List Byte) (counter : Byte) (dataId : BitVec 16) :
    calculateCRC8 data counter dataId = crc8J1850 (crcMessage data counter dataId) := by
  have hheader : crcHeader dataId counter ++ data = crcMessage data counter dataId := by
    have hmask : ∀ b : BitVec 16, (b &&& 0xFF).setWidth 8 = b.setWidth 8 := by
      intro b
      rw [BitVec.setWidth_and]
      exact BitVec.and_allOnes
    rw [crcHeader,hmask,hmask]
    rfl
  rw [calculateCRC8_eq,hheader,crc8J1850,← generator_j1850,Crc.crc_eq]

theorem crcMessage_zipWith (data data' : List Byte) (counter counter' : Byte)
    (dataId dataId' : BitVec 16) :
    List.zipWith (· ^^^ ·) (crcMessage data counter dataId) (crcMessage data' counter' dataId') =
      crcMessage (List.zipWith (· ^^^ ·) data data') (counter ^^^ counter')
        (dataId ^^^ dataId') := by
  simp [crcMessage,BitVec.setWidth_xor,BitVec.ushiftRight_xor_distrib]

theorem calculateCRC8_xor {data data' : List Byte} (h : data.length = data'.length)
    (counter counter' : Byte) (dataId dataId' : BitVec 16) :
    calculateCRC8 data counter dataId ^^^ calculateCRC8 data' counter' dataId' =
      Crc.crc (X^8+X^4+X^3+X^2+1) 0 0 (crcMessage (List.zipWith (· ^^^ ·) data data')
        (counter ^^^ counter') (dataId ^^^ dataId')) := by
  have hlength : (crcMessage data counter dataId).length =
      (crcMessage data' counter' dataId').length := by simp [crcMessage,h]
  rw [calculateCRC8_eq_j1850,calculateCRC8_eq_j1850,crc8J1850,crc8J1850,← generator_j1850,
    Crc.crc_xor_crc _ _ _ hlength,crcMessage_zipWith]

/-- Both copies compute the CRC, and what the CRCs of two equally long inputs differ by is known
from what the inputs differ by. -/
theorem crcs_are_j1850 (p : E2EProfile1Protector) (c : E2EProfile1Checker) :
    (∀ data counter dataId,
      p.calculateCRC8 data counter dataId = crc8J1850 (crcMessage data counter dataId) ∧
        c.calculateCRC8 data counter dataId = crc8J1850 (crcMessage data counter dataId)) ∧
    ∃ difference : List Byte → Byte → BitVec 16 → Byte,
      ∀ data data' counter counter' dataId dataId', data.length = data'.length →
        p.calculateCRC8 data counter dataId ^^^ p.calculateCRC8 data' counter' dataId' =
            difference (List.zipWith (· ^^^ ·) data data') (counter ^^^ counter')
              (dataId ^^^ dataId') ∧
          c.calculateCRC8 data counter dataId ^^^ c.calculateCRC8 data' counter' dataId' =
            difference (List.zipWith (· ^^^ ·) data data') (counter ^^^ counter')
              (dataId ^^^ dataId') := by
  simp only [E2EProfile1Protector.calculateCRC8_eq,E2EProfile1Checker.calculateCRC8_eq]
  refine ⟨fun data counter dataId => ?_,?_⟩
  · have h := calculateCRC8_eq_j1850 data counter dataId
    exact ⟨h,h⟩
  · refine ⟨fun data counter dataId =>
      Crc.crc (X^8+X^4+X^3+X^2+1) 0 0 (crcMessage data counter dataId),?_⟩
    intro data data' counter counter' dataId dataId' hlength
    have h := calculateCRC8_xor hlength counter counter' dataId dataId'
    exact ⟨h,h⟩

/-- The check value of the standard, for the bytes `123456789`. -/
example : calculateCRC8 [0x34,0x35,0x36,0x37,0x38,0x39] 0x33 0x3231 = 0x4B := by decide +kernel

end LapCom.E2E
