import LapCom.ComTypes
import LapCom.Crc.Remainder

set_option autoImplicit false

namespace LapCom.E2E

structure E2EProfile1Config where
  dataId : BitVec 16
  maxDeltaCounter : BitVec 32
  counterOffset : BitVec 8
  crcOffset : BitVec 8
  dataLength : BitVec 16
  deriving DecidableEq, Repr

def byteOffset (offset : BitVec 8) : Nat := offset.toNat/8

def bitOffset (offset : BitVec 8) : Nat := offset.toNat%8

def crc8Step (crc : Byte) : Byte :=
  if crc &&& 0x80 ≠ 0 then (crc <<< 1) ^^^ 0x1D else crc <<< 1

def crc8Loop : Nat → Byte → Byte
  | 0, crc => crc
  | i+1, crc => crc8Loop i (crc8Step crc)

def crc8Update (crc data : Byte) : Byte := crc8Loop 8 (crc ^^^ data)

/-- Protector and checker hold identical copies of this function. -/
def calculateCRC8 (data : List Byte) (counter : Byte) (dataId : BitVec 16) : Byte :=
  let crc := crc8Update 0xFF ((dataId &&& 0xFF).setWidth 8)
  let crc := crc8Update crc (((dataId >>> 8) &&& 0xFF).setWidth 8)
  let crc := crc8Update crc counter
  data.foldl crc8Update crc ^^^ 0xFF

/-- The mask and the nibble are computed in `int`; storing the byte drops what
is shifted past its top, as the eight-bit shifts do here. -/
def counterByte (old : Byte) (counter : Byte) (bit : Nat) : Byte :=
  (old &&& ~~~((0x0F : Byte) <<< bit)) ||| ((counter &&& 0x0F) <<< bit)

def writeCounter (config : E2EProfile1Config) (data : List Byte) (counter : Byte) : List Byte :=
  let i := byteOffset config.counterOffset
  if h : i < data.length then
    data.set i (counterByte data[i] counter (bitOffset config.counterOffset))
  else data

def writeCRC (config : E2EProfile1Config) (data : List Byte) (crc : Byte) : List Byte :=
  let i := byteOffset config.crcOffset
  if i < data.length then data.set i crc else data

def readCounter (config : E2EProfile1Config) (data : List Byte) : Byte :=
  let i := byteOffset config.counterOffset
  if h : i < data.length then (data[i] >>> bitOffset config.counterOffset) &&& 0x0F else 0

def readCRC (config : E2EProfile1Config) (data : List Byte) : Byte :=
  let i := byteOffset config.crcOffset
  if h : i < data.length then data[i] else 0

/-- `data.size() * 8 != m_config.dataLength`, negated. -/
def lengthMatches (config : E2EProfile1Config) (data : List Byte) : Bool :=
  data.length*8 == config.dataLength.toNat

structure E2EProfile1Protector where
  config : E2EProfile1Config
  counter : BitVec 32
  deriving DecidableEq, Repr

def E2EProfile1Protector.new (config : E2EProfile1Config) : E2EProfile1Protector := ⟨config,0⟩

/-- The result, the protector afterwards and the buffer, which is modified in place. -/
def E2EProfile1Protector.protect (p : E2EProfile1Protector) (data : List Byte) :
    Result Unit × E2EProfile1Protector × List Byte :=
  if lengthMatches p.config data then
    let counter := (p.counter+1)%15
    let crc := calculateCRC8 data (counter.setWidth 8) p.config.dataId
    let data := writeCounter p.config data (counter.setWidth 8)
    let data := writeCRC p.config data crc
    (.ok (),{ p with counter := counter },data)
  else (fail .kInvalidArgument 0,p,data)

structure E2EProfile1Checker where
  config : E2EProfile1Config
  lastCounter : BitVec 32
  lastStatus : E2ECheckStatus
  deriving DecidableEq, Repr

def E2EProfile1Checker.new (config : E2EProfile1Config) : E2EProfile1Checker :=
  ⟨config,0,⟨.kNoNewData,0⟩⟩

def sequenceResult (lastCounter counter maxDeltaCounter : BitVec 32) : E2EResult :=
  let expectedCounter := (lastCounter+1)%15
  if counter = lastCounter then .kRepeated
  else if counter ≠ expectedCounter then
    let delta := if counter ≥ lastCounter then counter-lastCounter else 15-lastCounter+counter
    if delta > maxDeltaCounter then .kWrongSequence else .kOk
  else .kOk

def E2EProfile1Checker.check (c : E2EProfile1Checker) (data : List Byte) :
    E2ECheckStatus × E2EProfile1Checker :=
  if lengthMatches c.config data then
    let counter := readCounter c.config data
    let receivedCrc := readCRC c.config data
    let expectedCrc := calculateCRC8 data counter c.config.dataId
    if receivedCrc ≠ expectedCrc then
      let status : E2ECheckStatus := ⟨.kError,counter.setWidth 32⟩
      (status,{ c with lastStatus := status })
    else
      let counter : BitVec 32 := counter.setWidth 32
      let status : E2ECheckStatus :=
        ⟨sequenceResult c.lastCounter counter c.config.maxDeltaCounter,counter⟩
      (status,{ c with lastCounter := counter, lastStatus := status })
  else
    let status : E2ECheckStatus := ⟨.kError,0⟩
    (status,{ c with lastStatus := status })

theorem crc8Step_eq (crc : Byte) : crc8Step crc = Crc.shift 0x1D crc := by
  have hmsb : (crc &&& 0x80 ≠ 0) ↔ crc.msb = true := by
    revert crc; decide
  unfold crc8Step Crc.shift
  by_cases h : crc.msb = true
  · rw [if_pos (hmsb.mpr h),if_pos h]
  · rw [if_neg (fun h' => h (hmsb.mp h')),if_neg h]

theorem crc8Loop_eq (n : Nat) (crc : Byte) : crc8Loop n crc = Crc.shifts 0x1D n crc := by
  induction n generalizing crc with
  | zero => rfl
  | succ n ih => rw [crc8Loop,Crc.shifts,ih,crc8Step_eq]

theorem crc8Update_eq (crc data : Byte) : crc8Update crc data = Crc.update 0x1D crc data :=
  crc8Loop_eq 8 (crc ^^^ data)

theorem foldl_crc8Update (crc : Byte) (data : List Byte) :
    data.foldl crc8Update crc = Crc.remainder 0x1D crc data := by
  induction data generalizing crc with
  | nil => rfl
  | cons d data ih => rw [List.foldl_cons,Crc.remainder,ih,crc8Update_eq]

def crcHeader (dataId : BitVec 16) (counter : Byte) : List Byte :=
  [(dataId &&& 0xFF).setWidth 8,((dataId >>> 8) &&& 0xFF).setWidth 8,counter]

theorem calculateCRC8_eq (data : List Byte) (counter : Byte) (dataId : BitVec 16) :
    calculateCRC8 data counter dataId =
      Crc.remainder 0x1D 0xFF (crcHeader dataId counter ++ data) ^^^ 0xFF := by
  simp only [calculateCRC8,crcHeader,foldl_crc8Update,crc8Update_eq,List.cons_append,
    List.nil_append,Crc.remainder]

theorem calculateCRC8_set (data : List Byte) (counter v : Byte) (dataId : BitVec 16) (i : Nat)
    (hi : i < data.length) :
    calculateCRC8 (data.set i v) counter dataId =
      calculateCRC8 data counter dataId ^^^
        Crc.shifts 0x1D (8*(data.length-i)) (data[i] ^^^ v) := by
  have hset : crcHeader dataId counter ++ data.set i v =
      (crcHeader dataId counter ++ data).set (3+i) v := by
    rw [List.set_append_right _ _ (by simp [crcHeader])]
    simp [crcHeader]
  have hlen : 3+i < (crcHeader dataId counter ++ data).length := by simp [crcHeader]; omega
  rw [calculateCRC8_eq,calculateCRC8_eq,hset,Crc.remainder_set _ _ _ _ _ hlen]
  have hget : (crcHeader dataId counter ++ data)[3+i] = data[i] := by
    rw [List.getElem_append_right (by simp [crcHeader])]
    simp [crcHeader]
  have hsub : (crcHeader dataId counter ++ data).length-(3+i) = data.length-i := by
    simp [crcHeader]; omega
  rw [hget,hsub,BitVec.xor_assoc,BitVec.xor_assoc,BitVec.xor_comm _ (0xFF : Byte)]

end LapCom.E2E
