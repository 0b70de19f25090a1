import LapCom.Crc.Period
import LapCom.E2E.Sequence

set_option autoImplicit false

namespace LapCom.E2E
open Crc

/-- The CRC that a buffer carries, against the one computed over it. -/
def syndrome (config : E2EProfile1Config) (data : List Byte) : Byte :=
  readCRC config data ^^^ calculateCRC8 data (readCounter config data) config.dataId

/-- What a change `e` of the byte that holds the counter does to the counter. -/
def counterChange (offset : BitVec 8) (e : Byte) : Byte := (e >>> bitOffset offset) &&& 0x0F

def syndromeChange (config : E2EProfile1Config) (n i : Nat) (e : Byte) : Byte :=
  ((if i = byteOffset config.crcOffset then e else 0#8) ^^^ shifts j1850 (8*(n-i)) e) ^^^
    if i = byteOffset config.counterOffset then
      shifts j1850 (8*(n+1)) (counterChange config.counterOffset e) else 0#8

def DetectsByteErrors (config : E2EProfile1Config) : Prop :=
  ∀ data, accepted config data = true → ∀ i (_ : i < data.length) (e : Byte), e ≠ 0 →
    ∀ c : E2EProfile1Checker, c.config = config →
      (c.check (data.set i (data[i] ^^^ e))).1.result = .kError

/-- No change of the counter is what the change of its byte that cancels it does to the counter. -/
def NoSelfCancelling (offset : BitVec 8) : Prop :=
  ∀ d : Byte, d ≠ 0 → counterChange offset (shifts j1850 (8*(byteOffset offset+1)) d) ≠ d

instance (offset : BitVec 8) : Decidable (NoSelfCancelling offset) :=
  inferInstanceAs (Decidable (∀ _, _))

theorem counterChange_xor (offset : BitVec 8) (a b : Byte) :
    counterChange offset (a ^^^ b) = counterChange offset a ^^^ counterChange offset b := by
  apply BitVec.eq_of_getLsbD_eq
  intro i hi
  simp only [counterChange,BitVec.ushiftRight_xor_distrib,BitVec.getLsbD_and,BitVec.getLsbD_xor,
    Bool.and_xor_distrib_right]

section Syndrome
variable {config : E2EProfile1Config} {data : List Byte}

theorem accepted_iff_syndrome (hlen : lengthMatches config data = true) :
    accepted config data = true ↔ syndrome config data = 0#8 := by
  rw [accepted,hlen,Bool.true_and,beq_iff_eq]
  exact BitVec.xor_eq_zero_iff.symm

theorem calculateCRC8_change {i : Nat} (hi : i < data.length) (e counter : Byte)
    (dataId : BitVec 16) : calculateCRC8 (data.set i (data[i] ^^^ e)) counter dataId =
      calculateCRC8 data counter dataId ^^^ shifts j1850 (8*(data.length-i)) e := by
  rw [calculateCRC8_set _ _ _ _ _ hi,← BitVec.xor_assoc data[i],BitVec.xor_self,BitVec.zero_xor]
  rfl

theorem calculateCRC8_counter (data : List Byte) (a b : Byte) (dataId : BitVec 16) :
    calculateCRC8 data (a ^^^ b) dataId =
      calculateCRC8 data a dataId ^^^ shifts j1850 (8*(data.length+1)) b := by
  have hset : crcHeader dataId (a ^^^ b) ++ data =
      (crcHeader dataId a ++ data).set 2 (a ^^^ b) := rfl
  have hlen : 2 < (crcHeader dataId a ++ data).length := by simp [crcHeader]
  have hget : (crcHeader dataId a ++ data)[2] = a := rfl
  have hsub : (crcHeader dataId a ++ data).length-2 = data.length+1 := by
    simp [crcHeader]
  rw [calculateCRC8_eq,calculateCRC8_eq,hset,remainder_set _ _ _ _ _ hlen,hget,hsub,
    ← BitVec.xor_assoc a,BitVec.xor_self,BitVec.zero_xor,BitVec.xor_assoc,BitVec.xor_assoc,
    BitVec.xor_comm _ (0xFF : Byte)]
  rfl

theorem readCRC_set {i : Nat} (hi : i < data.length) (e : Byte) :
    readCRC config (data.set i (data[i] ^^^ e)) =
      readCRC config data ^^^ if i = byteOffset config.crcOffset then e else 0#8 := by
  by_cases h : i = byteOffset config.crcOffset
  · subst h
    simp [readCRC,hi]
  · simp [readCRC,h,List.getElem_set_ne]

theorem readCounter_set {i : Nat} (hi : i < data.length) (e : Byte) :
    readCounter config (data.set i (data[i] ^^^ e)) =
      readCounter config data ^^^
        if i = byteOffset config.counterOffset then counterChange config.counterOffset e
        else 0#8 := by
  by_cases h : i = byteOffset config.counterOffset
  · subst h
    simpa [readCounter,hi,counterChange] using counterChange_xor config.counterOffset data[_] e
  · simp [readCounter,h,List.getElem_set_ne]

theorem syndrome_set {i : Nat} (hi : i < data.length) (e : Byte) :
    syndrome config (data.set i (data[i] ^^^ e)) =
      syndrome config data ^^^ syndromeChange config data.length i e := by
  have hcounter : shifts j1850 (8*(data.length+1)) (if i = byteOffset config.counterOffset then
        counterChange config.counterOffset e else 0#8) =
      if i = byteOffset config.counterOffset then
        shifts j1850 (8*(data.length+1)) (counterChange config.counterOffset e) else 0#8 := by
    split
    · rfl
    · exact shifts_zero _ _
  rw [syndrome,readCRC_set hi,readCounter_set hi,calculateCRC8_change hi,calculateCRC8_counter,
    hcounter,syndrome,syndromeChange]
  ac_rfl

theorem accepted_set {i : Nat} (hi : i < data.length) (h : accepted config data = true)
    (e : Byte) : accepted config (data.set i (data[i] ^^^ e)) = true ↔
      syndromeChange config data.length i e = 0#8 := by
  have hlen := (Bool.and_eq_true_iff.mp h).1
  have hlen' : lengthMatches config (data.set i (data[i] ^^^ e)) = true := by
    simpa [lengthMatches] using hlen
  rw [accepted_iff_syndrome hlen',syndrome_set hi,(accepted_iff_syndrome hlen).mp h,
    BitVec.zero_xor]

end Syndrome

section Detection
variable {config : E2EProfile1Config} {n : Nat}

theorem syndromeChange_payload {i : Nat} (hcrc : i ≠ byteOffset config.crcOffset)
    (hcounter : i ≠ byteOffset config.counterOffset) {e : Byte} (he : e ≠ 0) :
    syndromeChange config n i e ≠ 0#8 := by
  rw [syndromeChange,if_neg hcrc,if_neg hcounter,BitVec.zero_xor,BitVec.xor_zero]
  exact fun hzero => he (eq_zero_of_shifts j1850_odd _ hzero)

theorem crc_not_periodic (h : FieldsInside config n) (hn : n ≤ 240) :
    ¬ 255 ∣ 8*(n-byteOffset config.crcOffset) := by
  have := h.crc_lt
  omega

theorem syndromeChange_crc (h : FieldsInside config n) (e : Byte) :
    syndromeChange config n (byteOffset config.crcOffset) e =
      e ^^^ shifts j1850 (8*(n-byteOffset config.crcOffset)) e := by
  rw [syndromeChange,if_pos rfl,if_neg h.apart,BitVec.xor_zero]

/-- The two effects of a change of the counter's byte, both carried through the rest of the
payload. -/
theorem syndromeChange_counter (h : FieldsInside config n) (e : Byte) :
    syndromeChange config n (byteOffset config.counterOffset) e =
      shifts j1850 (8*(n-byteOffset config.counterOffset)) (e ^^^
        shifts j1850 (8*(byteOffset config.counterOffset+1))
          (counterChange config.counterOffset e)) := by
  have hlt := h.counter_lt
  rw [syndromeChange,if_neg (Ne.symm h.apart),if_pos rfl,BitVec.zero_xor,shifts_xor,← shifts_add,
    show 8*(byteOffset config.counterOffset+1)+8*(n-byteOffset config.counterOffset) =
      8*(n+1) by omega]

theorem exists_buffer (n : Nat) : ∃ data : List Byte, data.length = n :=
  ⟨List.replicate n 0,List.length_replicate⟩

theorem exists_accepted (h : FieldsInside config n) (hn : n ≤ 240) :
    ∃ data, data.length = n ∧ accepted config data = true := by
  obtain ⟨data,rfl⟩ := exists_buffer n
  obtain ⟨e,he⟩ := xor_shifts_surjective (crc_not_periodic h hn) (syndrome config data)
  have hcrc := h.crc_lt
  refine ⟨data.set (byteOffset config.crcOffset) (data[byteOffset config.crcOffset] ^^^ e),
    List.length_set,?_⟩
  rw [accepted_iff_syndrome (h.lengthMatches List.length_set),syndrome_set hcrc,
    syndromeChange_crc h,← he]
  exact BitVec.xor_self

/-- Every change of one byte is detected exactly where the counter's byte hides none. -/
theorem detectsByteErrors_iff (config : E2EProfile1Config) (n : Nat) (h : FieldsInside config n)
    (hn : n ≤ 240) : DetectsByteErrors config ↔ NoSelfCancelling config.counterOffset := by
  constructor
  · intro hdetects d hd hcancels
    obtain ⟨data,rfl,haccepted⟩ := exists_accepted h hn
    have hlt := h.counter_lt
    have he : shifts j1850 (8*(byteOffset config.counterOffset+1)) d ≠ 0 :=
      fun hzero => hd (eq_zero_of_shifts j1850_odd _ hzero)
    have herror := check_kError_iff.mp (hdetects data haccepted _ hlt _ he (.new config) rfl)
    have hhidden := (accepted_set hlt haccepted
      (shifts j1850 (8*(byteOffset config.counterOffset+1)) d)).mpr (by
        rw [syndromeChange_counter h,hcancels,BitVec.xor_self]
        exact shifts_zero _ _)
    exact absurd (hhidden.symm.trans herror) (by simp)
  · intro hnone data haccepted i hi e he c hc
    have hlength : data.length = n := by
      have hlen := (Bool.and_eq_true_iff.mp haccepted).1
      have := h.length
      simp only [lengthMatches,beq_iff_eq] at hlen
      omega
    subst hlength
    rw [check_kError_iff,hc,← Bool.not_eq_true,accepted_set hi haccepted]
    by_cases hcrc : i = byteOffset config.crcOffset
    · subst hcrc
      rw [syndromeChange_crc h]
      intro hzero
      exact crc_not_periodic h hn
        ((shifts_eq_self_iff he _).mp (BitVec.xor_eq_zero_iff.mp hzero).symm)
    · by_cases hcounter : i = byteOffset config.counterOffset
      · subst hcounter
        rw [syndromeChange_counter h]
        intro hzero
        have hcancels := BitVec.xor_eq_zero_iff.mp (eq_zero_of_shifts j1850_odd _ hzero)
        refine hnone (counterChange config.counterOffset e) ?_ ?_
        · intro hd
          rw [hd,shifts_zero] at hcancels
          exact he hcancels
        · rw [← hcancels]
      · exact syndromeChange_payload hcrc hcounter he

end Detection

def crcFirstConfig : E2EProfile1Config := ⟨42,5,8,0,64⟩

theorem detectsByteErrors_crcFirst :
    FieldsInside crcFirstConfig 8 ∧ DetectsByteErrors crcFirstConfig := by
  have h : FieldsInside crcFirstConfig 8 := by constructor <;> decide
  exact ⟨h,(detectsByteErrors_iff crcFirstConfig 8 h (by omega)).mpr (by decide +kernel)⟩

/-- In the documented configuration the counter 1 turns into 5 unnoticed. -/
theorem documented_change_hidden :
    accepted documentedConfig [1,191,3,4,5,6,7,8] = true ∧
      (E2EProfile1Checker.new documentedConfig).check [1 ^^^ 116,191,3,4,5,6,7,8] =
          (⟨.kOk,5⟩,⟨documentedConfig,5,⟨.kOk,5⟩⟩) ∧
        ¬ DetectsByteErrors documentedConfig := by
  have haccepted : accepted documentedConfig [1,191,3,4,5,6,7,8] = true := by decide +kernel
  refine ⟨haccepted,by decide +kernel,fun h => ?_⟩
  have herror := h _ haccepted 0 (by decide) 116 (by decide) (.new documentedConfig) rfl
  revert herror
  decide +kernel

end LapCom.E2E
