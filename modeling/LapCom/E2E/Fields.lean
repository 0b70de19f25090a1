import LapCom.E2E.Corruption

set_option autoImplicit false

namespace LapCom.E2E
open Crc

def bitAt (data : List Byte) (j : Nat) : Bool := (data.getD (j/8) 0).getLsbD (j%8)

/-- The bit `j` belongs to the four bits of the counter or to the eight bits of the CRC. -/
def InField (config : E2EProfile1Config) (j : Nat) : Prop :=
  (config.counterOffset.toNat ≤ j ∧ j < config.counterOffset.toNat+4) ∨
    (config.crcOffset.toNat ≤ j ∧ j < config.crcOffset.toNat+8)

/-- What one call of `Protect` may do: to its two fields, to nothing else. -/
def WritesOwnFields (p : E2EProfile1Protector) (data : List Byte) : Prop :=
  match p.protect data with
  | (.ok _,p',data') =>
    (readCounter p.config data').toNat = p'.counter.toNat ∧
      readCRC p.config data' = calculateCRC8 data (p'.counter.setWidth 8) p.config.dataId ∧
        data'.length = data.length ∧ ∀ j, ¬ InField p.config j → bitAt data' j = bitAt data j
  | (.error _,p',data') => data' = data ∧ p'.counter = p.counter

def nextCounter (p : E2EProfile1Protector) : Byte := ((p.counter+1)%15).setWidth 8

theorem nextCounter_toNat (p : E2EProfile1Protector) :
    (nextCounter p).toNat = ((p.counter+1)%15).toNat ∧ (nextCounter p).toNat < 15 := by
  rw [nextCounter,BitVec.toNat_setWidth,toNat_next]
  omega

theorem writesOwnFields_rejected {p : E2EProfile1Protector} {data : List Byte}
    (h : lengthMatches p.config data = false) : WritesOwnFields p data := by
  simp [WritesOwnFields,E2EProfile1Protector.protect,h,fail]

theorem writesOwnFields_sent {p : E2EProfile1Protector} {data : List Byte}
    (h : lengthMatches p.config data = true) :
    WritesOwnFields p data ↔
      readCounter p.config (sent p.config (nextCounter p) data) = nextCounter p ∧
        readCRC p.config (sent p.config (nextCounter p) data) =
            calculateCRC8 data (nextCounter p) p.config.dataId ∧
          ∀ j, ¬ InField p.config j →
            bitAt (sent p.config (nextCounter p) data) j = bitAt data j := by
  simp only [WritesOwnFields,protect_eq h]
  rw [← (nextCounter_toNat p).1,BitVec.toNat_inj,← nextCounter]
  simp only [sent_length,true_and]

theorem bitAt_set {data : List Byte} {i : Nat} (hi : i < data.length) (v : Byte) (j : Nat) :
    bitAt (data.set i v) j = if j/8 = i then v.getLsbD (j%8) else bitAt data j := by
  by_cases h : j/8 = i
  · subst h
    simp [bitAt,hi]
  · have hne : i ≠ j/8 := Ne.symm h
    simp [bitAt,List.getD_eq_getElem?_getD,List.getElem?_set_ne hne,h]

theorem counterByte_outside {bit i : Nat} (old counter : Byte) (hi : i < 8)
    (hout : i < bit ∨ bit+4 ≤ i) : (counterByte old counter bit).getLsbD i = old.getLsbD i := by
  have hmask : i < bit ∨ (0x0F : Byte).getLsbD (i-bit) = false := by
    rcases hout with h | h
    · exact .inl h
    · right
      rw [nibbleMask_getLsbD _ (by omega)]
      exact decide_eq_false (by omega)
  simp only [counterByte,BitVec.getLsbD_or,BitVec.getLsbD_and,BitVec.getLsbD_not,
    BitVec.getLsbD_shiftLeft]
  rcases hmask with h | h
  · simp [h,hi]
  · rw [h]
    simp [hi]

theorem writesOwnFields_of_inside {p : E2EProfile1Protector} {data : List Byte}
    (h : FieldsInside p.config data.length) : WritesOwnFields p data := by
  have hsmall : (nextCounter p).toNat < 16 := by have := (nextCounter_toNat p).2; omega
  rw [writesOwnFields_sent (h.lengthMatches rfl)]
  refine ⟨readCounter_sent h hsmall,readCRC_sent h _,?_⟩
  intro j hj
  have hcounter := h.counter_lt
  have haligned := h.aligned
  have hnibble := h.nibble
  have hcrcByte : j/8 ≠ byteOffset p.config.crcOffset := by
    unfold InField at hj
    unfold bitOffset at haligned
    unfold byteOffset
    omega
  rw [sent_getElem h,bitAt_set (by simpa using h.crc_lt),if_neg hcrcByte,bitAt_set hcounter]
  by_cases hbyte : j/8 = byteOffset p.config.counterOffset
  · rw [if_pos hbyte,bitAt,hbyte]
    apply counterByte_outside _ _ (Nat.mod_lt _ (by omega))
    unfold InField at hj
    unfold byteOffset at hbyte
    unfold bitOffset at hnibble ⊢
    omega
  · rw [if_neg hbyte]

section Necessity
variable {config : E2EProfile1Config} {n : Nat}

def protectorBefore (config : E2EProfile1Config) (counter : Nat) : E2EProfile1Protector :=
  ⟨config,BitVec.ofNat 32 (counter+14)⟩

theorem nextCounter_before {counter : Nat} (h : counter < 15) :
    nextCounter (protectorBefore config counter) = BitVec.ofNat 8 counter := by
  apply BitVec.eq_of_toNat_eq
  rw [nextCounter,protectorBefore,BitVec.toNat_setWidth,toNat_next,BitVec.toNat_ofNat,
    BitVec.toNat_ofNat]
  omega

/-- One byte of the payload reaches every value of the CRC. -/
theorem exists_crc_change {data : List Byte} {i : Nat} (hi : i < data.length) (e : Byte)
    (counter : Byte) (dataId : BitVec 16) : ∃ v, calculateCRC8 (data.set i v) counter dataId =
      calculateCRC8 data counter dataId ^^^ e := by
  obtain ⟨d,rfl⟩ := shifts_surjective j1850_odd (8*(data.length-i)) e
  exact ⟨data[i] ^^^ d,calculateCRC8_change hi d counter dataId⟩

theorem sent_crcByte {data : List Byte} (h : byteOffset config.crcOffset < data.length)
    (counter : Byte) : (sent config counter data)[byteOffset config.crcOffset]? =
      some (calculateCRC8 data counter config.dataId) := by
  rw [sent,writeCRC_eq _ (by rwa [writeCounter_length]),List.getElem?_set_self]
  rwa [writeCounter_length]

/-- A nibble that begins in the last three bits of a byte is read as three bits at most. -/
theorem readCounter_straddling (h : 5 ≤ bitOffset config.counterOffset) (data : List Byte) :
    (readCounter config data).toNat < 8 := by
  simp only [readCounter]
  split
  · have hdiv : ∀ x : Nat, x/2^bitOffset config.counterOffset ≤ x/2^5 := fun x =>
      Nat.div_le_div_left (Nat.pow_le_pow_right (by omega) h) (by omega)
    have hbyte := data[byteOffset config.counterOffset].isLt
    rw [BitVec.toNat_and,BitVec.toNat_ushiftRight,Nat.shiftRight_eq_div_pow]
    exact Nat.lt_of_le_of_lt (Nat.le_trans Nat.and_le_left (hdiv _)) (by omega)
  · decide

variable (hlen : config.dataLength.toNat = 8*n)
  (hall : ∀ p : E2EProfile1Protector, p.config = config → ∀ data, WritesOwnFields p data)

include hlen hall in
theorem fields_sent (counter : Nat) (hcounter : counter < 15) {data : List Byte}
    (hdata : data.length = n) :
    readCounter config (sent config (BitVec.ofNat 8 counter) data) = BitVec.ofNat 8 counter ∧
      readCRC config (sent config (BitVec.ofNat 8 counter) data) =
          calculateCRC8 data (BitVec.ofNat 8 counter) config.dataId ∧
        ∀ j, ¬ InField config j →
          bitAt (sent config (BitVec.ofNat 8 counter) data) j = bitAt data j := by
  have hmatches : lengthMatches config data = true := by
    simp only [lengthMatches,beq_iff_eq]
    omega
  have h := (writesOwnFields_sent hmatches).mp (hall (protectorBefore config counter) rfl data)
  rwa [nextCounter_before hcounter] at h

include hlen hall in
theorem counter_inside : byteOffset config.counterOffset < n := by
  by_contra hout
  obtain ⟨data,hdata⟩ := exists_buffer n
  have hread := (fields_sent hlen hall 1 (by omega) hdata).1
  rw [readCounter,dif_neg (by rwa [sent_length,hdata])] at hread
  revert hread
  decide

include hlen hall in
theorem nibble_inside : bitOffset config.counterOffset ≤ 4 := by
  by_contra hout
  obtain ⟨data,hdata⟩ := exists_buffer n
  have hread := (fields_sent hlen hall 8 (by omega) hdata).1
  have hbit : 5 ≤ bitOffset config.counterOffset := by omega
  have hsmall := readCounter_straddling hbit (sent config (BitVec.ofNat 8 8) data)
  rw [hread] at hsmall
  revert hsmall
  decide

include hlen hall in
theorem crc_inside : byteOffset config.crcOffset < n := by
  by_contra hout
  obtain ⟨data,hdata⟩ := exists_buffer n
  have hzero : ∀ counter, counter < 15 →
      calculateCRC8 data (BitVec.ofNat 8 counter) config.dataId = 0 := by
    intro counter hcounter
    rw [← (fields_sent hlen hall counter hcounter hdata).2.1,readCRC,
      dif_neg (by rwa [sent_length,hdata])]
  have hchange := calculateCRC8_counter data 1 3 config.dataId
  have hone := hzero 1 (by omega)
  have htwo := hzero 2 (by omega)
  rw [show (1 : Byte) ^^^ 3 = BitVec.ofNat 8 2 from rfl,htwo,
    show (1 : Byte) = BitVec.ofNat 8 1 from rfl,hone,show (0 : Byte) = 0#8 from rfl,
    BitVec.zero_xor] at hchange
  have hthree := eq_zero_of_shifts j1850_odd _ hchange.symm
  revert hthree
  decide

include hlen hall in
theorem fields_apart : byteOffset config.crcOffset ≠ byteOffset config.counterOffset := by
  intro heq
  obtain ⟨data,rfl⟩ := exists_buffer n
  have hcounter := counter_inside hlen hall
  have hcrc := crc_inside hlen hall
  have hread : ∀ data' : List Byte, data'.length = data.length →
      counterChange config.counterOffset (calculateCRC8 data' 1 config.dataId) = 1 := by
    intro data' hdata'
    have hread := (fields_sent hlen hall 1 (by omega) hdata').1
    have hcrc' : byteOffset config.crcOffset < data'.length := by omega
    obtain ⟨hlt,hbyte⟩ :=
      List.getElem?_eq_some_iff.mp (sent_crcByte hcrc' (BitVec.ofNat 8 1))
    simp only [readCounter,← heq,dif_pos hlt,hbyte] at hread
    exact hread
  obtain ⟨v,hv⟩ := exists_crc_change hcounter (1 <<< bitOffset config.counterOffset) 1
    config.dataId
  have hchanged := hread _ (List.length_set (i := byteOffset config.counterOffset) (a := v))
  have hbit : ∀ b, b < 8 → ((1 : Byte) <<< b) >>> b &&& 0x0F = 1 := by decide
  have hone : counterChange config.counterOffset (1 <<< bitOffset config.counterOffset) = 1 :=
    hbit _ (Nat.mod_lt _ (by omega))
  rw [hv,counterChange_xor,hread data rfl,hone] at hchanged
  revert hchanged
  decide

include hlen hall in
theorem crc_aligned : bitOffset config.crcOffset = 0 := by
  by_contra hne
  obtain ⟨data,rfl⟩ := exists_buffer n
  have hcounter := counter_inside hlen hall
  have hcrc := crc_inside hlen hall
  have hnibble := nibble_inside hlen hall
  have hapart := fields_apart hlen hall
  have hout : ¬ InField config (8*byteOffset config.crcOffset) := by
    unfold InField
    unfold byteOffset bitOffset at *
    omega
  have hfirst : ∀ data' : List Byte, data'.length = data.length →
      (calculateCRC8 data' 1 config.dataId).getLsbD 0 =
        bitAt data' (8*byteOffset config.crcOffset) := by
    intro data' hdata'
    rw [← (fields_sent hlen hall 1 (by omega) hdata').2.2 _ hout,bitAt,
      Nat.mul_div_cancel_left _ (by omega),Nat.mul_mod_right,List.getD_eq_getElem?_getD,
      sent_crcByte (by omega)]
    rfl
  obtain ⟨v,hv⟩ := exists_crc_change hcounter 1 1 config.dataId
  have hchanged := hfirst _ (List.length_set (i := byteOffset config.counterOffset) (a := v))
  rw [hv,bitAt_set hcounter,if_neg (by omega),BitVec.getLsbD_xor,hfirst data rfl] at hchanged
  simp at hchanged

end Necessity

/-- `Protect` writes its own fields and nothing else exactly for the configurations whose fields lie
inside the payload, apart, and where the accessors look for them, and for those that no buffer
fits. -/
theorem writesOwnFields_iff (config : E2EProfile1Config) :
    (∀ p : E2EProfile1Protector, p.config = config → ∀ data, WritesOwnFields p data) ↔
      config.dataLength.toNat%8 ≠ 0 ∨ FieldsInside config (config.dataLength.toNat/8) := by
  constructor
  · intro hall
    by_cases hbytes : config.dataLength.toNat%8 = 0
    · have hlen : config.dataLength.toNat = 8*(config.dataLength.toNat/8) := by omega
      exact .inr ⟨hlen,nibble_inside hlen hall,counter_inside hlen hall,crc_aligned hlen hall,
        crc_inside hlen hall,fields_apart hlen hall⟩
    · exact .inl hbytes
  · rintro hconfig p rfl data
    by_cases hmatches : lengthMatches p.config data = true
    · have hlen : data.length*8 = p.config.dataLength.toNat := by
        simpa [lengthMatches] using hmatches
      rcases hconfig with hbits | hinside
      · omega
      · apply writesOwnFields_of_inside
        rwa [show data.length = p.config.dataLength.toNat/8 by omega]
    · exact writesOwnFields_rejected (by simpa using hmatches)

def straddlingConfig : E2EProfile1Config := ⟨42,5,5,8,16⟩

def shiftedConfig : E2EProfile1Config := ⟨42,5,0,12,24⟩

theorem straddling_counter_lost :
    (E2EProfile1Protector.protect ⟨straddlingConfig,7⟩ [0,0]).1 = .ok () ∧
      (E2EProfile1Protector.protect ⟨straddlingConfig,7⟩ [0,0]).2.1.counter = 8 ∧
        readCounter straddlingConfig
            (E2EProfile1Protector.protect ⟨straddlingConfig,7⟩ [0,0]).2.2 = 0 ∧
      (E2EProfile1Protector.protect ⟨shiftedConfig,0⟩ [0,0,0]).1 = .ok () ∧
        bitAt (E2EProfile1Protector.protect ⟨shiftedConfig,0⟩ [0,0,0]).2.2 8 ≠
            bitAt [0,0,0] 8 ∧
      ¬ ∀ p : E2EProfile1Protector, ∀ data, WritesOwnFields p data := by
  refine ⟨rfl,by decide +kernel,by decide +kernel,rfl,by decide +kernel,fun h => ?_⟩
  have hread := ((writesOwnFields_sent (by decide)).mp (h ⟨straddlingConfig,7⟩ [0,0])).1
  revert hread
  decide +kernel

end LapCom.E2E
