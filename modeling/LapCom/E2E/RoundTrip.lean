import LapCom.E2E.Profile1

set_option autoImplicit false

namespace LapCom.E2E

/-- The counter nibble and the CRC byte lie in the payload of `n` bytes, apart. -/
structure FieldsInside (config : E2EProfile1Config) (n : Nat) : Prop where
  length : config.dataLength.toNat = 8*n
  nibble : bitOffset config.counterOffset ≤ 4
  counter_lt : byteOffset config.counterOffset < n
  aligned : bitOffset config.crcOffset = 0
  crc_lt : byteOffset config.crcOffset < n
  apart : byteOffset config.crcOffset ≠ byteOffset config.counterOffset

def protectAll : E2EProfile1Protector → List (List Byte) → List (List Byte)
  | _, [] => []
  | p, data :: rest => (p.protect data).2.2 :: protectAll (p.protect data).2.1 rest

def checkAll : E2EProfile1Checker → List (List Byte) → List E2ECheckStatus
  | _, [] => []
  | c, data :: rest => (c.check data).1 :: checkAll (c.check data).2 rest

def fieldByte (offset : BitVec 8) (data : List Byte) : Byte := data.getD (byteOffset offset) 0

/-- The change of the counter's byte and the change of the CRC byte, from what the
payload holds there to what is sent, cancel under division by the generator: the
counter nibble becomes `counter` and the CRC byte becomes the payload's own CRC. -/
def WritesCancel (config : E2EProfile1Config) (counter : Byte) (data : List Byte) : Prop :=
  let old := fieldByte config.counterOffset data
  let new := counterByte old counter (bitOffset config.counterOffset)
  let crc := Crc.remainder 0x1D 0xFF (crcHeader config.dataId counter ++ data) ^^^ 0xFF
  Crc.shifts 0x1D (8*(data.length-byteOffset config.counterOffset)) (old ^^^ new) =
    Crc.shifts 0x1D (8*(data.length-byteOffset config.crcOffset))
      (fieldByte config.crcOffset data ^^^ crc)

instance (config : E2EProfile1Config) (counter : Byte) (data : List Byte) :
    Decidable (WritesCancel config counter data) :=
  inferInstanceAs (Decidable (_ = _))

def sent (config : E2EProfile1Config) (counter : Byte) (data : List Byte) : List Byte :=
  writeCRC config (writeCounter config data counter) (calculateCRC8 data counter config.dataId)

theorem FieldsInside.lengthMatches {config : E2EProfile1Config} {n : Nat}
    (h : FieldsInside config n) {data : List Byte} (hdata : data.length = n) :
    lengthMatches config data = true := by
  have := h.length
  simp only [E2E.lengthMatches,beq_iff_eq]; omega

theorem fieldByte_eq {offset : BitVec 8} {data : List Byte}
    (h : byteOffset offset < data.length) : fieldByte offset data = data[byteOffset offset] := by
  simp [fieldByte,h]

theorem writeCounter_eq {config : E2EProfile1Config} {data : List Byte} (counter : Byte)
    (h : byteOffset config.counterOffset < data.length) :
    writeCounter config data counter =
      data.set (byteOffset config.counterOffset) (counterByte (fieldByte config.counterOffset data)
        counter (bitOffset config.counterOffset)) := by
  simp [writeCounter,h,fieldByte_eq h]

theorem writeCounter_length (config : E2EProfile1Config) (data : List Byte) (counter : Byte) :
    (writeCounter config data counter).length = data.length := by
  simp only [writeCounter]
  split <;> simp

theorem writeCRC_eq {config : E2EProfile1Config} {data : List Byte} (crc : Byte)
    (h : byteOffset config.crcOffset < data.length) :
    writeCRC config data crc = data.set (byteOffset config.crcOffset) crc := by
  simp [writeCRC,h]

theorem sent_length (config : E2EProfile1Config) (counter : Byte) (data : List Byte) :
    (sent config counter data).length = data.length := by
  simp only [sent,writeCRC]
  split <;> simp [writeCounter_length]

theorem nibbleMask_getLsbD : ∀ i, i < 8 → (0x0F : Byte).getLsbD i = decide (i < 4) := by decide

theorem nibble_getLsbD {counter : Byte} (h : counter.toNat < 16) {i : Nat} (hi : 4 ≤ i) :
    counter.getLsbD i = false := by
  rw [BitVec.getLsbD,Nat.testBit_lt_two_pow]
  exact Nat.lt_of_lt_of_le h (show 2^4 ≤ 2^i from Nat.pow_le_pow_right (by omega) hi)

theorem counterByte_read {bit : Nat} (hbit : bit ≤ 4) (old counter : Byte)
    (hcounter : counter.toNat < 16) :
    (counterByte old counter bit >>> bit) &&& 0x0F = counter := by
  apply BitVec.eq_of_getLsbD_eq
  intro i hi
  have hmask := nibbleMask_getLsbD i hi
  by_cases h4 : i < 4
  · have hin : bit+i < 8 := by omega
    have hup : ¬ bit+i < bit := by omega
    simp only [counterByte,BitVec.getLsbD_and,BitVec.getLsbD_ushiftRight,BitVec.getLsbD_or,
      BitVec.getLsbD_not,BitVec.getLsbD_shiftLeft,Nat.add_sub_cancel_left,hmask,h4]
    simp [hin,hup]
  · rw [nibble_getLsbD hcounter (by omega),BitVec.getLsbD_and,hmask]
    simp [h4]

theorem sent_getElem {config : E2EProfile1Config} {data : List Byte}
    (h : FieldsInside config data.length) (counter : Byte) :
    sent config counter data = (data.set (byteOffset config.counterOffset)
        (counterByte (fieldByte config.counterOffset data) counter
          (bitOffset config.counterOffset))).set (byteOffset config.crcOffset)
        (calculateCRC8 data counter config.dataId) := by
  have hcrc := h.crc_lt
  rw [sent,writeCRC_eq,writeCounter_eq counter h.counter_lt]
  rwa [writeCounter_length]

theorem readCounter_sent {config : E2EProfile1Config} {data : List Byte}
    (h : FieldsInside config data.length) {counter : Byte} (hcounter : counter.toNat < 16) :
    readCounter config (sent config counter data) = counter := by
  have hlt := h.counter_lt
  have hget := counterByte_read h.nibble (fieldByte config.counterOffset data) counter hcounter
  simpa [readCounter,hlt,sent_getElem h,h.apart] using hget

theorem readCRC_sent {config : E2EProfile1Config} {data : List Byte}
    (h : FieldsInside config data.length) (counter : Byte) :
    readCRC config (sent config counter data) = calculateCRC8 data counter config.dataId := by
  have hlt := h.crc_lt
  simp [readCRC,hlt,sent_getElem h]

theorem calculateCRC8_sent {config : E2EProfile1Config} {data : List Byte}
    (h : FieldsInside config data.length) (counter : Byte) :
    calculateCRC8 (sent config counter data) counter config.dataId =
      calculateCRC8 data counter config.dataId ^^^
        Crc.shifts 0x1D (8*(data.length-byteOffset config.counterOffset))
          (fieldByte config.counterOffset data ^^^
            counterByte (fieldByte config.counterOffset data) counter
              (bitOffset config.counterOffset)) ^^^
        Crc.shifts 0x1D (8*(data.length-byteOffset config.crcOffset))
          (fieldByte config.crcOffset data ^^^ calculateCRC8 data counter config.dataId) := by
  have hcounter := h.counter_lt
  have hcrc := h.crc_lt
  have hne := h.apart
  rw [sent_getElem h,calculateCRC8_set _ _ _ _ _ (by simpa using hcrc),
    calculateCRC8_set _ _ _ _ _ hcounter,fieldByte_eq hcounter,fieldByte_eq hcrc]
  simp only [List.length_set]
  rw [List.getElem_set_ne (Ne.symm hne)]

theorem crc_matches_iff {config : E2EProfile1Config} {data : List Byte}
    (h : FieldsInside config data.length) (counter : Byte) :
    calculateCRC8 data counter config.dataId =
        calculateCRC8 (sent config counter data) counter config.dataId ↔
      WritesCancel config counter data := by
  rw [calculateCRC8_sent h,WritesCancel,← calculateCRC8_eq,BitVec.xor_assoc]
  constructor
  · intro heq
    apply BitVec.xor_eq_zero_iff.mp
    have hx := congrArg (calculateCRC8 data counter config.dataId ^^^ ·) heq
    simpa only [← BitVec.xor_assoc,BitVec.xor_self,BitVec.zero_xor] using hx.symm
  · intro heq
    simp only [heq,BitVec.xor_self,BitVec.xor_zero]

theorem protect_eq {p : E2EProfile1Protector} {data : List Byte}
    (h : lengthMatches p.config data = true) :
    p.protect data = (.ok (),{ p with counter := (p.counter+1)%15 },
      sent p.config (((p.counter+1)%15).setWidth 8) data) := by
  simp [E2EProfile1Protector.protect,h,sent]

theorem toNat_next (counter : BitVec 32) :
    ((counter+1)%15).toNat = (counter.toNat+1)%4294967296%15 := by
  rw [BitVec.toNat_umod,BitVec.toNat_add]
  rfl

theorem next_counter {k : Nat} (hk : k < 15) :
    (BitVec.ofNat 32 k+1)%15 = BitVec.ofNat 32 ((k+1)%15) := by
  apply BitVec.eq_of_toNat_eq
  rw [toNat_next,BitVec.toNat_ofNat,BitVec.toNat_ofNat]
  omega

theorem sequenceResult_next {k : Nat} (hk : k < 15) (maxDeltaCounter : BitVec 32) :
    sequenceResult (BitVec.ofNat 32 k) (BitVec.ofNat 32 ((k+1)%15)) maxDeltaCounter = .kOk := by
  have hne : BitVec.ofNat 32 ((k+1)%15) ≠ BitVec.ofNat 32 k := by
    intro h
    have h' := congrArg BitVec.toNat h
    simp only [BitVec.toNat_ofNat] at h'
    omega
  simp only [sequenceResult,next_counter hk,hne,if_false,ne_eq,not_true_eq_false]

theorem check_sent {c : E2EProfile1Checker} {data : List Byte} {k : Nat}
    (h : FieldsInside c.config data.length) (hk : k < 15)
    (hlast : c.lastCounter = BitVec.ofNat 32 k) :
    let counter := BitVec.ofNat 8 ((k+1)%15)
    let checked := c.check (sent c.config counter data)
    if WritesCancel c.config counter data then
      checked.1.result = .kOk ∧ checked.2.config = c.config ∧
        checked.2.lastCounter = BitVec.ofNat 32 ((k+1)%15)
    else checked.1.result = .kError := by
  intro counter checked
  have hsmall : counter.toNat < 16 := by simp only [counter,BitVec.toNat_ofNat]; omega
  have hwide : counter.setWidth 32 = BitVec.ofNat 32 ((k+1)%15) := by
    apply BitVec.eq_of_toNat_eq
    simp only [counter,BitVec.toNat_setWidth,BitVec.toNat_ofNat]
    omega
  have hlen := h.lengthMatches (sent_length c.config counter data)
  have hmatch := crc_matches_iff h counter
  simp only [checked,E2EProfile1Checker.check,hlen,if_true,readCounter_sent h hsmall,
    readCRC_sent h]
  by_cases hw : WritesCancel c.config counter data
  · simp only [hmatch.mpr hw,ne_eq,not_true_eq_false,if_false,if_pos hw,hwide,hlast,
      sequenceResult_next hk,and_self]
  · have hbad : calculateCRC8 data counter c.config.dataId ≠
        calculateCRC8 (sent c.config counter data) counter c.config.dataId :=
      fun heq => hw (hmatch.mp heq)
    simp only [ne_eq,hbad,not_false_eq_true,if_true,if_neg hw]

theorem checkAll_protectAll {config : E2EProfile1Config} {n : Nat} (h : FieldsInside config n)
    (payloads : List (List Byte)) (hlen : ∀ data ∈ payloads, data.length = n) {k : Nat}
    (hk : k < 15) (p : E2EProfile1Protector) (c : E2EProfile1Checker) (hp : p.config = config)
    (hc : c.config = config) (hcounter : p.counter = BitVec.ofNat 32 k)
    (hlast : c.lastCounter = BitVec.ofNat 32 k) :
    (∀ status ∈ checkAll c (protectAll p payloads), status.result = .kOk) ↔
      ∀ j (hj : j < payloads.length),
        WritesCancel config (BitVec.ofNat 8 ((k+j+1)%15)) payloads[j] := by
  induction payloads generalizing k p c with
  | nil => simp [protectAll,checkAll]
  | cons data rest ih =>
    obtain ⟨hdata,hrest⟩ := List.forall_mem_cons.mp hlen
    have hin : FieldsInside c.config data.length := by rw [hc,hdata]; exact h
    have hmatches : lengthMatches p.config data = true := by
      rw [hp]; exact h.lengthMatches hdata
    have hnarrow : (BitVec.ofNat 32 ((k+1)%15)).setWidth 8 = BitVec.ofNat 8 ((k+1)%15) := by
      apply BitVec.eq_of_toNat_eq
      simp only [BitVec.toNat_setWidth,BitVec.toNat_ofNat]
      omega
    have hcheck := check_sent hin hk hlast
    rw [protectAll,checkAll,List.forall_mem_cons,protect_eq hmatches]
    simp only [hcounter,next_counter hk,hnarrow,hp,hc] at hcheck ⊢
    by_cases hw : WritesCancel config (BitVec.ofNat 8 ((k+1)%15)) data
    · simp only [if_pos hw] at hcheck
      obtain ⟨hok,hconfig,hnext⟩ := hcheck
      rw [ih hrest (Nat.mod_lt _ (by omega)) _ _ rfl hconfig rfl hnext]
      constructor
      · rintro ⟨_,hall⟩ j hj
        cases j with
        | zero => exact hw
        | succ j =>
          have hj' := hall j (by simpa using hj)
          rwa [show ((k+1)%15+j+1)%15 = (k+(j+1)+1)%15 by omega] at hj'
      · intro hall
        refine ⟨hok,fun j hj => ?_⟩
        have hj' := hall (j+1) (by simpa using hj)
        rwa [show (k+(j+1)+1)%15 = ((k+1)%15+j+1)%15 by omega] at hj'
    · simp only [if_neg hw] at hcheck
      constructor
      · rintro ⟨hok,_⟩
        rw [hok] at hcheck; cases hcheck
      · intro hall
        exact absurd (hall 0 (by simp)) hw

/-- The receiver accepts everything the sender protected exactly when, for every
payload, writing the two fields after the CRC was taken leaves the CRC unchanged. -/
theorem roundTrip_iff (config : E2EProfile1Config) (n : Nat) (h : FieldsInside config n)
    (payloads : List (List Byte)) (hlen : ∀ data ∈ payloads, data.length = n) :
    (∀ status ∈ checkAll (.new config) (protectAll (.new config) payloads),
        status.result = .kOk) ↔
      ∀ j (hj : j < payloads.length),
        WritesCancel config (BitVec.ofNat 8 ((j+1)%15)) payloads[j] := by
  have hgen := checkAll_protectAll h payloads hlen (k := 0) (by omega) (.new config) (.new config)
    rfl rfl rfl rfl
  simpa only [Nat.zero_add] using hgen

def shortConfig : E2EProfile1Config := ⟨42,5,0,8,16⟩

theorem shortConfig_fields : FieldsInside shortConfig 2 := by constructor <;> decide

/-- Two payloads that carry, before they are protected, what protection writes. -/
theorem roundTrip_iff_settled : FieldsInside shortConfig 2 ∧
    ∀ status ∈ checkAll (.new shortConfig) (protectAll (.new shortConfig) [[1,21],[2,193]]),
      status.result = .kOk :=
  ⟨shortConfig_fields,
    (roundTrip_iff shortConfig 2 shortConfig_fields [[1,21],[2,193]] (by decide)).mpr
      (by decide +kernel)⟩

def documentedConfig : E2EProfile1Config := ⟨42,5,0,8,64⟩

theorem documented_message_rejected :
    FieldsInside documentedConfig 8 ∧
      checkAll (.new documentedConfig)
          (protectAll (.new documentedConfig) [[1,2,3,4,5,6,7,8]]) = [⟨.kError,1⟩] :=
  ⟨by constructor <;> decide,by decide +kernel⟩

end LapCom.E2E
