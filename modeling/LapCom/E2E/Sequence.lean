import LapCom.E2E.RoundTrip
import Mathlib.Data.List.Induction
import Mathlib.Tactic.SplitIfs

set_option autoImplicit false

namespace LapCom.E2E

def accepted (config : E2EProfile1Config) (data : List Byte) : Bool :=
  lengthMatches config data &&
    readCRC config data == calculateCRC8 data (readCounter config data) config.dataId

section Check
variable {c : E2EProfile1Checker} {data : List Byte}

theorem check_accepted (h : accepted c.config data = true) :
    (c.check data).1 =
        ⟨sequenceResult c.lastCounter ((readCounter c.config data).setWidth 32)
          c.config.maxDeltaCounter,(readCounter c.config data).setWidth 32⟩ ∧
      (c.check data).2.config = c.config ∧
        (c.check data).2.lastCounter = (readCounter c.config data).setWidth 32 := by
  obtain ⟨hlen,hcrc⟩ := Bool.and_eq_true_iff.mp h
  simp [E2EProfile1Checker.check,hlen,beq_iff_eq.mp hcrc]

theorem check_rejected (h : accepted c.config data = false) :
    (c.check data).1.result = .kError ∧ (c.check data).2.config = c.config ∧
      (c.check data).2.lastCounter = c.lastCounter := by
  by_cases hlen : lengthMatches c.config data = true
  · have hcrc : readCRC c.config data ≠
        calculateCRC8 data (readCounter c.config data) c.config.dataId := by
      simpa [accepted,hlen] using h
    simp [E2EProfile1Checker.check,hlen,hcrc]
  · simp [E2EProfile1Checker.check,hlen]

theorem sequenceResult_ne_kError (lastCounter counter maxDeltaCounter : BitVec 32) :
    sequenceResult lastCounter counter maxDeltaCounter ≠ .kError := by
  simp only [sequenceResult]
  split_ifs
  all_goals simp

theorem check_kError_iff :
    (c.check data).1.result = .kError ↔ accepted c.config data = false := by
  cases h : accepted c.config data with
  | false => simp [(check_rejected h).1]
  | true => simp [(check_accepted h).1,sequenceResult_ne_kError]

end Check

theorem checkAll_filter {config : E2EProfile1Config} (buffers : List (List Byte))
    (c d : E2EProfile1Checker) (hc : c.config = config) (hd : d.config = config)
    (hlast : d.lastCounter = c.lastCounter) :
    checkAll d (buffers.filter (accepted config)) =
      ((buffers.zip (checkAll c buffers)).filter fun entry => accepted config entry.1).map
        Prod.snd := by
  induction buffers generalizing c d with
  | nil => rfl
  | cons data rest ih =>
    rw [checkAll,List.zip_cons_cons]
    cases h : accepted config data with
    | false =>
      obtain ⟨_,hconfig,hcounter⟩ := check_rejected (c := c) (by rw [hc]; exact h)
      rw [List.filter_cons_of_neg (by simp [h]),List.filter_cons_of_neg (by simp [h])]
      exact ih _ _ (hconfig.trans hc) hd (hlast.trans hcounter.symm)
    | true =>
      obtain ⟨hstatus,hconfig,hcounter⟩ := check_accepted (c := c) (by rw [hc]; exact h)
      obtain ⟨hstatus',hconfig',hcounter'⟩ := check_accepted (c := d) (by rw [hd]; exact h)
      rw [List.filter_cons_of_pos h,List.filter_cons_of_pos (by exact h),checkAll,List.map_cons]
      congr 1
      · rw [hstatus,hstatus',hlast,hc,hd]
      · apply ih _ _ (hconfig.trans hc) (hconfig'.trans hd)
        rw [hcounter,hcounter',hc,hd]

/-- Leaving out what the checker rejects does not change the verdicts on the rest. -/
theorem rejected_leave_no_trace (config : E2EProfile1Config) (buffers : List (List Byte)) :
    checkAll (.new config) (buffers.filter (accepted config)) =
      ((buffers.zip (checkAll (.new config) buffers)).filter fun entry =>
        accepted config entry.1).map Prod.snd :=
  checkAll_filter buffers (.new config) (.new config) rfl rfl rfl

section Sequence

def counters (config : E2EProfile1Config) (buffers : List (List Byte)) : List Nat :=
  buffers.map fun data => (readCounter config data).toNat

def previousCounter (before : List Nat) : Nat := before.getLast?.getD 0

def lastLegal (before : List Nat) : Option Nat := (before.filter fun c => c < 15).getLast?

def distance (last c : Nat) : Nat := (c+15-last)%15

/-- The verdict on the counter `c` that comes after the counters `before`. -/
def VerdictRight (maxDelta : Nat) (before : List Nat) (c : Nat) (result : E2EResult) : Prop :=
  if c < 15 then
    match lastLegal before with
    | none => result ≠ .kRepeated
    | some last =>
      result = if distance last c = 0 then .kRepeated
        else if distance last c ≤ max 1 maxDelta then .kOk else .kWrongSequence
  else result ≠ .kOk

/-- What the next counter has to keep for the last one to stand for the last legal one. -/
def Tracked (maxDelta : Nat) (before : List Nat) (c : Nat) : Prop :=
  if c < 15 then
    match lastLegal before with
    | none => c ≠ previousCounter before
    | some last => previousCounter before = 15 →
        c ≠ last ∧ (c ≤ max 1 maxDelta ↔ distance last c ≤ max 1 maxDelta)
  else previousCounter before = 15 ∨ maxDelta < 15-previousCounter before

theorem readCounter_lt (config : E2EProfile1Config) (data : List Byte) :
    (readCounter config data).toNat < 16 := by
  have hnibble : ∀ b : Byte, (b &&& 0x0F).toNat < 16 := by decide
  simp only [readCounter]
  split
  · exact hnibble _
  · decide

theorem sequenceResult_eq {last c : Nat} (hlast : last < 16) (hc : c < 16) (m : BitVec 32) :
    sequenceResult (BitVec.ofNat 32 last) (BitVec.ofNat 32 c) m =
      if c = last then .kRepeated
      else if c = (last+1)%15 ∨ (if last ≤ c then c-last else 15-last+c) ≤ m.toNat then .kOk
      else .kWrongSequence := by
  have hrepeated : BitVec.ofNat 32 c = BitVec.ofNat 32 last ↔ c = last := by
    rw [← BitVec.toNat_inj,BitVec.toNat_ofNat,BitVec.toNat_ofNat]
    omega
  have hexpected : BitVec.ofNat 32 c = (BitVec.ofNat 32 last+1)%15 ↔ c = (last+1)%15 := by
    rw [← BitVec.toNat_inj,toNat_next,BitVec.toNat_ofNat,BitVec.toNat_ofNat]
    omega
  have hge : BitVec.ofNat 32 c ≥ BitVec.ofNat 32 last ↔ last ≤ c := by
    rw [ge_iff_le,BitVec.le_def,BitVec.toNat_ofNat,BitVec.toNat_ofNat]
    omega
  have hdelta : (if BitVec.ofNat 32 c ≥ BitVec.ofNat 32 last then
        BitVec.ofNat 32 c-BitVec.ofNat 32 last
      else 15-BitVec.ofNat 32 last+BitVec.ofNat 32 c) =
        BitVec.ofNat 32 (if last ≤ c then c-last else 15-last+c) := by
    have hfifteen : (15 : BitVec 32).toNat = 15 := rfl
    simp only [hge]
    apply BitVec.eq_of_toNat_eq
    split_ifs
    · simp only [BitVec.toNat_sub,BitVec.toNat_ofNat]
      omega
    · simp only [BitVec.toNat_add,BitVec.toNat_sub,BitVec.toNat_ofNat,hfifteen]
      omega
  have hlarge : ∀ delta, delta < 16 → (BitVec.ofNat 32 delta > m ↔ ¬ delta ≤ m.toNat) := by
    intro delta hdelta
    rw [gt_iff_lt,BitVec.lt_def,BitVec.toNat_ofNat]
    omega
  have hsmall : (if last ≤ c then c-last else 15-last+c) < 16 := by
    split_ifs <;> omega
  simp only [sequenceResult,hrepeated,hexpected,hdelta,ne_eq,ite_not,hlarge _ hsmall]
  by_cases hc' : c = last
  · rw [if_pos hc',if_pos hc']
  · rw [if_neg hc',if_neg hc']
    by_cases he : c = (last+1)%15
    · rw [if_pos he,if_pos (.inl he)]
    · simp only [he,if_false,false_or]

theorem sequenceResult_legal {last c : Nat} (hlast : last < 15) (hc : c < 15) (m : BitVec 32) :
    sequenceResult (BitVec.ofNat 32 last) (BitVec.ofNat 32 c) m =
      if distance last c = 0 then .kRepeated
      else if distance last c ≤ max 1 m.toNat then .kOk else .kWrongSequence := by
  have hdelta : (if last ≤ c then c-last else 15-last+c) = distance last c := by
    unfold distance
    split_ifs <;> omega
  have hzero : c = last ↔ distance last c = 0 := by unfold distance; omega
  have hone : c = (last+1)%15 ↔ distance last c = 1 := by unfold distance; omega
  rw [sequenceResult_eq (by omega) (by omega),hdelta]
  by_cases hd : distance last c = 0
  · rw [if_pos (hzero.mpr hd),if_pos hd]
  · rw [if_neg fun h => hd (hzero.mp h),if_neg hd]
    exact if_congr (by omega) rfl rfl

theorem sequenceResult_after_illegal {c : Nat} (hc : c < 15) (m : BitVec 32) :
    sequenceResult (BitVec.ofNat 32 15) (BitVec.ofNat 32 c) m =
      if c ≤ max 1 m.toNat then .kOk else .kWrongSequence := by
  rw [sequenceResult_eq (by omega) (by omega),if_neg (show ¬ c = 15 by omega),
    if_neg (show ¬ 15 ≤ c by omega)]
  exact if_congr (by omega) rfl rfl

theorem sequenceResult_illegal {last : Nat} (hlast : last < 16) (m : BitVec 32) :
    sequenceResult (BitVec.ofNat 32 last) (BitVec.ofNat 32 15) m ≠ .kOk ↔
      last = 15 ∨ m.toNat < 15-last := by
  rw [sequenceResult_eq hlast (by omega)]
  by_cases h15 : last = 15
  · simp [h15]
  · have hexpected : ¬ 15 = (last+1)%15 := by omega
    rw [if_neg (Ne.symm h15),if_pos (show last ≤ 15 by omega)]
    simp only [hexpected,h15,false_or]
    split_ifs <;> simp <;> omega

theorem lastLegal_eq {before : List Nat} (hlt : ∀ c ∈ before, c < 16) :
    previousCounter before = 15 ∨ (before = [] ∨ previousCounter before < 15 ∧
      lastLegal before = some (previousCounter before)) := by
  rcases List.eq_nil_or_concat before with rfl | ⟨rest,c,rfl⟩
  · exact .inr (.inl rfl)
  · have hc := hlt c (by simp)
    by_cases hlegal : c < 15
    · simp [previousCounter,lastLegal,List.filter_append,hlegal]
    · left
      simp [previousCounter]
      omega

theorem lastLegal_lt {before : List Nat} {last : Nat} (h : lastLegal before = some last) :
    last < 15 := by
  have hmem := List.mem_filter.mp (List.mem_of_getLast? h)
  simpa using hmem.2

theorem verdictRight_iff {before : List Nat} (hlt : ∀ c ∈ before, c < 16) {c : Nat} (hc : c < 16)
    (m : BitVec 32) :
    VerdictRight m.toNat before c (sequenceResult (BitVec.ofNat 32 (previousCounter before))
        (BitVec.ofNat 32 c) m) ↔ Tracked m.toNat before c := by
  have hprevious : previousCounter before < 16 := by
    rcases lastLegal_eq hlt with h | rfl | ⟨h,_⟩
    · omega
    · decide
    · omega
  rw [VerdictRight,Tracked]
  by_cases hlegal : c < 15
  · rw [if_pos hlegal,if_pos hlegal]
    rcases lastLegal_eq hlt with h15 | rfl | ⟨h,hlast⟩
    · rw [h15,sequenceResult_after_illegal hlegal]
      cases hlast : lastLegal before with
      | none =>
        have hne : c ≠ 15 := by omega
        simp only [ne_eq,hne,not_false_eq_true,iff_true]
        split_ifs <;> simp
      | some last =>
        have hzero : c = last ↔ distance last c = 0 := by
          have := lastLegal_lt hlast
          unfold distance
          omega
        simp only [hzero,ne_eq,forall_const]
        split_ifs <;> simp [*]
    · rw [show previousCounter [] = 0 from rfl,sequenceResult_legal (by omega) hlegal]
      have hzero : distance 0 c = 0 ↔ c = 0 := by unfold distance; omega
      simp only [lastLegal,List.filter_nil,List.getLast?_nil,hzero]
      split_ifs <;> simp [*]
    · simp only [hlast,sequenceResult_legal h hlegal,true_iff]
      omega
  · have hc15 : c = 15 := by omega
    subst hc15
    rw [if_neg hlegal,if_neg hlegal]
    exact sequenceResult_illegal hprevious m

def checkerAfter (c : E2EProfile1Checker) (buffers : List (List Byte)) : E2EProfile1Checker :=
  buffers.foldl (fun c data => (c.check data).2) c

theorem checkAll_getElem? (c : E2EProfile1Checker) (buffers : List (List Byte)) (i : Nat) :
    (checkAll c buffers)[i]? =
      buffers[i]?.map fun data => ((checkerAfter c (buffers.take i)).check data).1 := by
  induction buffers generalizing c i with
  | nil => rfl
  | cons data rest ih =>
    cases i with
    | zero => rfl
    | succ i =>
      rw [checkAll,List.getElem?_cons_succ,List.getElem?_cons_succ,List.take_succ_cons,ih]
      rfl

theorem checkerAfter_accepted {config : E2EProfile1Config} {buffers : List (List Byte)}
    (h : ∀ data ∈ buffers, accepted config data = true) :
    (checkerAfter (.new config) buffers).config = config ∧
      (checkerAfter (.new config) buffers).lastCounter =
        BitVec.ofNat 32 (previousCounter (counters config buffers)) := by
  induction buffers using List.reverseRecOn with
  | nil => exact ⟨rfl,rfl⟩
  | append_singleton buffers data ih =>
    obtain ⟨hconfig,_⟩ := ih fun data hdata => h data (List.mem_append_left _ hdata)
    have hdata := h data (by simp)
    obtain ⟨_,hconfig',hcounter⟩ :=
      check_accepted (c := checkerAfter (.new config) buffers) (by rw [hconfig]; exact hdata)
    rw [checkerAfter,List.foldl_append]
    refine ⟨hconfig'.trans hconfig,hcounter.trans ?_⟩
    rw [hconfig]
    simp [counters,previousCounter]

theorem step_verdictRight_iff {config : E2EProfile1Config} {buffers : List (List Byte)}
    (h : ∀ data ∈ buffers, accepted config data = true) {i : Nat} {data : List Byte}
    (hdata : buffers[i]? = some data) :
    VerdictRight config.maxDeltaCounter.toNat ((counters config buffers).take i)
        (readCounter config data).toNat
        ((checkerAfter (.new config) (buffers.take i)).check data).1.result ↔
      Tracked config.maxDeltaCounter.toNat ((counters config buffers).take i)
        (readCounter config data).toNat := by
  have hlt : ∀ c ∈ (counters config buffers).take i, c < 16 := by
    intro c hc
    obtain ⟨data,_,rfl⟩ := List.mem_map.mp (List.mem_of_mem_take hc)
    exact readCounter_lt config data
  obtain ⟨hconfig,hlast⟩ :=
    checkerAfter_accepted fun data hdata => h data (List.mem_of_mem_take (i := i) hdata)
  obtain ⟨hstatus,_⟩ := check_accepted (c := checkerAfter (.new config) (buffers.take i))
    (by rw [hconfig]; exact h data (List.mem_of_getElem? hdata))
  have hcounters : counters config (buffers.take i) = (counters config buffers).take i :=
    List.map_take
  have hwide : (readCounter config data).setWidth 32 =
      BitVec.ofNat 32 (readCounter config data).toNat := by
    apply BitVec.eq_of_toNat_eq
    simp
  rw [hstatus,hlast,hconfig,hcounters,hwide]
  exact verdictRight_iff hlt (readCounter_lt config data) _

/-- The verdicts of a run follow the distance modulo 15 exactly where the counters are tracked. -/
theorem verdicts_follow_distance_iff (config : E2EProfile1Config) (buffers : List (List Byte))
    (h : ∀ data ∈ buffers, accepted config data = true) :
    (∀ i data status, buffers[i]? = some data →
        (checkAll (.new config) buffers)[i]? = some status →
          VerdictRight config.maxDeltaCounter.toNat ((counters config buffers).take i)
            (readCounter config data).toNat status.result) ↔
      ∀ i data, buffers[i]? = some data →
        Tracked config.maxDeltaCounter.toNat ((counters config buffers).take i)
          (readCounter config data).toNat := by
  constructor
  · intro hright i data hdata
    exact (step_verdictRight_iff h hdata).mp
      (hright i data _ hdata (by rw [checkAll_getElem?,hdata,Option.map_some]))
  · intro htracked i data status hdata hstatus
    rw [checkAll_getElem?,hdata,Option.map_some] at hstatus
    cases hstatus
    exact (step_verdictRight_iff h hdata).mpr (htracked i data hdata)

/-- A receiver that joins late, loses frames and sees the counter wrap around. -/
theorem verdicts_follow_distance_wrap :
    let buffers := [[1,21],[3,141],[12,46],[14,182],[0,89],[0,89]]
    (checkAll (.new shortConfig) buffers).map (·.result) =
        [.kOk,.kOk,.kWrongSequence,.kOk,.kOk,.kRepeated] ∧
      ∀ i data status, buffers[i]? = some data →
        (checkAll (.new shortConfig) buffers)[i]? = some status →
          VerdictRight 5 ((counters shortConfig buffers).take i)
            (readCounter shortConfig data).toNat status.result := by
  refine ⟨by decide +kernel,?_⟩
  apply (verdicts_follow_distance_iff shortConfig _ (by decide +kernel)).mpr
  intro i data hdata
  have hcounters : counters shortConfig [[1,21],[3,141],[12,46],[14,182],[0,89],[0,89]] =
      [1,3,12,14,0,0] := by decide
  rw [hcounters]
  rcases i with _ | _ | _ | _ | _ | _ | i
  all_goals cases hdata
  all_goals simp [Tracked,readCounter,shortConfig,byteOffset,bitOffset,lastLegal,previousCounter]

/-- The first buffer is taken for a repetition, an illegal counter is let through, and a buffer
after it is judged by its distance from 0. -/
theorem verdicts_misjudged :
    let buffers := [[0,89],[5,56],[10,155],[15,250],[12,46]]
    (∀ data ∈ buffers, accepted shortConfig data = true) ∧
      (checkAll (.new shortConfig) buffers).map (·.result) =
          [.kRepeated,.kOk,.kOk,.kOk,.kWrongSequence] ∧
        ¬ VerdictRight 5 [] 0 .kRepeated ∧ ¬ VerdictRight 5 [0,5,10] 15 .kOk ∧
          ¬ VerdictRight 5 [0,5,10,15] 12 .kWrongSequence ∧
      ¬ ∀ i data status, buffers[i]? = some data →
        (checkAll (.new shortConfig) buffers)[i]? = some status →
          VerdictRight 5 ((counters shortConfig buffers).take i)
            (readCounter shortConfig data).toNat status.result := by
  have hfirst : ¬ VerdictRight 5 [] 0 .kRepeated := by simp [VerdictRight,lastLegal]
  refine ⟨by decide +kernel,by decide +kernel,hfirst,?_,?_,fun h => ?_⟩
  · simp [VerdictRight]
  · simp [VerdictRight,lastLegal,distance]
  · exact hfirst (h 0 [0,89] ⟨.kRepeated,0⟩ rfl (by decide +kernel))

end Sequence

end LapCom.E2E
