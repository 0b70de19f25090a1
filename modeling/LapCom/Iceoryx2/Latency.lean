import LapCom.Iceoryx2.Binding
import LapCom.Numeric.RunningMean
import Mathlib.Data.List.Induction

set_option autoImplicit false

namespace LapCom.Iceoryx2
open LapCom.Numeric

structure Send where
  serviceId : BitVec 64
  instanceId : BitVec 64
  eventId : BitVec 32
  data : List Byte
  outcome : SendOutcome

def Iceoryx2Binding.sendAll {C : Type} (b : Iceoryx2Binding C) :
    List Send → Option (Iceoryx2Binding C)
  | [] => some b
  | s :: rest =>
    match b.sendEvent s.serviceId s.instanceId s.eventId s.data s.outcome with
    | (.ok (),b',_) => b'.sendAll rest
    | (.error _,_,_) => none

def latencies (sends : List Send) : List (BitVec 64) := sends.map fun s => s.outcome.latencyNs

def nanoseconds (sends : List Send) : List Nat := (latencies sends).map BitVec.toNat

namespace TransportMetrics

def sentAll (m : TransportMetrics) (sends : List Send) : TransportMetrics :=
  sends.foldl (fun m s => m.sent s.data.length s.outcome.latencyNs) m

theorem sentAll_concat (m : TransportMetrics) (sends : List Send) (s : Send) :
    m.sentAll (sends++[s]) = (m.sentAll sends).sent s.data.length s.outcome.latencyNs := by
  simp [sentAll]

theorem sentAll_messagesSent (m : TransportMetrics) (sends : List Send) :
    (m.sentAll sends).messagesSent = m.messagesSent+BitVec.ofNat 64 sends.length := by
  induction sends using List.reverseRecOn with
  | nil => simp [sentAll]
  | append_singleton sends s ih =>
    rw [sentAll_concat,List.length_append,List.length_singleton,BitVec.ofNat_add,
      ← BitVec.add_assoc,← ih]
    rfl

/-- What the two extremes know about the latencies so far. -/
structure Bounds (m : TransportMetrics) (sends : List Send) : Prop where
  least : ∀ x, x ∈ latencies sends → m.minLatencyNs ≤ x
  greatest : ∀ x, x ∈ latencies sends → x ≤ m.maxLatencyNs
  min_mem : m.minLatencyNs ∈ latencies sends ∨ m.minLatencyNs = -1
  max_mem : m.maxLatencyNs ∈ latencies sends ∨ m.maxLatencyNs = 0

theorem sentAll_bounds (sends : List Send) : Bounds (initial.sentAll sends) sends := by
  induction sends using List.reverseRecOn with
  | nil =>
    exact ⟨fun x hx => absurd hx List.not_mem_nil,fun x hx => absurd hx List.not_mem_nil,
      .inr rfl,.inr rfl⟩
  | append_singleton sends s ih =>
    have hlatencies : latencies (sends++[s]) = latencies sends++[s.outcome.latencyNs] := by
      simp [latencies]
    obtain ⟨hleast,hgreatest,hmin,hmax⟩ := ih
    rw [sentAll_concat]
    refine ⟨?_,?_,?_,?_⟩
    · intro x hx
      rw [hlatencies,List.mem_append,List.mem_singleton] at hx
      simp only [sent]
      split_ifs with hlt
      · obtain hx | rfl := hx
        · exact BitVec.le_trans (BitVec.le_of_lt hlt) (hleast x hx)
        · exact BitVec.le_refl _
      · obtain hx | rfl := hx
        · exact hleast x hx
        · exact BitVec.not_lt.mp hlt
    · intro x hx
      rw [hlatencies,List.mem_append,List.mem_singleton] at hx
      simp only [sent]
      split_ifs with hlt
      · obtain hx | rfl := hx
        · exact BitVec.le_trans (hgreatest x hx) (BitVec.le_of_lt hlt)
        · exact BitVec.le_refl _
      · obtain hx | rfl := hx
        · exact hgreatest x hx
        · exact BitVec.not_lt.mp hlt
    · rw [hlatencies,List.mem_append,List.mem_singleton]
      simp only [sent]
      split_ifs
      · exact .inl (.inr rfl)
      · exact hmin.imp_left .inl
    · rw [hlatencies,List.mem_append,List.mem_singleton]
      simp only [sent]
      split_ifs
      · exact .inl (.inr rfl)
      · exact hmax.imp_left .inl

structure Tracks (m : TransportMetrics) (r : RunningMean) : Prop where
  count : m.messagesSent.toNat = r.count
  mean : m.avgLatencyNs.toNat = r.mean

theorem Tracks.sent {m : TransportMetrics} {r : RunningMean} (h : Tracks m r) (size : Nat)
    (latencyNs : BitVec 64) (hcount : r.count+1 < 18446744073709551616)
    (hsum : r.mean*r.count+latencyNs.toNat < 18446744073709551616) :
    Tracks (m.sent size latencyNs) (r.add latencyNs.toNat) := by
  have hnext : (m.messagesSent+1).toNat = r.count+1 := by
    rw [BitVec.toNat_add,h.count]
    simp
    omega
  refine ⟨hnext,?_⟩
  simp only [TransportMetrics.sent,RunningMean.add]
  split_ifs with hfirst
  · have hzero : r.count = 0 := by
      rw [hfirst] at hnext
      simpa using hnext.symm
    simp [hzero]
  · have hold : (m.messagesSent+1-1).toNat = r.count := by
      rw [BitVec.add_sub_cancel,h.count]
    have hproduct : (m.avgLatencyNs*(m.messagesSent+1-1)).toNat = r.mean*r.count := by
      rw [BitVec.toNat_mul,h.mean,hold]
      exact Nat.mod_eq_of_lt (by omega)
    rw [BitVec.toNat_udiv,BitVec.toNat_add,hproduct,hnext]
    congr 1
    exact Nat.mod_eq_of_lt (by omega)

theorem sentAll_tracks {m : TransportMetrics} {r : RunningMean} (h : Tracks m r)
    (sends : List Send) (hcount : r.count+sends.length < 18446744073709551616)
    (hsum : r.mean*r.count+(nanoseconds sends).sum < 18446744073709551616) :
    Tracks (m.sentAll sends) (r.addAll (nanoseconds sends)) := by
  induction sends generalizing m r with
  | nil => exact h
  | cons s rest ih =>
    have hlist : nanoseconds (s :: rest) = s.outcome.latencyNs.toNat :: nanoseconds rest := rfl
    rw [List.length_cons] at hcount
    rw [hlist,List.sum_cons] at hsum
    have hle : (r.add s.outcome.latencyNs.toNat).mean*(r.add s.outcome.latencyNs.toNat).count ≤
        r.mean*r.count+s.outcome.latencyNs.toNat := Nat.div_mul_le_self _ _
    have hnext : (r.add s.outcome.latencyNs.toNat).count = r.count+1 := rfl
    have hstep := h.sent s.data.length s.outcome.latencyNs (by omega) (by omega)
    refine ih hstep ?_ ?_
    · rw [hnext]
      omega
    · exact lt_of_le_of_lt (Nat.add_le_add_right hle _) (by omega)

end TransportMetrics

namespace Iceoryx2Binding
variable {C : Type} {b b' : Iceoryx2Binding C}

theorem sendEvent_metrics {serviceId instanceId : BitVec 64} {eventId : BitVec 32}
    {data : List Byte} {outcome : SendOutcome} {sample : Option Sample}
    (h : b.sendEvent serviceId instanceId eventId data outcome = (.ok (),b',sample)) :
    b'.metrics = b.metrics.sent data.length outcome.latencyNs := by
  rw [sendEvent] at h
  cases hlookup : b.publishers.lookup (makeServiceKey serviceId instanceId) with
  | none =>
    rw [hlookup] at h
    dsimp only at h
    split_ifs at h
    · cases h
    · cases h
  | some publisher =>
    rw [hlookup] at h
    dsimp only at h
    split_ifs at h
    · cases h
    · cases h
    · cases h
    · cases h
      rfl

theorem sendAll_metrics {sends : List Send} (h : b.sendAll sends = some b') :
    b'.metrics = b.metrics.sentAll sends := by
  induction sends generalizing b with
  | nil =>
    cases h
    rfl
  | cons s rest ih =>
    rw [sendAll] at h
    split at h
    · rename_i b₁ sample hsend
      rw [ih h,sendEvent_metrics hsend]
      rfl
    · cases h

end Iceoryx2Binding

/-- No send divides by a count of 0. -/
def CountsDefined (sends : List Send) : Prop :=
  ∀ k, k < sends.length →
    (TransportMetrics.initial.sentAll (sends.take k)).messagesSent+1 ≠ 0#64

theorem countsDefined_iff (sends : List Send) :
    CountsDefined sends ↔ sends.length < 18446744073709551616 := by
  have hcount : ∀ k, k < sends.length →
      (TransportMetrics.initial.sentAll (sends.take k)).messagesSent+1 =
        BitVec.ofNat 64 (k+1) := by
    intro k hk
    rw [TransportMetrics.sentAll_messagesSent,List.length_take,Nat.min_eq_left (by omega),
      BitVec.ofNat_add]
    simp [TransportMetrics.initial]
  constructor
  · intro h
    by_contra hlong
    apply h 18446744073709551615 (by omega)
    rw [hcount _ (by omega)]
    rfl
  · intro hlength k hk hzero
    rw [hcount k hk] at hzero
    have hvalue := congrArg BitVec.toNat hzero
    rw [BitVec.toNat_ofNat] at hvalue
    simp at hvalue
    omega

def ExactBounds (m : TransportMetrics) (sends : List Send) : Prop :=
  (m.minLatencyNs ∈ latencies sends ∧ ∀ x, x ∈ latencies sends → m.minLatencyNs ≤ x) ∧
  m.maxLatencyNs ∈ latencies sends ∧ ∀ x, x ∈ latencies sends → x ≤ m.maxLatencyNs

theorem TransportMetrics.Bounds.exact {m : TransportMetrics} {sends : List Send}
    (h : Bounds m sends) (hne : sends ≠ []) : ExactBounds m sends := by
  obtain ⟨s,rest,rfl⟩ := List.exists_cons_of_ne_nil hne
  have hs : s.outcome.latencyNs ∈ latencies (s :: rest) := List.mem_cons_self
  refine ⟨⟨?_,h.least⟩,?_,h.greatest⟩
  · obtain hmem | hinitial := h.min_mem
    · exact hmem
    · have hle := h.least _ hs
      rw [hinitial] at hle ⊢
      rwa [BitVec.allOnes_le_iff.mp hle] at hs
  · obtain hmem | hinitial := h.max_mem
    · exact hmem
    · have hle := h.greatest _ hs
      rw [hinitial] at hle ⊢
      rwa [BitVec.le_zero_iff.mp hle] at hs

theorem sendAll_latencies {C : Type} {b b' : Iceoryx2Binding C} {sends : List Send}
    (hfresh : b.metrics = .initial) (hne : sends ≠ []) (h : b.sendAll sends = some b')
    (hsum : (nanoseconds sends).sum < 18446744073709551616) :
    ExactBounds b'.metrics sends ∧
    (CountsDefined sends ∧ |((nanoseconds sends).sum : ℚ)/sends.length-
        b'.metrics.avgLatencyNs.toNat| < 1 ↔
      sends.length < 18446744073709551616 ∧ cut (nanoseconds sends) < sends.length) := by
  rw [Iceoryx2Binding.sendAll_metrics h,hfresh]
  refine ⟨(TransportMetrics.sentAll_bounds sends).exact hne,?_⟩
  rw [countsDefined_iff]
  apply and_congr_right
  intro hlength
  have htracks : TransportMetrics.Tracks .initial .initial := ⟨rfl,rfl⟩
  have hall := TransportMetrics.sentAll_tracks htracks sends
    (by simpa [RunningMean.initial] using hlength) (by simpa [RunningMean.initial] using hsum)
  have hnanoseconds : (nanoseconds sends).length = sends.length := by
    simp [nanoseconds,latencies]
  have haccurate := mean_accurate_iff (nanoseconds sends) (by
    rw [← List.length_pos_iff,hnanoseconds]
    exact List.length_pos_iff.mpr hne)
  rw [hnanoseconds] at haccurate
  rw [hall.mean]
  exact haccurate

def offering : Iceoryx2Binding Unit :=
  ((Iceoryx2Binding.new.initializeBinding ⟨true,true,true⟩).2.offerService 1 1 ⟨true,true,true⟩).2

def sends (ls : List (BitVec 64)) : List Send := ls.map fun ns => ⟨1,1,1,[],⟨true,true,ns⟩⟩

theorem sendAll_latencies_two : ∃ b', offering.sendAll (sends [109#64,108#64]) = some b' ∧
    |((nanoseconds (sends [109#64,108#64])).sum : ℚ)/(sends [109#64,108#64]).length-
      b'.metrics.avgLatencyNs.toNat| < 1 :=
  ⟨_,rfl,((sendAll_latencies (b := offering) rfl (by decide) rfl (by decide)).2.mpr
    ⟨by decide,by decide⟩).2⟩

theorem sends_descending : ∃ b', offering.sendAll (sends [109#64,108#64,107#64]) = some b' ∧
    offering.metrics = .initial ∧
    (nanoseconds (sends [109#64,108#64,107#64])).sum < 18446744073709551616 ∧
    ¬ |((nanoseconds (sends [109#64,108#64,107#64])).sum : ℚ)/(sends [109#64,108#64,107#64]).length-
      b'.metrics.avgLatencyNs.toNat| < 1 := by
  obtain ⟨b',hall⟩ : ∃ b', offering.sendAll (sends [109#64,108#64,107#64]) = some b' := ⟨_,rfl⟩
  have havg : b'.metrics.avgLatencyNs.toNat = 107 := by
    rw [Iceoryx2Binding.sendAll_metrics hall]
    decide
  have hsum : (nanoseconds (sends [109#64,108#64,107#64])).sum = 324 := by decide
  have hlength : (sends [109#64,108#64,107#64]).length = 3 := rfl
  refine ⟨b',hall,rfl,by decide,?_⟩
  rw [hsum,hlength,havg]
  norm_num

end LapCom.Iceoryx2
