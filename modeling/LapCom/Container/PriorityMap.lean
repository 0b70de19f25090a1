import Mathlib

set_option autoImplicit false

namespace LapCom.Container

/-- A multimap whose entries stand in descending order of their keys. -/
structure PriorityMap (K V : Type) [LinearOrder K] where
  entries : List (K × V)
  sorted : entries.Pairwise fun a b => b.1 ≤ a.1

namespace PriorityMap

variable {K V : Type} [LinearOrder K]

def empty : PriorityMap K V := ⟨[],.nil⟩

def values (m : PriorityMap K V) : List V := m.entries.map Prod.snd

/-- A new entry goes behind the entries of its own key. -/
def emplace (m : PriorityMap K V) (k : K) (v : V) : PriorityMap K V where
  entries := m.entries.takeWhile (fun e => k ≤ e.1)++(k,v) :: m.entries.dropWhile fun e => k ≤ e.1
  sorted := by
    have hsorted := m.sorted
    rw [← List.takeWhile_append_dropWhile (p := fun e : K × V => decide (k ≤ e.1)) (l := m.entries),
      List.pairwise_append] at hsorted
    obtain ⟨hfront,hback,hcross⟩ := hsorted
    have hlow : ∀ e, e ∈ m.entries.dropWhile (fun e => decide (k ≤ e.1)) → e.1 ≤ k := by
      intro e he
      cases hd : m.entries.dropWhile (fun e => decide (k ≤ e.1)) with
      | nil => rw [hd] at he; cases he
      | cons b rest =>
        have hb : ¬ k ≤ b.1 := by
          have := List.dropWhile_get_zero_not (fun e : K × V => decide (k ≤ e.1)) m.entries
            (by rw [hd]; simp)
          simpa [hd] using this
        rw [hd] at he hback
        obtain rfl | he := List.mem_cons.mp he
        · exact le_of_lt (not_le.mp hb)
        · exact le_trans ((List.pairwise_cons.mp hback).1 e he) (le_of_lt (not_le.mp hb))
    refine List.pairwise_append.mpr ⟨hfront,List.pairwise_cons.mpr ⟨hlow,hback⟩,?_⟩
    intro a ha b hb
    have hka : k ≤ a.1 := by simpa using List.mem_takeWhile_imp ha
    obtain rfl | hb := List.mem_cons.mp hb
    · exact hka
    · exact le_trans (hlow b hb) hka

def filterValues (m : PriorityMap K V) (p : V → Bool) : PriorityMap K V where
  entries := m.entries.filter fun e => p e.2
  sorted := m.sorted.filter _

theorem emplace_perm (m : PriorityMap K V) (k : K) (v : V) :
    (m.emplace k v).entries.Perm ((k,v) :: m.entries) := by
  have h : (m.emplace k v).entries.Perm ((k,v) :: (m.entries.takeWhile (fun e => k ≤ e.1)++
      m.entries.dropWhile fun e => k ≤ e.1)) := List.perm_middle
  rwa [List.takeWhile_append_dropWhile] at h

@[simp] theorem mem_emplace {m : PriorityMap K V} {k : K} {v : V} {e : K × V} :
    e ∈ (m.emplace k v).entries ↔ e = (k,v) ∨ e ∈ m.entries := by
  rw [(m.emplace_perm k v).mem_iff,List.mem_cons]

theorem emplace_values_perm (m : PriorityMap K V) (k : K) (v : V) :
    (m.emplace k v).values.Perm (v :: m.values) :=
  (m.emplace_perm k v).map Prod.snd

@[simp] theorem mem_filterValues {m : PriorityMap K V} {p : V → Bool} {e : K × V} :
    e ∈ (m.filterValues p).entries ↔ e ∈ m.entries ∧ p e.2 = true :=
  List.mem_filter

theorem filterValues_values (m : PriorityMap K V) (p : V → Bool) :
    (m.filterValues p).values = m.values.filter p := by
  simp only [values,filterValues,List.filter_map]
  rfl

theorem mem_values {m : PriorityMap K V} {v : V} : v ∈ m.values ↔ ∃ k, (k,v) ∈ m.entries := by
  simp [values]

omit [LinearOrder K] in
theorem filter_value [DecidableEq V] {l : List (K × V)} {k : K} {v : V}
    (h : (l.map Prod.snd).Nodup) (he : (k,v) ∈ l) : (l.filter fun e => e.2 = v) = [(k,v)] := by
  induction l with
  | nil => cases he
  | cons a l ih =>
    obtain ⟨hnew,hrest⟩ := List.nodup_cons.mp h
    obtain rfl | he := List.mem_cons.mp he
    · have hnone : (l.filter fun e => e.2 = v) = [] := by
        apply List.filter_eq_nil_iff.mpr
        intro e hel heq
        exact hnew (List.mem_map.mpr ⟨e,hel,by simpa using heq⟩)
      rw [List.filter_cons_of_pos (by simp),hnone]
    · have hne : a.2 ≠ v := fun heq => hnew (List.mem_map.mpr ⟨(k,v),he,heq.symm⟩)
      rw [List.filter_cons_of_neg (by simpa using hne),ih hrest he]

theorem find?_eq_some_iff {m : PriorityMap K V} {q : K × V → Bool} {e : K × V}
    (hinj : ∀ a b, a ∈ m.entries → b ∈ m.entries → a.1 = b.1 → a = b) :
    m.entries.find? q = some e ↔
    e ∈ m.entries ∧ q e = true ∧ ∀ a, a ∈ m.entries → q a = true → a.1 ≤ e.1 := by
  have hfirst : ∀ e, m.entries.find? q = some e →
      e ∈ m.entries ∧ q e = true ∧ ∀ a, a ∈ m.entries → q a = true → a.1 ≤ e.1 := by
    intro e hfind
    obtain ⟨hq,front,back,hentries,hfront⟩ := List.find?_eq_some_iff_append.mp hfind
    refine ⟨List.mem_of_find?_eq_some hfind,hq,fun a ha hqa => ?_⟩
    have hsorted := m.sorted
    rw [hentries] at ha hsorted
    obtain ha | ha := List.mem_append.mp ha
    · have := hfront a ha
      rw [hqa] at this
      cases this
    · obtain rfl | ha := List.mem_cons.mp ha
      · exact le_refl _
      · exact (List.pairwise_cons.mp (List.pairwise_append.mp hsorted).2.1).1 a ha
  refine ⟨hfirst e,?_⟩
  rintro ⟨he,hq,hmax⟩
  cases hfind : m.entries.find? q with
  | none => exact absurd hq (List.find?_eq_none.mp hfind e he)
  | some a =>
    obtain ⟨ha,hqa,hamax⟩ := hfirst a hfind
    rw [hinj a e ha he (le_antisymm (hmax a ha hqa) (hamax e he hq))]

theorem takeWhile_eq_filter (m : PriorityMap K V) (k : K) :
    m.entries.takeWhile (fun e => k ≤ e.1) = m.entries.filter (fun e => k ≤ e.1) ∧
    m.entries.dropWhile (fun e => k ≤ e.1) = m.entries.filter fun e => e.1 < k := by
  obtain ⟨entries,sorted⟩ := m
  induction entries with
  | nil => exact ⟨rfl,rfl⟩
  | cons a rest ih =>
    obtain ⟨hlow,hrest⟩ := List.pairwise_cons.mp sorted
    by_cases hk : k ≤ a.1
    · simpa [hk] using ih hrest
    · have hall : ∀ e, e ∈ rest → e.1 < k := fun e he =>
        lt_of_le_of_lt (hlow e he) (not_le.mp hk)
      have hnone : rest.filter (fun e => k ≤ e.1) = [] :=
        List.filter_eq_nil_iff.mpr fun e he => by simpa using hall e he
      have hsame : rest.filter (fun e => e.1 < k) = rest :=
        List.filter_eq_self.mpr fun e he => by simpa using hall e he
      simp [hk,hnone,hsame,not_le.mp hk]

theorem filter_append_filter (m : PriorityMap K V) (k : K) :
    m.entries.filter (fun e => k ≤ e.1)++m.entries.filter (fun e => e.1 < k) = m.entries := by
  rw [← (m.takeWhile_eq_filter k).1,← (m.takeWhile_eq_filter k).2]
  exact List.takeWhile_append_dropWhile

/-- What an insertion does to the entries, without the walk to its place. -/
theorem entries_emplace (m : PriorityMap K V) (k : K) (v : V) :
    (m.emplace k v).entries =
      m.entries.filter (fun e => k ≤ e.1)++[(k,v)]++m.entries.filter fun e => e.1 < k := by
  rw [← (m.takeWhile_eq_filter k).1,← (m.takeWhile_eq_filter k).2,← List.append_cons]
  rfl

theorem eq_of_entries {m m' : PriorityMap K V} (h : m.entries = m'.entries) : m = m' := by
  cases m
  cases m'
  cases h
  rfl

theorem filterValues_emplace (m : PriorityMap K V) (k : K) (v : V) (p : V → Bool) :
    (m.emplace k v).filterValues p =
      if p v then (m.filterValues p).emplace k v else m.filterValues p := by
  have hcomm := fun q : K × V → Bool => List.filter_comm (p := fun e : K × V => p e.2) q m.entries
  have hentries : ((m.emplace k v).filterValues p).entries =
      (m.filterValues p).entries.filter (fun e => k ≤ e.1)++
        [(k,v)].filter (fun e => p e.2)++(m.filterValues p).entries.filter fun e => e.1 < k := by
    simp only [filterValues,entries_emplace,List.filter_append,hcomm]
  apply eq_of_entries
  rw [hentries]
  by_cases hp : p v = true
  · simp [hp,entries_emplace]
  · simp [hp,filter_append_filter]

theorem filter_key_emplace (m : PriorityMap K V) (k : K) (v : V) (j : K) :
    (m.emplace k v).entries.filter (fun e => e.1 = j) =
      m.entries.filter (fun e => e.1 = j)++[(k,v)].filter fun e => e.1 = j := by
  have hsplit : (m.entries.filter (fun e => k ≤ e.1)++m.entries.filter fun e => e.1 < k).filter
      (fun e => e.1 = j) = m.entries.filter fun e => e.1 = j := by rw [filter_append_filter]
  rw [← hsplit,entries_emplace]
  simp only [List.filter_append,List.append_assoc]
  by_cases hj : k = j
  · have hlow : (m.entries.filter fun e => e.1 < k).filter (fun e => e.1 = j) = [] := by
      apply List.filter_eq_nil_iff.mpr
      intro e he hej
      have hlt : e.1 < k := by simpa using (List.mem_filter.mp he).2
      exact absurd hlt (by simp [hj,of_decide_eq_true hej])
    simp [hlow]
  · simp [hj]

def ofInsertions (inserted : List (K × V)) : PriorityMap K V :=
  inserted.foldl (fun m e => m.emplace e.1 e.2) .empty

theorem ofInsertions_concat (inserted : List (K × V)) (e : K × V) :
    ofInsertions (inserted++[e]) = (ofInsertions inserted).emplace e.1 e.2 := by
  simp [ofInsertions]

theorem filterValues_ofInsertions (inserted : List (K × V)) (p : V → Bool) :
    (ofInsertions inserted).filterValues p = ofInsertions (inserted.filter fun e => p e.2) := by
  induction inserted using List.reverseRecOn with
  | nil => rfl
  | append_singleton inserted e ih =>
    rw [ofInsertions_concat,filterValues_emplace,ih,List.filter_append]
    by_cases hp : p e.2 = true
    · simp [hp,ofInsertions_concat]
    · simp [hp]

theorem ofInsertions_entries (m : PriorityMap K V) : ofInsertions m.entries = m := by
  obtain ⟨entries,sorted⟩ := m
  induction entries using List.reverseRecOn with
  | nil => rfl
  | append_singleton entries e ih =>
    obtain ⟨hfront,-,hcross⟩ := List.pairwise_append.mp sorted
    have hhigh : entries.filter (fun a => e.1 ≤ a.1) = entries :=
      List.filter_eq_self.mpr fun a ha => by simpa using hcross a ha e (List.mem_singleton_self e)
    have hlow : entries.filter (fun a => a.1 < e.1) = [] :=
      List.filter_eq_nil_iff.mpr fun a ha => by
        simpa using hcross a ha e (List.mem_singleton_self e)
    rw [ofInsertions_concat,ih hfront]
    apply eq_of_entries
    rw [entries_emplace,hhigh,hlow,List.append_nil]

theorem filter_key_ofInsertions (inserted : List (K × V)) (j : K) :
    (ofInsertions inserted).entries.filter (fun e => e.1 = j) =
      inserted.filter fun e => e.1 = j := by
  induction inserted using List.reverseRecOn with
  | nil => rfl
  | append_singleton inserted e ih =>
    rw [ofInsertions_concat,filter_key_emplace,ih,List.filter_append]

theorem mem_ofInsertions {inserted : List (K × V)} {e : K × V} :
    e ∈ (ofInsertions inserted).entries ↔ e ∈ inserted := by
  have hfilter := congrArg (fun l => e ∈ l) (filter_key_ofInsertions inserted e.1)
  simpa using hfilter

/-- Of the entries with a property, the first of the highest key. -/
structure Best (inserted : List (K × V)) (q : K × V → Bool) (e : K × V) : Prop where
  holds : q e = true
  highest : ∀ a, a ∈ inserted → q a = true → a.1 ≤ e.1
  earliest : ∃ front back, inserted = front++e :: back ∧ ∀ a, a ∈ front → q a = true → a.1 < e.1

theorem Best.mem {inserted : List (K × V)} {q : K × V → Bool} {e : K × V}
    (h : Best inserted q e) : e ∈ inserted := by
  obtain ⟨front,back,hsplit,-⟩ := h.earliest
  simp [hsplit]

theorem Best.unique {inserted : List (K × V)} {q : K × V → Bool} {e a : K × V}
    (he : Best inserted q e) (ha : Best inserted q a) : e = a := by
  have hkey : e.1 = a.1 :=
    le_antisymm (ha.highest e he.mem he.holds) (he.highest a ha.mem ha.holds)
  obtain ⟨front,back,hsplit,hfront⟩ := he.earliest
  obtain ⟨front',back',hsplit',hfront'⟩ := ha.earliest
  rw [hsplit] at hsplit'
  obtain ⟨mid,hmid,hrest⟩ | ⟨mid,hmid,hrest⟩ := List.append_eq_append_iff.mp hsplit'
  · cases mid with
    | nil => exact (List.cons.inj hrest).1
    | cons b mid =>
      obtain ⟨rfl,-⟩ := List.cons.inj hrest
      exact absurd hkey (ne_of_lt (hfront' e (by simp [hmid]) he.holds))
  · cases mid with
    | nil => exact (List.cons.inj hrest).1.symm
    | cons b mid =>
      obtain ⟨rfl,-⟩ := List.cons.inj hrest
      exact absurd hkey.symm (ne_of_lt (hfront a (by simp [hmid]) ha.holds))

theorem best_of_find? {inserted : List (K × V)} {q : K × V → Bool} {e : K × V}
    (h : (ofInsertions inserted).entries.find? q = some e) : Best inserted q e := by
  obtain ⟨hq,front,back,hentries,hfront⟩ := List.find?_eq_some_iff_append.mp h
  have hsorted := (ofInsertions inserted).sorted
  rw [hentries,List.pairwise_append] at hsorted
  have hhigh : ∀ a, a ∈ inserted → q a = true → a.1 ≤ e.1 := by
    intro a ha hqa
    rw [← mem_ofInsertions,hentries,List.mem_append,List.mem_cons] at ha
    obtain ha | rfl | ha := ha
    · have hnot := hfront a ha
      simp [hqa] at hnot
    · exact le_refl _
    · exact (List.pairwise_cons.mp hsorted.2.1).1 a ha
  have hkeys := filter_key_ofInsertions inserted e.1
  rw [hentries,List.filter_append,List.filter_cons_of_pos (by simp)] at hkeys
  obtain ⟨front',rest,hsplit,hfront',hrest⟩ := List.filter_eq_append_iff.mp hkeys.symm
  obtain ⟨skipped,back',rfl,hskipped,-,-⟩ := List.filter_eq_cons_iff.mp hrest
  refine ⟨hq,hhigh,front'++skipped,back',by simp [hsplit],?_⟩
  intro a ha hqa
  apply lt_of_le_of_ne (hhigh a (by rw [hsplit]; simp at ha ⊢; tauto) hqa)
  intro hkey
  obtain ha | ha := List.mem_append.mp ha
  · have hmem : a ∈ front := by
      have : a ∈ front'.filter fun a => a.1 = e.1 := List.mem_filter.mpr ⟨ha,by simpa using hkey⟩
      rw [hfront'] at this
      exact (List.mem_filter.mp this).1
    have := hfront a hmem
    simp [hqa] at this
  · exact hskipped a ha (by simpa using hkey)

theorem find?_ofInsertions {inserted : List (K × V)} {q : K × V → Bool} {e : K × V} :
    (ofInsertions inserted).entries.find? q = some e ↔ Best inserted q e := by
  refine ⟨best_of_find?,fun hbest => ?_⟩
  cases hfind : (ofInsertions inserted).entries.find? q with
  | none =>
    have hnone := List.find?_eq_none.mp hfind e (mem_ofInsertions.mpr hbest.mem)
    exact absurd hbest.holds hnone
  | some a => rw [(best_of_find? hfind).unique hbest]

end PriorityMap

end LapCom.Container
