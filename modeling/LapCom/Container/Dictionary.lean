import Mathlib.Data.List.AList

set_option autoImplicit false

namespace LapCom.Container

/-- A map whose keys occur once each. -/
abbrev Dictionary (K V : Type) := AList fun _ : K => V

namespace Dictionary

variable {K V : Type} [DecidableEq K] {m : Dictionary K V} {key a : K} {v w : V}

theorem lookup_insert_cases (h : (m.insert a v).lookup key = some w) :
    m.lookup key = some w ∨ (key = a ∧ w = v) := by
  by_cases hkey : key = a
  · subst hkey
    rw [AList.lookup_insert] at h
    exact .inr ⟨rfl,(Option.some.inj h).symm⟩
  · rw [AList.lookup_insert_ne hkey] at h
    exact .inl h

theorem lookup_of_erase (h : (m.erase a).lookup key = some w) : m.lookup key = some w := by
  by_cases hkey : key = a
  · subst hkey
    rw [AList.lookup_erase] at h
    cases h
  · rwa [AList.lookup_erase_ne hkey] at h

theorem ne_of_erase (h : (m.erase a).lookup key = some w) : key ≠ a := by
  rintro rfl
  rw [AList.lookup_erase] at h
  cases h

theorem mem_of_lookup (h : m.lookup key = some w) : key ∈ m :=
  AList.lookup_isSome.mp (Option.isSome_of_eq_some h)

theorem lookup_insert_of_absent (h : m.lookup key = some w) (ha : a ∉ m) :
    (m.insert a v).lookup key = some w := by
  have hne : key ≠ a := by
    rintro rfl
    exact ha (mem_of_lookup h)
  rwa [AList.lookup_insert_ne hne]

end Dictionary

end LapCom.Container
