import Mathlib.Data.List.TakeWhile

set_option autoImplicit false

namespace LapCom.Container

/-- The last `bound` entries of a log, or all of them where there is no bound. -/
def window {A : Type} (bound : Nat) (log : List A) : List A :=
  if bound = 0 then log else log.drop (log.length-bound)

section Window
variable {A : Type} {bound : Nat} {log : List A}

theorem window_of_le (h : bound = 0 ∨ log.length ≤ bound) : window bound log = log := by
  rw [window]
  split_ifs with hzero
  · rfl
  · rw [Nat.sub_eq_zero_of_le (h.resolve_left hzero),List.drop_zero]

theorem window_length (h : 0 < bound) : (window bound log).length = min log.length bound := by
  rw [window,if_neg (by omega),List.length_drop]
  omega

theorem window_suffix (bound : Nat) (log : List A) : window bound log <:+ log := by
  rw [window]
  split_ifs
  · exact List.suffix_refl log
  · exact List.drop_suffix _ _

theorem mem_of_mem_window {x : A} (h : x ∈ window bound log) : x ∈ log :=
  (window_suffix bound log).subset h

theorem window_tail (bound : Nat) (log : List A) :
    window bound (window bound log).tail = (window bound log).tail := by
  apply window_of_le
  rcases Nat.eq_zero_or_pos bound with hzero | hpos
  · exact .inl hzero
  · have hlength : (window bound log).length = min log.length bound := window_length hpos
    rw [List.length_tail,hlength]
    omega

/-- An entry that is new goes behind the window, whose first one falls out when it is full. -/
theorem window_concat (bound : Nat) (log : List A) (x : A) :
    window bound (log++[x]) =
      (if 0 < bound ∧ bound ≤ (window bound log).length then (window bound log).tail
        else window bound log)++[x] := by
  rcases Nat.eq_zero_or_pos bound with rfl | hpos
  · rfl
  · have hlength : (window bound log).length = min log.length bound := window_length hpos
    by_cases hfull : bound ≤ log.length
    · have hcut : (log++[x]).length-bound = log.length-bound+1 := by
        rw [List.length_append,List.length_singleton]
        omega
      rw [if_pos ⟨hpos,by omega⟩,window,window,if_neg (by omega),if_neg (by omega),hcut,
        List.tail_drop,List.drop_append_of_le_length (by omega)]
    · have hshort : (log++[x]).length ≤ bound := by
        rw [List.length_append,List.length_singleton]
        omega
      rw [if_neg (by omega),window_of_le (.inr hshort),window_of_le (.inr (by omega))]

end Window

end LapCom.Container
