import Mathlib.Data.List.Basic

set_option autoImplicit false

/-! An object behind a mutex that is not recursive, and callbacks that run under it. -/

namespace LapCom.Machine

/-- An object, and whether the thread that uses it holds its mutex. -/
structure Guarded (A : Type) where
  value : A
  held : Bool

structure Interface (A M : Type) where
  locks : M → Bool
  exec : M → A → A

section Guarded
variable {A B M : Type}

/-- A section with a `std::lock_guard`. `none` is a thread that locks the mutex it holds. -/
def Guarded.locked (g : Guarded A) (body : Guarded A → Option (B × Guarded A)) :
    Option (B × Guarded A) :=
  if g.held then none
  else (body { g with held := true }).map fun done => (done.1,{ done.2 with held := false })

namespace Interface

def call (api : Interface A M) (g : Guarded A) (m : M) : Option (Guarded A) :=
  if api.locks m then
    (g.locked fun g => some ((),{ g with value := api.exec m g.value })).map Prod.snd
  else some { g with value := api.exec m g.value }

def callAll (api : Interface A M) (g : Guarded A) : List M → Option (Guarded A)
  | [] => some g
  | m :: ms => (api.call g m).bind fun g => api.callAll g ms

/-- A section that first changes the object and then runs a callback, which makes calls. -/
def dispatch (api : Interface A M) (g : Guarded A) (enter : A → A × List M × B) :
    Option (B × Guarded A) :=
  g.locked fun g =>
    let (a,calls,b) := enter g.value
    (api.callAll { g with value := a } calls).map fun g => (b,g)

variable {api : Interface A M} {g : Guarded A}

theorem call_held (h : g.held = true) (m : M) :
    api.call g m =
      if api.locks m then none else some { g with value := api.exec m g.value } := by
  rw [call,Guarded.locked,if_pos h,Option.map_none]

theorem callAll_held_iff (h : g.held = true) (ms : List M) :
    (api.callAll g ms).isSome = true ↔ ∀ m, m ∈ ms → api.locks m = false := by
  induction ms generalizing g with
  | nil => simp [callAll]
  | cons m ms ih =>
    rw [callAll,call_held h,List.forall_mem_cons]
    cases hm : api.locks m with
    | true => simp
    | false =>
      have hrest := ih (g := ⟨api.exec m g.value,g.held⟩) h
      rw [if_neg (by simp),Option.bind_some]
      simp only [true_and]
      exact hrest

theorem dispatch_iff (a : A) (enter : A → A × List M × B) :
    (api.dispatch ⟨a,false⟩ enter).isSome = true ↔
      ∀ m, m ∈ (enter a).2.1 → api.locks m = false := by
  rw [dispatch,Guarded.locked,if_neg (by simp),Option.isSome_map,Option.isSome_map]
  exact callAll_held_iff rfl _

end Interface

end Guarded

end LapCom.Machine
