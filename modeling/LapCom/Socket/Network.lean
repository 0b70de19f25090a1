import LapCom.ComTypes
import LapCom.Stream.Reader
import Mathlib.Data.List.Nodup
import Mathlib.Logic.Function.Basic

set_option autoImplicit false

namespace LapCom.Socket
open LapCom.Stream

/-- The connections as the sending loops see them. `calls k` is what the calls of the
`k`-th loop from now on do. -/
structure Network where
  written : Nat → List Byte
  calls : Nat → Calls

def Network.Healthy (n : Network) : Prop := ∀ k j, (n.calls k).fail j = false

def Network.send (n : Network) (fd : Nat) (data : List Byte) : Network × Bool :=
  let sent := sendAll data.length (n.calls 0) data (n.written fd)
  ({ written := Function.update n.written fd sent.1, calls := fun k => n.calls (k+1) },sent.2)

theorem Network.send_healthy {n : Network} (h : n.Healthy) (fd : Nat) (data : List Byte) :
    n.send fd data =
      ({ written := Function.update n.written fd (n.written fd++data),
         calls := fun k => n.calls (k+1) },true) := by
  simp only [send]
  rw [sendAll_of_not_fail (h 0) (Nat.le_refl _)]

theorem Network.send_keeps_healthy {n : Network} (h : n.Healthy) (fd : Nat) (data : List Byte) :
    (n.send fd data).1.Healthy :=
  fun k => h (k+1)

/-- An `unordered_set` of connections. -/
structure FdSet where
  fds : List Nat
  nodup : fds.Nodup

def FdSet.empty : FdSet := ⟨[],List.nodup_nil⟩

def FdSet.insert (s : FdSet) (fd : Nat) : FdSet := ⟨s.fds.insert fd,s.nodup.insert⟩

def FdSet.erase (s : FdSet) (fd : Nat) : FdSet := ⟨s.fds.erase fd,s.nodup.erase fd⟩

theorem FdSet.mem_insert {s : FdSet} {fd a : Nat} : a ∈ (s.insert fd).fds ↔ a = fd ∨ a ∈ s.fds :=
  List.mem_insert_iff

theorem FdSet.mem_erase {s : FdSet} {fd a : Nat} : a ∈ (s.erase fd).fds ↔ a ≠ fd ∧ a ∈ s.fds :=
  s.nodup.mem_erase_iff

theorem FdSet.mem_foldl_insert {fds : List Nat} {s : FdSet} {fd : Nat} (h : fd ∈ s.fds) :
    fd ∈ (fds.foldl FdSet.insert s).fds := by
  induction fds generalizing s with
  | nil => exact h
  | cons a fds ih => exact ih (mem_insert.mpr (.inr h))

/-- The loop over the subscribers, with those whose send failed. -/
def sendTo (frameData : List Byte) : List Nat → Network → List Nat → Network × List Nat
  | [],net,toRemove => (net,toRemove)
  | fd :: fds,net,toRemove =>
    let sent := net.send fd frameData
    sendTo frameData fds sent.1 (if sent.2 then toRemove else toRemove++[fd])

theorem sendTo_healthy {fds : List Nat} {net : Network} (hnet : net.Healthy)
    (hnodup : fds.Nodup) (frameData : List Byte) (toRemove : List Nat) :
    (sendTo frameData fds net toRemove).2 = toRemove ∧
      (sendTo frameData fds net toRemove).1.Healthy ∧
      ∀ fd, (sendTo frameData fds net toRemove).1.written fd =
        net.written fd++(if fd ∈ fds then frameData else []) := by
  induction fds generalizing net with
  | nil => exact ⟨rfl,hnet,fun fd => by simp [sendTo]⟩
  | cons a fds ih =>
    obtain ⟨hmem,hnodup⟩ := List.nodup_cons.mp hnodup
    have hnext := Network.send_keeps_healthy hnet a frameData
    have hsend := Network.send_healthy hnet a frameData
    obtain ⟨hremove,hhealthy,hwritten⟩ := ih hnext hnodup
    rw [sendTo]
    simp only [show (net.send a frameData).2 = true by rw [hsend],if_true]
    refine ⟨hremove,hhealthy,?_⟩
    intro fd
    rw [hwritten,hsend]
    by_cases hfd : fd = a
    · subst hfd
      simp [hmem]
    · simp [hfd]

end LapCom.Socket
