import Mathlib.Algebra.Order.BigOperators.Group.List
import Mathlib.Algebra.Order.Group.Nat
import Mathlib.Algebra.GroupWithZero.Nat
import SessionOffload.Lib.Transition

/-! Runs that come to an end, and processes that take turns: each step moves one of them and
takes from what it has left, while the others have no more left than before. -/
namespace Transition

variable {S L P : Type*} {R : S → L → S → Prop}

/-- A run is no longer than what its steps take away from a measure. -/
theorem Path.bounded (Inv : S → Prop) (measure : S → Nat)
    (turn : ∀ s l t, Inv s → R s l t → Inv t ∧ measure t < measure s) {s t : S} {ls : List L}
    (path : Path R s ls t) (start : Inv s) : ls.length + measure t ≤ measure s := by
  induction path with
  | nil => exact Nat.le_of_eq (Nat.zero_add _)
  | cons step _ ih =>
    obtain ⟨kept, smaller⟩ := turn _ _ _ start step
    have rest := ih kept
    rw [List.length_cons]
    omega

/-- The process that moves has less left, and no other has more. -/
theorem sum_turn {left left' : P → Nat} {p p' : P} (less : left' p' < left p) :
    ∀ {processes : List P} {j : Nat}, processes[j]? = some p →
      (∀ q ∈ processes, left' q ≤ left q) →
      ((processes.set j p').map left').sum < (processes.map left).sum := by
  intro processes
  induction processes with
  | nil => exact fun there => nomatch there
  | cons q rest ih =>
    intro j there same
    obtain ⟨first, later⟩ := List.forall_mem_cons.mp same
    cases j with
    | zero =>
      cases there
      rw [List.set_cons_zero, List.map_cons, List.map_cons, List.sum_cons, List.sum_cons]
      exact Nat.add_lt_add_of_lt_of_le less (List.sum_le_sum later)
    | succ j =>
      rw [List.set_cons_succ, List.map_cons, List.map_cons, List.sum_cons, List.sum_cons]
      exact Nat.add_lt_add_of_le_of_lt first (ih there later)

end Transition
