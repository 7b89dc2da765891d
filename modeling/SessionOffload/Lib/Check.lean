import Mathlib.Logic.Basic

/-! Checks as chains of tests. A check passes with a value or raises; what it accepts is a
conjunction over its tests, and what it raises is raised by one of them. -/
namespace Check

variable {ε : Type*} {α : Type}

theorem then_ok {first : Except ε Unit} {later : Except ε α} {a : α} :
    (first >>= fun _ => later) = .ok a ↔ first = .ok () ∧ later = .ok a := by
  cases first with
  | error e => exact iff_of_false (fun raised => by cases raised) (fun both => by cases both.1)
  | ok u => exact (and_iff_right rfl).symm

theorem test_ok {p : Prop} [Decidable p] {e : ε} {later : Except ε α} {a : α} :
    (if p then .error e else later) = .ok a ↔ ¬ p ∧ later = .ok a := by
  split
  · next bad => exact iff_of_false (fun raised => by cases raised) (fun both => both.1 bad)
  · next good => exact (and_iff_right good).symm

/-- Two steps in a row answer where both do, if what the second one takes is not decided by
the value of the first. -/
theorem answers_then {β : Type} {first : Except ε α} {later : α → Except ε β} {p q : Prop}
    (here : (∃ a, first = .ok a) ↔ p) (rest : ∀ a, (∃ b, later a = .ok b) ↔ q) :
    (∃ b, (first >>= later) = .ok b) ↔ p ∧ q := by
  rw [← here]
  cases first with
  | error e => exact iff_of_false (fun ⟨b, run⟩ => by cases run) (fun ⟨⟨a, run⟩, _⟩ => by cases run)
  | ok a => exact (rest a).trans (and_iff_right ⟨a, rfl⟩).symm

structure RaisesOnly (kind : ε → Prop) (check : Except ε α) : Prop where
  known : ∀ e, check = .error e → kind e

variable {kind : ε → Prop}

theorem raisesOnly_ok (a : α) : RaisesOnly kind (.ok a : Except ε α) :=
  ⟨fun _ raised => by cases raised⟩

theorem raisesOnly_error {e : ε} (known : kind e) : RaisesOnly kind (.error e : Except ε α) := by
  constructor
  intro e' raised
  cases raised
  exact known

theorem raisesOnly_then {first : Except ε Unit} {later : Except ε α}
    (here : RaisesOnly kind first) (rest : RaisesOnly kind later) :
    RaisesOnly kind (first >>= fun _ => later) := by
  cases first with
  | error e => exact raisesOnly_error (here.known e rfl)
  | ok u => exact rest

theorem raisesOnly_test {p : Prop} [Decidable p] {e : ε} {later : Except ε α} (known : kind e)
    (rest : RaisesOnly kind later) : RaisesOnly kind (if p then .error e else later) := by
  split
  · exact raisesOnly_error known
  · exact rest

theorem ok_or_raises {check : Except ε α} (only : RaisesOnly kind check) :
    (∃ a, check = .ok a) ∨ ∃ e, check = .error e ∧ kind e := by
  cases check with
  | error e => exact .inr ⟨e, rfl, only.known e rfl⟩
  | ok a => exact .inl ⟨a, rfl⟩

end Check
