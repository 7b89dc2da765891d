import Mathlib.Data.List.Basic

/-! Handing a list on in chunks: items are held back until there are enough of them, and what
is held at the end goes out as it is. -/
namespace Chunks

variable {α : Type*}

def flush (size : Nat) : List α → List α → List (List α)
  | _, [] => []
  | held, a :: rest =>
    if (held ++ [a]).length = size ∨ rest = [] then (held ++ [a]) :: flush size [] rest
    else flush size (held ++ [a]) rest

theorem flush_ne_nil (size : Nat) (held : List α) (a : α) (rest : List α) :
    flush size held (a :: rest) ≠ [] := by
  induction rest generalizing held a with
  | nil => simp [flush]
  | cons b rest ih =>
    rw [flush]
    split
    · exact List.cons_ne_nil _ _
    · exact ih (held ++ [a]) b

theorem flush_flatten (size : Nat) (held : List α) (a : α) (rest : List α) :
    (flush size held (a :: rest)).flatten = held ++ a :: rest := by
  induction rest generalizing held a with
  | nil => simp [flush]
  | cons b rest ih =>
    rw [flush]
    split
    · rw [List.flatten_cons, ih, List.nil_append, List.append_assoc]
      rfl
    · rw [ih, List.append_assoc]
      rfl

theorem flush_nil_flatten (size : Nat) (l : List α) : (flush size [] l).flatten = l := by
  cases l with
  | nil => rfl
  | cons a rest => exact flush_flatten size [] a rest

theorem flush_items {size : Nat} {held l : List α} {chunk : List α}
    (member : chunk ∈ flush size held l) : chunk ≠ [] := by
  induction l generalizing held with
  | nil => cases member
  | cons a rest ih =>
    rw [flush] at member
    split at member
    · rcases List.mem_cons.mp member with rfl | later
      · exact List.append_ne_nil_of_right_ne_nil held (List.cons_ne_nil a [])
      · exact ih later
    · exact ih member

/-- Only the last chunk goes out because there is nothing more. -/
theorem flush_full {size : Nat} (held : List α) {l : List α} {chunk : List α}
    (member : chunk ∈ (flush size held l).dropLast) : chunk.length = size := by
  induction l generalizing held with
  | nil => cases member
  | cons a rest ih =>
    rw [flush] at member
    split at member
    · next out =>
      cases rest with
      | nil => cases member
      | cons b rest =>
        rw [List.dropLast_cons_of_ne_nil (flush_ne_nil size [] b rest)] at member
        rcases List.mem_cons.mp member with rfl | later
        · exact out.resolve_right (List.cons_ne_nil b rest)
        · exact ih [] later
    · exact ih _ member

theorem flush_small {size : Nat} (held : List α) {l : List α} {chunk : List α}
    (few : held.length < size) (member : chunk ∈ flush size held l) : chunk.length ≤ size := by
  induction l generalizing held with
  | nil => cases member
  | cons a rest ih =>
    have more : (held ++ [a]).length = held.length + 1 := List.length_append
    rw [flush] at member
    split at member
    · rcases List.mem_cons.mp member with rfl | later
      · omega
      · exact ih [] (Nat.zero_lt_of_lt few) later
    · next going =>
      have unfilled := (not_or.mp going).1
      exact ih _ (by omega) member

theorem flush_zero (held : List α) (a : α) (rest : List α) :
    (flush 0 held (a :: rest)).length = 1 := by
  have some := flush_ne_nil 0 held a rest
  cases chunks : flush 0 held (a :: rest) with
  | nil => exact absurd chunks some
  | cons first later =>
    cases later with
    | nil => rfl
    | cons second later =>
      have here : first ∈ (flush 0 held (a :: rest)).dropLast := by
        rw [chunks]
        exact List.mem_cons_self
      have items := flush_items ((List.dropLast_subset _) here)
      exact absurd (List.eq_nil_of_length_eq_zero (flush_full held here)) items

end Chunks
