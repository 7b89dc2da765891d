import Mathlib.Data.List.Pairwise
import Mathlib.Data.List.Sublists

/-! One pass over a list that takes an item unless one taken before covers it, and that can
fail at an item it takes. What is taken is a matter of the list alone, so a program that
makes such a pass is related to it step by step. -/
namespace Sweep

variable {α β σ ε : Type*}

def sweep (covers : β → β → Bool) : List β → List β → List β
  | _, [] => []
  | taken, x :: rest =>
    if taken.any (covers · x) then sweep covers taken rest
    else x :: sweep covers (taken ++ [x]) rest

def firstFault (fault : List β → β → Option ε) : List β → List β → Option ε
  | _, [] => none
  | done, x :: rest =>
    match fault done x with
    | some e => some e
    | none => firstFault fault (done ++ [x]) rest

def run (step : α → σ → Except ε σ) : List α → σ → Except ε σ
  | [], s => .ok s
  | a :: rest, s => step a s >>= run step rest

/-- The result is the failure, or without one a value of which something holds. -/
def Ends (failure : Option ε) (result : Except ε σ) (Done : σ → Prop) : Prop :=
  match failure with
  | some e => result = .error e
  | none => ∃ t, result = .ok t ∧ Done t

theorem Ends.failed {failure : Option ε} {result : Except ε σ} {Done : σ → Prop}
    (ends : Ends failure result Done) {e : ε} (some_e : failure = some e) : result = .error e := by
  cases some_e
  exact ends

theorem Ends.done {failure : Option ε} {result : Except ε σ} {Done : σ → Prop}
    (ends : Ends failure result Done) (no_failure : failure = none) :
    ∃ t, result = .ok t ∧ Done t := by
  cases no_failure
  exact ends

theorem Ends.imp {failure : Option ε} {result : Except ε σ} {Done Also : σ → Prop}
    (ends : Ends failure result Done) (weaker : ∀ t, Done t → Also t) :
    Ends failure result Also := by
  cases failure with
  | some e => exact ends
  | none =>
    obtain ⟨t, done, holds⟩ := ends
    exact ⟨t, done, weaker t holds⟩

section Faults
variable {fault : List β → β → Option ε}

theorem firstFault_none_iff (done l : List β) :
    firstFault fault done l = none ↔
      ∀ pre x post, l = pre ++ x :: post → fault (done ++ pre) x = none := by
  induction l generalizing done with
  | nil => exact iff_of_true rfl (fun pre x post split => by simp at split)
  | cons y rest ih =>
    rw [firstFault]
    cases here : fault done y with
    | some e =>
      refine iff_of_false (fun impossible => by cases impossible) (fun all => ?_)
      have first := all [] y rest rfl
      rw [List.append_nil, here] at first
      cases first
    | none =>
      rw [ih]
      constructor
      · intro later pre x post split
        cases pre with
        | nil =>
          obtain ⟨rfl, _⟩ := List.cons.inj split
          rw [List.append_nil]
          exact here
        | cons z pre =>
          obtain ⟨rfl, after⟩ := List.cons.inj split
          have fine := later pre x post after
          rwa [List.append_assoc] at fine
      · intro all pre x post split
        have fine := all (y :: pre) x post (split ▸ rfl)
        rwa [List.append_assoc]

theorem firstFault_some {done l : List β} {e : ε} (found : firstFault fault done l = some e) :
    ∃ pre x post, l = pre ++ x :: post ∧ fault (done ++ pre) x = some e ∧
      firstFault fault done pre = none := by
  induction l generalizing done with
  | nil => cases found
  | cons y rest ih =>
    rw [firstFault] at found
    cases here : fault done y with
    | some e' =>
      rw [here] at found
      refine ⟨[], y, rest, rfl, ?_, rfl⟩
      rw [List.append_nil, here]
      exact found
    | none =>
      rw [here] at found
      obtain ⟨pre, x, post, rfl, there, before⟩ := ih found
      refine ⟨y :: pre, x, post, rfl, ?_, ?_⟩
      · rw [List.append_assoc] at there
        exact there
      · rw [firstFault, here]
        exact before

end Faults

theorem pairwise_of_splits {R : β → β → Prop} {l : List β}
    (each : ∀ pre x post, l = pre ++ x :: post → ∀ y ∈ pre, R y x) : l.Pairwise R := by
  induction l using List.reverseRecOn with
  | nil => exact .nil
  | append_singleton l a ih =>
    refine List.pairwise_append.mpr ⟨ih fun pre x post split => ?_, List.pairwise_singleton R a,
      fun y member x last => ?_⟩
    · exact each pre x (post ++ [a]) (by rw [split, List.append_assoc, List.cons_append])
    · exact List.mem_singleton.mp last ▸ each l a [] rfl y member

section Taken
variable {covers : β → β → Bool}

theorem sweep_sublist (taken l : List β) : (sweep covers taken l).Sublist l := by
  induction l generalizing taken with
  | nil => exact .slnil
  | cons x rest ih =>
    rw [sweep]
    split
    · exact (ih taken).cons x
    · exact (ih (taken ++ [x])).cons_cons x

theorem sweep_uncovered (taken l : List β) :
    (∀ y ∈ taken, ∀ x ∈ sweep covers taken l, covers y x = false) ∧
      (sweep covers taken l).Pairwise fun y x => covers y x = false := by
  induction l generalizing taken with
  | nil => exact ⟨fun _ _ _ member => absurd member List.not_mem_nil, List.Pairwise.nil⟩
  | cons x rest ih =>
    rw [sweep]
    split
    · exact ih taken
    · next free =>
      obtain ⟨later, pairwise⟩ := ih (taken ++ [x])
      have here : ∀ y ∈ taken, covers y x = false := by
        simpa using free
      refine ⟨fun y member z taken' => ?_, List.pairwise_cons.mpr ⟨fun z => ?_, pairwise⟩⟩
      · rcases List.mem_cons.mp taken' with rfl | after
        · exact here y member
        · exact later y (List.mem_append_left _ member) z after
      · exact later x (List.mem_append_right _ (List.mem_singleton_self x)) z

variable {P : β → Prop}

theorem sweep_takes (taken l : List β)
    (outside : ∀ y ∈ taken, ∀ x ∈ l, covers y x = true → ¬ P x)
    (inside : l.Pairwise fun y x => covers y x = true → ¬ P x) :
    ∀ x ∈ l, P x → x ∈ sweep covers taken l := by
  induction l generalizing taken with
  | nil => exact fun _ member => by cases member
  | cons a rest ih =>
    obtain ⟨first, others⟩ := List.pairwise_cons.mp inside
    intro x member kind
    rw [sweep]
    split
    · next covered =>
      obtain ⟨y, before, covers_a⟩ := List.any_eq_true.mp covered
      rcases List.mem_cons.mp member with rfl | later
      · exact absurd kind (outside y before x List.mem_cons_self covers_a)
      · exact ih taken (fun z before x later => outside z before x (List.mem_cons_of_mem a later))
          others x later kind
    · rcases List.mem_cons.mp member with rfl | later
      · exact List.mem_cons_self
      · refine List.mem_cons_of_mem a (ih (taken ++ [a]) (fun z before x later => ?_) others x
          later kind)
        rcases List.mem_append.mp before with old | new
        · exact outside z old x (List.mem_cons_of_mem a later)
        · rw [List.mem_singleton.mp new]
          exact first x later

theorem sweep_filter [DecidablePred P] (taken l : List β) (distinct : l.Nodup)
    (all : ∀ x ∈ l, P x → x ∈ sweep covers taken l) :
    (sweep covers taken l).filter (fun x => P x) = l.filter (fun x => P x) := by
  induction l generalizing taken with
  | nil => rfl
  | cons a rest ih =>
    obtain ⟨fresh, distinct⟩ := List.nodup_cons.mp distinct
    rw [sweep] at all ⊢
    split
    · next covered =>
      simp only [if_pos covered] at all
      have other : ¬ P a := fun kind =>
        fresh ((sweep_sublist taken rest).subset (all a List.mem_cons_self kind))
      rw [List.filter_cons_of_neg (by simpa using other)]
      exact ih taken distinct fun x later => all x (List.mem_cons_of_mem a later)
    · next free =>
      simp only [if_neg free] at all
      have rest_same := ih (taken ++ [a]) distinct fun x later kind => by
        rcases List.mem_cons.mp (all x (List.mem_cons_of_mem a later) kind) with rfl | there
        · exact absurd later fresh
        · exact there
      rw [List.filter_cons, List.filter_cons, rest_same]

theorem sweep_forward (taken l : List β) (distinct : l.Nodup)
    (all : ∀ x ∈ l, P x → x ∈ sweep covers taken l) :
    (∀ y ∈ taken, ∀ x ∈ l, P x → covers y x = false) ∧
      l.Pairwise fun y x => P y → P x → covers y x = false := by
  induction l generalizing taken with
  | nil => exact ⟨fun _ _ _ member => absurd member List.not_mem_nil, List.Pairwise.nil⟩
  | cons a rest ih =>
    obtain ⟨fresh, distinct⟩ := List.nodup_cons.mp distinct
    rw [sweep] at all
    split at all
    · have other : ¬ P a := fun kind =>
        fresh ((sweep_sublist taken rest).subset (all a List.mem_cons_self kind))
      obtain ⟨outside, inside⟩ :=
        ih taken distinct fun x later => all x (List.mem_cons_of_mem a later)
      refine ⟨fun y before x member kind => ?_,
        List.pairwise_cons.mpr ⟨fun x _ kind => absurd kind other, inside⟩⟩
      rcases List.mem_cons.mp member with rfl | later
      · exact absurd kind other
      · exact outside y before x later kind
    · next free =>
      obtain ⟨outside, inside⟩ := ih (taken ++ [a]) distinct fun x later kind => by
        rcases List.mem_cons.mp (all x (List.mem_cons_of_mem a later) kind) with rfl | there
        · exact absurd later fresh
        · exact there
      have here : ∀ y ∈ taken, covers y a = false := by
        simpa using free
      refine ⟨fun y before x member kind => ?_,
        List.pairwise_cons.mpr ⟨fun x later _ kind => ?_, inside⟩⟩
      · rcases List.mem_cons.mp member with rfl | later
        · exact here y before
        · exact outside y (List.mem_append_left _ before) x later kind
      · exact outside a (List.mem_append_right _ (List.mem_singleton_self a)) x later kind

theorem sweep_complete (taken l : List β) {x : β} (member : x ∈ l)
    (left : x ∉ sweep covers taken l) :
    ∃ y, (y ∈ taken ∨ y ∈ sweep covers taken l) ∧ covers y x = true := by
  induction l generalizing taken with
  | nil => cases member
  | cons a rest ih =>
    rw [sweep] at left ⊢
    split
    · next covered =>
      simp only [if_pos covered] at left
      rcases List.mem_cons.mp member with rfl | later
      · obtain ⟨y, before, here⟩ := List.any_eq_true.mp covered
        exact ⟨y, .inl before, here⟩
      · exact ih taken later left
    · next free =>
      simp only [if_neg free, List.mem_cons, not_or] at left
      have later := (List.mem_cons.mp member).resolve_left left.1
      obtain ⟨y, before | after, here⟩ := ih (taken ++ [a]) later left.2
      · rcases List.mem_append.mp before with old | new
        · exact ⟨y, .inl old, here⟩
        · exact ⟨y, .inr (List.mem_cons.mpr (.inl (List.mem_singleton.mp new))), here⟩
      · exact ⟨y, .inr (List.mem_cons_of_mem a after), here⟩

end Taken

/-- A pass whose state tracks what has been taken: it passes over what is covered, fails
where the sweep does, and tracks what is taken otherwise. `R` is what is known of the order
of the list. -/
theorem run_sweep {covers : β → β → Bool} {step : α → σ → Except ε σ} (view : α → β)
    (fault : List β → β → Option ε) (R : β → β → Prop) (Tracks : List β → σ → Prop)
    (covered : ∀ taken s a, Tracks taken s → taken.any (covers · (view a)) = true →
      step a s = .ok s)
    (takes : ∀ taken s a, Tracks taken s → (∀ y ∈ taken, R y (view a)) →
      (∀ y ∈ taken, covers y (view a) = false) →
      Ends (fault taken (view a)) (step a s) (Tracks (taken ++ [view a])))
    (l : List α) (taken : List β) (s : σ) (start : Tracks taken s)
    (before : ∀ y ∈ taken, ∀ a ∈ l, R y (view a)) (ordered : (l.map view).Pairwise R) :
    Ends (firstFault fault taken (sweep covers taken (l.map view))) (run step l s)
      (Tracks (taken ++ sweep covers taken (l.map view))) := by
  induction l generalizing taken s with
  | nil => exact ⟨s, rfl, (List.append_nil taken).symm ▸ start⟩
  | cons a rest ih =>
    obtain ⟨first, ordered⟩ := List.pairwise_cons.mp ordered
    rw [List.map_cons, sweep, run]
    by_cases passed : taken.any (covers · (view a)) = true
    · rw [if_pos passed, covered taken s a start passed]
      exact ih taken s start (fun y old b later => before y old b (List.mem_cons_of_mem a later))
        ordered
    · rw [if_neg passed]
      have uncovered : ∀ y ∈ taken, covers y (view a) = false := by
        simpa using passed
      have here := takes taken s a start (fun y old => before y old a List.mem_cons_self) uncovered
      rw [firstFault]
      cases failure : fault taken (view a) with
      | some e =>
        rw [here.failed failure]
        rfl
      | none =>
        obtain ⟨t, turn, tracked⟩ := here.done failure
        have later := ih (taken ++ [view a]) t tracked (fun y old b member => by
          rcases List.mem_append.mp old with old | new
          · exact before y old b (List.mem_cons_of_mem a member)
          · rw [List.mem_singleton.mp new]
            exact first (view b) (List.mem_map_of_mem member)) ordered
        rw [List.append_assoc] at later
        rw [turn]
        exact later

end Sweep
