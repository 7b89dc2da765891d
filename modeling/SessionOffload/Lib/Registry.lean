import Mathlib.Data.List.Nodup
import SessionOffload.Lib.Transition

/-! A registry of distinct keys in order of arrival, and the history of arrivals and
departures of one key along a run. -/
namespace Registry
open Transition

variable {κ : Type*}

theorem nodup_snoc {l : List κ} {k : κ} (distinct : l.Nodup) (fresh : k ∉ l) :
    (l ++ [k]).Nodup :=
  List.nodup_middle.mpr (by simpa using ⟨fresh, distinct⟩)

structure Roll (κ : Type*) where
  keys : List κ
  distinct : keys.Nodup

def Roll.empty : Roll κ := ⟨[], List.nodup_nil⟩

def Roll.insert (r : Roll κ) (k : κ) (fresh : k ∉ r.keys) : Roll κ :=
  ⟨r.keys ++ [k], nodup_snoc r.distinct fresh⟩

@[simp] theorem Roll.insert_keys (r : Roll κ) (k : κ) (fresh : k ∉ r.keys) :
    (r.insert k fresh).keys = r.keys ++ [k] :=
  rfl

variable [DecidableEq κ]

def Roll.remove (r : Roll κ) (ks : List κ) : Roll κ :=
  ⟨r.keys.filter (fun k => k ∉ ks), r.distinct.filter _⟩

@[simp] theorem Roll.remove_keys (r : Roll κ) (ks : List κ) :
    (r.remove ks).keys = r.keys.filter (fun k => k ∉ ks) :=
  rfl

inductive Event (κ : Type*) where
  | gain (k : κ)
  | lose (ks : List κ)
  | keep

/-- Only absent keys arrive, only present keys leave, and none leaves twice at once. -/
inductive Step : Roll κ → Event κ → Roll κ → Prop where
  | gain (r : Roll κ) (k : κ) (fresh : k ∉ r.keys) : Step r (.gain k) (r.insert k fresh)
  | lose (r : Roll κ) (ks : List κ) (once : ks.Nodup) (known : ∀ k ∈ ks, k ∈ r.keys) :
      Step r (.lose ks) (r.remove ks)
  | keep (r : Roll κ) : Step r .keep r

def Event.of (k : κ) : Event κ → List Bool
  | .gain j => if j = k then [true] else []
  | .lose ks => List.replicate (ks.count k) false
  | .keep => []

def history (k : κ) (es : List (Event κ)) : List Bool := es.flatMap (Event.of k)

def Alternates : Bool → List Bool → Prop
  | _, [] => True
  | present, e :: es => e = !present ∧ Alternates e es

theorem getLastD_append (xs ys : List Bool) (present : Bool) :
    (xs ++ ys).getLastD present = ys.getLastD (xs.getLastD present) := by
  induction xs generalizing present with
  | nil => rfl
  | cons x xs ih => simp only [List.cons_append, List.getLastD_cons, ih]

theorem alternates_append (present : Bool) (xs ys : List Bool) :
    Alternates present (xs ++ ys) ↔
      Alternates present xs ∧ Alternates (xs.getLastD present) ys := by
  induction xs generalizing present with
  | nil => simp [Alternates]
  | cons x xs ih =>
    simp only [List.cons_append, Alternates, ih x, List.getLastD_cons, and_assoc]

theorem step_alternates {r t : Roll κ} {e : Event κ} (step : Step r e t) (k : κ) :
    Alternates (decide (k ∈ r.keys)) (e.of k) ∧
      (e.of k).getLastD (decide (k ∈ r.keys)) = decide (k ∈ t.keys) := by
  cases step with
  | gain j fresh =>
    by_cases same : j = k
    · subst same
      simp [Event.of, Alternates, fresh]
    · have other : ¬ k = j := fun h => same h.symm
      simp [Event.of, Alternates, same, other]
  | lose ks once known =>
    by_cases gone : k ∈ ks
    · have one : ks.count k = 1 := List.count_eq_one_of_mem once gone
      simp [Event.of, Alternates, one, gone, known k gone]
    · have zero : ks.count k = 0 := List.count_eq_zero_of_not_mem gone
      simp [Event.of, Alternates, zero, gone]
  | keep => simp [Event.of, Alternates]

theorem path_alternates {r t : Roll κ} {es : List (Event κ)} (path : Path Step r es t) (k : κ) :
    Alternates (decide (k ∈ r.keys)) (history k es) ∧
      (history k es).getLastD (decide (k ∈ r.keys)) = decide (k ∈ t.keys) := by
  induction path with
  | nil => simp [history, Alternates]
  | @cons r s t e es step _ ih =>
    have head := step_alternates step k
    have split : history k (e :: es) = e.of k ++ history k es := by simp [history]
    rw [split, alternates_append, getLastD_append, head.2]
    exact ⟨⟨head.1, ih.1⟩, ih.2⟩

/-- From the empty roll: turns are taken starting with an arrival, and a key is
present exactly when its last event was an arrival. -/
theorem history_from_empty {t : Roll κ} {es : List (Event κ)} (path : Path Step .empty es t)
    (k : κ) : Alternates false (history k es) ∧
      ((history k es).getLast? = some true ↔ k ∈ t.keys) := by
  have h := path_alternates path k
  have start : decide (k ∈ (Roll.empty : Roll κ).keys) = false := by simp [Roll.empty]
  rw [start] at h
  refine ⟨h.1, ?_⟩
  rw [← @decide_eq_true_iff (k ∈ t.keys), ← h.2, List.getLastD_eq_getLast?]
  cases (history k es).getLast? <;> simp

end Registry
