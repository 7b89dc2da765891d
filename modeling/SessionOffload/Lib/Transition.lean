import Mathlib.Data.List.Basic

/-! Labelled runs of a step relation. Nothing here is about a particular system:
a client supplies the states, the labels and the relation. -/
namespace Transition

variable {S T L M : Type*}

inductive Path (R : S → L → S → Prop) : S → List L → S → Prop where
  | nil (s : S) : Path R s [] s
  | cons {s t u : S} {l : L} {ls : List L} : R s l t → Path R t ls u → Path R s (l :: ls) u

def restrict (R : S → L → S → Prop) (G : S → L → S → Prop) (s : S) (l : L) (t : S) : Prop :=
  R s l t ∧ G s l t

/-- The graph of a partial step function whose label is a request with its answer. -/
def serves {A O : Type*} (f : S → A → Option (S × O)) (s : S) (l : A × O) (t : S) : Prop :=
  f s l.1 = some (t, l.2)

theorem Path.single {R : S → L → S → Prop} {s t : S} {l : L} (step : R s l t) :
    Path R s [l] t :=
  .cons step (.nil t)

theorem Path.append {R : S → L → S → Prop} {s t u : S} {ls ms : List L}
    (first : Path R s ls t) (second : Path R t ms u) : Path R s (ls ++ ms) u := by
  induction first with
  | nil => exact second
  | cons step _ ih => exact .cons step (ih second)

theorem Path.split {R : S → L → S → Prop} {s u : S} (ls ms : List L)
    (path : Path R s (ls ++ ms) u) : ∃ t, Path R s ls t ∧ Path R t ms u := by
  induction ls generalizing s with
  | nil => exact ⟨s, .nil s, path⟩
  | cons l ls ih =>
    cases path with
    | cons step rest =>
      obtain ⟨t, left, right⟩ := ih rest
      exact ⟨t, .cons step left, right⟩

theorem Path.last {R : S → L → S → Prop} {s u : S} {ls : List L} {l : L}
    (path : Path R s ls u) (last : ls.getLast? = some l) :
    ∃ t, Path R s ls.dropLast t ∧ R t l u := by
  rw [← List.dropLast_append_getLast? l last] at path
  obtain ⟨t, before, final⟩ := path.split
  cases final with
  | cons step rest =>
    cases rest
    exact ⟨t, before, step⟩

theorem Path.invariant {R : S → L → S → Prop} (Inv : S → Prop)
    (keeps : ∀ s l t, Inv s → R s l t → Inv t) {s t : S} {ls : List L}
    (path : Path R s ls t) (start : Inv s) : Inv t := by
  induction path with
  | nil => exact start
  | cons step _ ih => exact ih (keeps _ _ _ start step)

theorem Path.invariant_labels {R : S → L → S → Prop} (Inv : S → Prop) (Q : L → Prop)
    (keeps : ∀ s l t, Inv s → R s l t → Inv t ∧ Q l) {s t : S} {ls : List L}
    (path : Path R s ls t) (start : Inv s) : Inv t ∧ ∀ l ∈ ls, Q l := by
  induction path with
  | nil => exact ⟨start, fun _ member => absurd member List.not_mem_nil⟩
  | cons step _ ih =>
    obtain ⟨kept, first⟩ := keeps _ _ _ start step
    obtain ⟨last, later⟩ := ih kept
    exact ⟨last, List.forall_mem_cons.mpr ⟨first, later⟩⟩

theorem Path.mono {R Q : S → L → S → Prop} (weaker : ∀ s l t, R s l t → Q s l t)
    {s t : S} {ls : List L} (path : Path R s ls t) : Path Q s ls t := by
  induction path with
  | nil => exact .nil _
  | cons step _ ih => exact .cons (weaker _ _ _ step) ih

theorem Path.unrestrict {R G : S → L → S → Prop} {s t : S} {ls : List L}
    (path : Path (restrict R G) s ls t) : Path R s ls t :=
  path.mono (fun _ _ _ h => h.1)

theorem Path.of_foldlM {R : S → L → S → Prop} {f : S → L → Option S}
    (sound : ∀ s l t, f s l = some t → R s l t) {ls : List L} {s t : S}
    (run : ls.foldlM f s = some t) : Path R s ls t := by
  induction ls generalizing s with
  | nil =>
    cases run
    exact .nil _
  | cons l ls ih =>
    rw [List.foldlM_cons, Option.bind_eq_bind, Option.bind_eq_some_iff] at run
    obtain ⟨u, step, rest⟩ := run
    exact .cons (sound _ _ _ step) (ih rest)

theorem Path.restricted {R G : S → L → S → Prop} {s t : S} {ls : List L} (path : Path R s ls t)
    (meets : ∀ l ∈ ls, ∀ s t, G s l t) : Path (restrict R G) s ls t := by
  induction path with
  | nil => exact .nil _
  | cons step _ ih =>
    obtain ⟨first, later⟩ := List.forall_mem_cons.mp meets
    exact .cons ⟨step, first _ _⟩ (ih later)

/-- Two conditions that agree on every step from a state of the invariant, one of
which keeps the invariant, select the same runs. -/
theorem Path.restrict_iff {R G K : S → L → S → Prop} (Inv : S → Prop)
    (agree : ∀ s l t, Inv s → R s l t → (G s l t ↔ K s l t))
    (keeps : ∀ s l t, Inv s → R s l t → K s l t → Inv t)
    {s t : S} {ls : List L} (start : Inv s) :
    Path (restrict R G) s ls t ↔ Path (restrict R K) s ls t := by
  constructor
  · intro path
    induction path with
    | nil => exact .nil _
    | cons step _ ih =>
      have same := (agree _ _ _ start step.1).mp step.2
      exact .cons ⟨step.1, same⟩ (ih (keeps _ _ _ start step.1 same))
  · intro path
    induction path with
    | nil => exact .nil _
    | cons step _ ih =>
      have same := (agree _ _ _ start step.1).mpr step.2
      exact .cons ⟨step.1, same⟩ (ih (keeps _ _ _ start step.1 step.2))

theorem Path.simulate {R : S → L → S → Prop} {Q : T → M → T → Prop} (label : L → M)
    (Rel : S → T → Prop)
    (matched : ∀ s l s' t, Rel s t → R s l s' → ∃ t', Q t (label l) t' ∧ Rel s' t')
    {s s' : S} {ls : List L} (path : Path R s ls s') (t : T) (start : Rel s t) :
    ∃ t', Path Q t (ls.map label) t' ∧ Rel s' t' := by
  induction path generalizing t with
  | nil => exact ⟨t, .nil _, start⟩
  | cons step _ ih =>
    obtain ⟨t', step', related⟩ := matched _ _ _ t start step
    obtain ⟨u, path', last⟩ := ih t' related
    exact ⟨u, .cons step' path', last⟩

end Transition
