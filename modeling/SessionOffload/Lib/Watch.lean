import Mathlib.Order.Basic
import SessionOffload.Lib.Transition

/-! What a run says of one part of the system while that part is there. Nothing here is
about a particular system: a client supplies when the part is there, and which messages of
a step are about it. -/
namespace Transition

variable {S L M : Type*}

inductive Stay (R : S → L → S → Prop) (here : S → Prop) (tell : S → L → List M) :
    S → List M → S → Prop where
  | nil (s : S) : Stay R here tell s [] s
  | cons {s t u : S} {l : L} {ms : List M} (step : R s l t) (there : here t)
      (later : Stay R here tell t ms u) : Stay R here tell s (tell s l ++ ms) u

inductive Watch (R : S → L → S → Prop) (here : S → Prop) (tell : S → L → List M) (s : S) :
    List M → Option (S × L) → Prop where
  | stays {ms : List M} {u : S} (stay : Stay R here tell s ms u) : Watch R here tell s ms none
  | goes {ms : List M} {u v : S} {l : L} (stay : Stay R here tell s ms u) (step : R u l v)
      (gone : ¬ here v) : Watch R here tell s (ms ++ tell u l) (some (u, l))

/-- A level of the part that never falls while it is there, and that its messages state. -/
structure Meter (R : S → L → S → Prop) (here : S → Prop) (tell : S → L → List M)
    (α : Type*) [Preorder α] where
  Inv : S → Prop
  level : S → α
  stated : M → α
  keeps : ∀ {s l t}, Inv s → R s l t → Inv t
  rises : ∀ {s l t}, Inv s → here s → R s l t → here t → level s ≤ level t
  states : ∀ {s l t}, Inv s → here s → R s l t → here t →
    ∀ {m}, m ∈ tell s l → stated m = level s

variable {R : S → L → S → Prop} {here : S → Prop} {tell : S → L → List M}
  {α : Type*} [Preorder α]

theorem Stay.append {s t u : S} {ms ns : List M} (first : Stay R here tell s ms t)
    (second : Stay R here tell t ns u) : Stay R here tell s (ms ++ ns) u := by
  induction first with
  | nil => exact second
  | cons step there _ ih =>
    rw [List.append_assoc]
    exact .cons step there (ih second)

theorem Stay.metered (meter : Meter R here tell α) {s u : S} {ms : List M}
    (stay : Stay R here tell s ms u) (inv : meter.Inv s) (present : here s) :
    (meter.Inv u ∧ here u ∧ meter.level s ≤ meter.level u) ∧
      (ms.map meter.stated).Pairwise (· ≤ ·) ∧
      ∀ m ∈ ms, meter.level s ≤ meter.stated m ∧ meter.stated m ≤ meter.level u := by
  induction stay with
  | nil s => exact ⟨⟨inv, present, le_rfl⟩, .nil, fun _ member => absurd member List.not_mem_nil⟩
  | @cons s t u l ms step there _ ih =>
    obtain ⟨⟨last, stands, rest⟩, sorted, between⟩ := ih (meter.keeps inv step) there
    have rise := meter.rises inv present step there
    have first : ∀ m ∈ tell s l, meter.stated m = meter.level s :=
      fun m member => meter.states inv present step there member
    refine ⟨⟨last, stands, rise.trans rest⟩, ?_, ?_⟩
    · rw [List.map_append, List.pairwise_append]
      refine ⟨?_, sorted, ?_⟩
      · rw [List.pairwise_map]
        exact List.pairwise_of_forall_mem_list fun a left b right =>
          (first a left).le.trans (first b right).ge
      · intro a left b right
        obtain ⟨m, now, rfl⟩ := List.mem_map.mp left
        obtain ⟨n, after, rfl⟩ := List.mem_map.mp right
        exact (first m now).le.trans (rise.trans (between n after).1)
    · intro m member
      rcases List.mem_append.mp member with now | after
      · exact ⟨(first m now).ge, (first m now).le.trans (rise.trans rest)⟩
      · exact ⟨rise.trans (between m after).1, (between m after).2⟩

end Transition
