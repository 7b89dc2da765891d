import Mathlib.Data.List.Nodup
import Mathlib.Logic.Function.Basic

/-! Doubly linked lists threaded through cells that hold more than their two pointers. A
cell may be in several such lists, with a pair of pointers for each. Following a pointer
to a block without a cell has no result. -/
namespace Intrusive

universe u v
variable {α C : Type u} {R : Type v}

/-- Where a cell keeps the two pointers of one list, and what else there is in it. -/
structure Field (α C : Type u) (R : Type v) where
  next : C → Option α
  prev : C → Option α
  rest : C → R
  setNext : Option α → C → C
  setPrev : Option α → C → C
  next_setNext : ∀ v c, next (setNext v c) = v
  prev_setNext : ∀ v c, prev (setNext v c) = prev c
  rest_setNext : ∀ v c, rest (setNext v c) = rest c
  next_setPrev : ∀ v c, next (setPrev v c) = next c
  prev_setPrev : ∀ v c, prev (setPrev v c) = v
  rest_setPrev : ∀ v c, rest (setPrev v c) = rest c

attribute [simp] Field.next_setNext Field.prev_setNext Field.rest_setNext
  Field.next_setPrev Field.prev_setPrev Field.rest_setPrev

abbrev Heap (α C : Type u) := α → Option C

section Lists

variable (F : Field α C R)

/-- The cells at `l`, in this order, between the cell `before` and the cell `behind`. -/
def Linked (m : Heap α C) : Option α → List α → Option α → Prop
  | _, [], _ => True
  | before, a :: l, behind =>
    (∃ c, m a = some c ∧ F.prev c = before ∧ F.next c = l.head?.or behind) ∧
      Linked m (some a) l behind

variable {F}

theorem last_or (a : α) (l : List α) (o : Option α) :
    (a :: l).getLast?.or o = l.getLast?.or (some a) := by
  rw [List.getLast?_cons]
  cases l.getLast? <;> rfl

theorem linked_append {m : Heap α C} {before behind : Option α} {l₁ l₂ : List α} :
    Linked F m before (l₁ ++ l₂) behind ↔
      Linked F m before l₁ (l₂.head?.or behind) ∧ Linked F m (l₁.getLast?.or before) l₂ behind := by
  induction l₁ generalizing before with
  | nil => simp [Linked]
  | cons a l₁ ih =>
    simp only [List.cons_append, Linked, ih, last_or, List.head?_append, Option.or_assoc]
    exact and_assoc.symm

theorem Linked.transport {m m' : Heap α C} {before behind : Option α} {l : List α}
    (linked : Linked F m before l behind)
    (same : ∀ a ∈ l, ∀ c, m a = some c →
      ∃ c', m' a = some c' ∧ F.prev c' = F.prev c ∧ F.next c' = F.next c) :
    Linked F m' before l behind := by
  induction l generalizing before with
  | nil => trivial
  | cons a l ih =>
    obtain ⟨⟨c, here, back, forth⟩, rest⟩ := linked
    obtain ⟨c', there, back', forth'⟩ := same a List.mem_cons_self c here
    refine ⟨⟨c', there, back'.trans back, forth'.trans forth⟩, ih rest ?_⟩
    exact fun b hb => same b (List.mem_cons_of_mem _ hb)

theorem Linked.untouched {m m' : Heap α C} {before behind : Option α} {l : List α}
    (linked : Linked F m before l behind) (same : ∀ a ∈ l, m' a = m a) :
    Linked F m' before l behind :=
  linked.transport fun a member c here => ⟨c, (same a member).trans here, rfl, rfl⟩

end Lists

section Frames

variable (F : Field α C R)

/-- Nothing but the pointers of one list differs, and that only in the cells of `l`. -/
structure Frame (m m' : Heap α C) (l : List α) : Prop where
  rest : ∀ b, (m' b).map F.rest = (m b).map F.rest
  outside : ∀ b, b ∉ l → m' b = m b

variable {F}

theorem Frame.refl (m : Heap α C) (l : List α) : Frame F m m l := ⟨fun _ => rfl, fun _ _ => rfl⟩

theorem Frame.trans {m m₁ m₂ : Heap α C} {l₁ l₂ l : List α} (first : Frame F m m₁ l₁)
    (second : Frame F m₁ m₂ l₂) (left : l₁ ⊆ l) (right : l₂ ⊆ l) : Frame F m m₂ l where
  rest b := (second.rest b).trans (first.rest b)
  outside b away :=
    (second.outside b (fun h => away (right h))).trans (first.outside b (fun h => away (left h)))

theorem Frame.live {m m' : Heap α C} {l : List α} (frame : Frame F m m' l) {a : α} {c : C}
    (live : m a = some c) : ∃ c', m' a = some c' ∧ F.rest c' = F.rest c := by
  have kept := frame.rest a
  rw [live, Option.map_some] at kept
  exact Option.map_eq_some_iff.mp kept

end Frames

section Writes

variable [DecidableEq α]

def Heap.write (m : Heap α C) (a : α) (f : C → C) : Option (Heap α C) :=
  (m a).map fun c => Function.update m a (some (f c))

def Heap.writeAt (m : Heap α C) (o : Option α) (f : C → C) : Option (Heap α C) :=
  match o with
  | none => some m
  | some a => m.write a f

theorem write_live {m : Heap α C} {a : α} {c : C} (live : m a = some c) (f : C → C) :
    m.write a f = some (Function.update m a (some (f c))) := by
  rw [Heap.write, live, Option.map_some]

variable (F : Field α C R)

def unlink (m : Heap α C) (a : α) : Option (Heap α C) := do
  let c ← m a
  let m ← m.writeAt (F.prev c) (F.setNext (F.next c))
  let c ← m a
  m.writeAt (F.next c) (F.setPrev (F.prev c))

def aim (m : Heap α C) (a : α) (next prev : Option α) : Option (Heap α C) := do
  let m ← m.write a (F.setNext next)
  m.write a (F.setPrev prev)

def pushFront (m : Heap α C) (a : α) (head : Option α) : Option (Heap α C) := do
  let m ← aim F m a head none
  m.writeAt head (F.setPrev (some a))

def pushBack (m : Heap α C) (a tail : α) : Option (Heap α C) := do
  let m ← aim F m a none (some tail)
  m.write tail (F.setNext (some a))

variable {F}

theorem frame_update {m : Heap α C} {a : α} {c c' : C} (live : m a = some c)
    (same : F.rest c' = F.rest c) : Frame F m (Function.update m a (some c')) [a] where
  rest b := by
    by_cases here : b = a
    · subst here
      rw [Function.update_self, live, Option.map_some, Option.map_some, same]
    · rw [Function.update_of_ne here]
  outside b away := Function.update_of_ne (fun here => away (List.mem_singleton.mpr here)) _ _

theorem retarget_end {m : Heap α C} {before behind : Option α} {l : List α}
    (linked : Linked F m before l behind) (distinct : l.Nodup) (v : Option α) :
    ∃ m', m.writeAt l.getLast? (F.setNext v) = some m' ∧ Linked F m' before l v ∧
      Frame F m m' l := by
  rcases List.eq_nil_or_concat l with rfl | ⟨l, a, rfl⟩
  · exact ⟨m, rfl, trivial, .refl m _⟩
  · rw [List.concat_eq_append] at linked distinct ⊢
    obtain ⟨first, ⟨c, live, back, _⟩, _⟩ := linked_append.mp linked
    have apart : ∀ b ∈ l, b ≠ a := fun b hb =>
      (List.nodup_append.mp distinct).2.2 b hb a (List.mem_singleton_self a)
    refine ⟨Function.update m a (some (F.setNext v c)), ?_, ?_, ?_⟩
    · rw [List.getLast?_concat]
      exact write_live live _
    · refine linked_append.mpr ⟨first.untouched fun b hb => ?_, ?_, trivial⟩
      · exact Function.update_of_ne (apart b hb) _ _
      · exact ⟨_, Function.update_self .., by rw [F.prev_setNext, back], F.next_setNext v c⟩
    · exact (frame_update live (F.rest_setNext v c)).trans (.refl _ []) (by simp) (by simp)

theorem retarget_front {m : Heap α C} {before behind : Option α} {l : List α}
    (linked : Linked F m before l behind) (distinct : l.Nodup) (v : Option α) :
    ∃ m', m.writeAt l.head? (F.setPrev v) = some m' ∧ Linked F m' v l behind ∧
      Frame F m m' l := by
  cases l with
  | nil => exact ⟨m, rfl, trivial, .refl m _⟩
  | cons a l =>
    obtain ⟨⟨c, live, _, forth⟩, after⟩ := linked
    refine ⟨Function.update m a (some (F.setPrev v c)), write_live live _, ⟨?_, ?_⟩, ?_⟩
    · exact ⟨_, Function.update_self .., F.prev_setPrev v c, by rw [F.next_setPrev, forth]⟩
    · refine after.untouched fun b hb => Function.update_of_ne ?_ _ _
      exact fun same => (List.nodup_cons.mp distinct).1 (same ▸ hb)
    · exact (frame_update live (F.rest_setPrev v c)).trans (.refl _ []) (by simp) (by simp)

theorem unlink_spec {m : Heap α C} {l₁ l₂ : List α} {a : α}
    (linked : Linked F m none (l₁ ++ a :: l₂) none) (distinct : (l₁ ++ a :: l₂).Nodup) :
    ∃ m', unlink F m a = some m' ∧ Linked F m' none (l₁ ++ l₂) none ∧
      Frame F m m' (l₁ ++ l₂) := by
  obtain ⟨first, ⟨c, live, back, forth⟩, second⟩ := linked_append.mp linked
  obtain ⟨nodup₁, nodup₂, apart⟩ := List.nodup_append.mp distinct
  rw [Option.or_none] at back forth
  obtain ⟨m₁, run₁, linked₁, frame₁⟩ := retarget_end first nodup₁ l₂.head?
  have live₁ : m₁ a = some c :=
    (frame₁.outside a (fun h => apart a h a List.mem_cons_self rfl)).trans live
  have second₁ : Linked F m₁ (some a) l₂ none := second.untouched fun b hb =>
    frame₁.outside b (fun h => apart b h b (List.mem_cons_of_mem _ hb) rfl)
  obtain ⟨m₂, run₂, linked₂, frame₂⟩ :=
    retarget_front second₁ (List.nodup_cons.mp nodup₂).2 l₁.getLast?
  refine ⟨m₂, ?_, linked_append.mpr ⟨?_, ?_⟩, ?_⟩
  · simp only [unlink, live, back, forth, run₁, live₁, run₂, Option.bind_eq_bind,
      Option.bind_some]
  · rw [Option.or_none]
    exact linked₁.untouched fun b hb =>
      frame₂.outside b (fun h => apart b hb b (List.mem_cons_of_mem _ h) rfl)
  · rw [Option.or_none]
    exact linked₂
  · exact frame₁.trans frame₂ (List.subset_append_left ..) (List.subset_append_right ..)

theorem aim_spec {m : Heap α C} {l : List α} {a : α} {c : C} (live : m a = some c)
    (linked : Linked F m none l none) (fresh : a ∉ l) (u v : Option α) :
    ∃ m', aim F m a u v = some m' ∧ m' a = some (F.setPrev v (F.setNext u c)) ∧
      Linked F m' none l none ∧ Frame F m m' [a] := by
  let m₁ := Function.update m a (some (F.setNext u c))
  have live₁ : m₁ a = some (F.setNext u c) := Function.update_self ..
  have frame := (frame_update live (F.rest_setNext u c)).trans
    (frame_update live₁ (F.rest_setPrev v _)) (List.Subset.refl _) (List.Subset.refl _)
  refine ⟨Function.update m₁ a (some (F.setPrev v (F.setNext u c))), ?_, ?_, ?_, frame⟩
  · simp only [aim, write_live live, Option.bind_eq_bind, Option.bind_some]
    exact write_live live₁ _
  · exact Function.update_self ..
  · exact linked.untouched fun b hb =>
      frame.outside b (fun h => fresh (List.mem_singleton.mp h ▸ hb))

theorem pushFront_spec {m : Heap α C} {l : List α} {a : α} {c : C} (live : m a = some c)
    (linked : Linked F m none l none) (distinct : (a :: l).Nodup) :
    ∃ m', pushFront F m a l.head? = some m' ∧ Linked F m' none (a :: l) none ∧
      Frame F m m' (a :: l) := by
  obtain ⟨fresh, distinct⟩ := List.nodup_cons.mp distinct
  obtain ⟨m₁, run₁, live₁, linked₁, frame₁⟩ := aim_spec live linked fresh l.head? none
  obtain ⟨m₂, run₂, linked₂, frame₂⟩ := retarget_front linked₁ distinct (some a)
  refine ⟨m₂, ?_, ⟨⟨_, (frame₂.outside a fresh).trans live₁, ?_, ?_⟩, linked₂⟩, ?_⟩
  · simp only [pushFront, run₁, Option.bind_eq_bind, Option.bind_some]
    exact run₂
  · exact F.prev_setPrev ..
  · rw [F.next_setPrev, F.next_setNext, Option.or_none]
  · exact frame₁.trans frame₂ (by simp) (by simp)

theorem pushBack_spec {m : Heap α C} {l : List α} {a tail : α} {c : C} (live : m a = some c)
    (linked : Linked F m none l none) (distinct : (l ++ [a]).Nodup)
    (last : l.getLast? = some tail) :
    ∃ m', pushBack F m a tail = some m' ∧ Linked F m' none (l ++ [a]) none ∧
      Frame F m m' (l ++ [a]) := by
  obtain ⟨nodup, _, apart⟩ := List.nodup_append.mp distinct
  have fresh : a ∉ l := fun h => apart a h a (List.mem_singleton_self a) rfl
  obtain ⟨m₁, run₁, live₁, linked₁, frame₁⟩ := aim_spec live linked fresh none (some tail)
  obtain ⟨m₂, run₂, linked₂, frame₂⟩ := retarget_end linked₁ nodup (some a)
  have live₂ := (frame₂.outside a fresh).trans live₁
  rw [last] at run₂
  refine ⟨m₂, ?_, linked_append.mpr ⟨linked₂, ⟨_, live₂, ?_, ?_⟩, trivial⟩, ?_⟩
  · simp only [pushBack, run₁, Option.bind_eq_bind, Option.bind_some]
    exact run₂
  · rw [F.prev_setPrev, last, Option.some_or]
  · rw [F.next_setPrev, F.next_setNext]
    rfl
  · exact frame₁.trans frame₂ (by simp) (by simp)

end Writes

section Walks

def seek (next : C → Option α) (hit : C → Bool) (m : Heap α C) : Nat → Option α → Option (Option α)
  | _, none => some none
  | 0, some _ => none
  | fuel + 1, some a => do
    let c ← m a
    if hit c then some (some a) else seek next hit m fuel (next c)

theorem seek_linked {F : Field α C R} {m : Heap α C} {before : Option α} {l : List α}
    (hit : C → Bool) (linked : Linked F m before l none) {fuel : Nat}
    (enough : l.length ≤ fuel) :
    seek F.next hit m fuel l.head? = some (l.find? fun a => (m a).any hit) := by
  induction l generalizing before fuel with
  | nil => cases fuel <;> rfl
  | cons a l ih =>
    obtain ⟨⟨c, live, _, forth⟩, after⟩ := linked
    cases fuel with
    | zero => simp at enough
    | succ fuel =>
      rw [Option.or_none] at forth
      have further := ih after (Nat.le_of_succ_le_succ enough)
      simp only [List.head?_cons, seek, live, forth, Option.bind_eq_bind, Option.bind_some,
        List.find?_cons, Option.any_some]
      cases hit c
      · simpa using further
      · simp

def trail (next : C → Option α) (m : Heap α C) : Nat → Option α → Option (List α)
  | _, none => some []
  | 0, some _ => none
  | fuel + 1, some a => (m a).bind fun c => (trail next m fuel (next c)).map (a :: ·)

theorem trail_linked {F : Field α C R} {m : Heap α C} {before : Option α} {l : List α}
    (linked : Linked F m before l none) {fuel : Nat} (enough : l.length ≤ fuel) :
    trail F.next m fuel l.head? = some l := by
  induction l generalizing before fuel with
  | nil => cases fuel <;> rfl
  | cons a l ih =>
    obtain ⟨⟨c, live, _, forth⟩, after⟩ := linked
    cases fuel with
    | zero => simp at enough
    | succ fuel =>
      rw [Option.or_none] at forth
      have further := ih after (Nat.le_of_succ_le_succ enough)
      simp [trail, live, forth, further]

variable [DecidableEq α] (F : Field α C R)

/-- The number of cells from `o` on, each of which has to point back at the cell the walk
came from. -/
def tally (m : Heap α C) : Nat → Option α → Option α → Option Nat
  | _, _, none => some 0
  | 0, _, some _ => none
  | fuel + 1, before, some a => (m a).bind fun c =>
    if F.prev c = before then (tally m fuel (some a) (F.next c)).map (· + 1) else none

variable {F}

theorem tally_linked {m : Heap α C} {before : Option α} {l : List α}
    (linked : Linked F m before l none) {fuel : Nat} (enough : l.length ≤ fuel) :
    tally F m fuel before l.head? = some l.length := by
  induction l generalizing before fuel with
  | nil => cases fuel <;> rfl
  | cons a l ih =>
    obtain ⟨⟨c, live, back, forth⟩, after⟩ := linked
    cases fuel with
    | zero => simp at enough
    | succ fuel =>
      rw [Option.or_none] at forth
      have further := ih after (Nat.le_of_succ_le_succ enough)
      simp [tally, live, back, forth, further]

/-- What such a walk passes over is a linked list. -/
theorem linked_of_tally {m : Heap α C} {fuel n : Nat} {before o : Option α}
    (passed : tally F m fuel before o = some n) :
    ∃ l, l.head? = o ∧ l.length = n ∧ Linked F m before l none := by
  induction fuel generalizing before o n with
  | zero =>
    cases o with
    | none => exact ⟨[], rfl, by simpa [tally] using passed, trivial⟩
    | some a => simp [tally] at passed
  | succ fuel ih =>
    cases o with
    | none => exact ⟨[], rfl, by simpa [tally] using passed, trivial⟩
    | some a =>
      simp only [tally, Option.bind_eq_some_iff] at passed
      obtain ⟨c, live, passed⟩ := passed
      split at passed
      · rename_i back
        obtain ⟨k, further, rfl⟩ := Option.map_eq_some_iff.mp passed
        obtain ⟨l, first, size, linked⟩ := ih further
        exact ⟨a :: l, rfl, by simp [size], ⟨c, live, back, by simp [first]⟩, linked⟩
      · cases passed

end Walks

end Intrusive
