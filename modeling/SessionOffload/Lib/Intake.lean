import Mathlib.Data.List.Basic

/-! A desk that admits or refuses one item after the other, where an admitted item is
never admitted again and a refusal is final. Offering any beginnings of a list before the
whole of it then changes nothing: the items admitted are the same, from the same places. -/
namespace Intake

structure Desk (κ V : Type*) where
  admits : κ → V → Bool
  insert : κ → V → V
  once : ∀ k v, admits k (insert k v) = false
  final : ∀ j k v, admits k v = false → admits k (insert j v) = false

variable {κ V : Type*}

def Desk.offer (d : Desk κ V) (k : κ) (v : V) : V := if d.admits k v then d.insert k v else v

def Desk.offerAll (d : Desk κ V) : List κ → V → V
  | [], v => v
  | k :: ks, v => d.offerAll ks (d.offer k v)

def Desk.marks (d : Desk κ V) : List κ → V → List Bool
  | [], _ => []
  | k :: ks, v => d.admits k v :: d.marks ks (d.offer k v)

/-- Beginnings of the given lengths, one after the other, and then the whole list. -/
def Desk.attempts (d : Desk κ V) (ks : List κ) : List Nat → V → List (List Bool) × V
  | [], v => ([d.marks ks v], d.offerAll ks v)
  | n :: ns, v =>
    let later := d.attempts ks ns (d.offerAll (ks.take n) v)
    (d.marks (ks.take n) v :: later.1, later.2)

def places (marks : List Bool) : List Nat := marks.findIdxs id

def picked (ks : List κ) (marks : List Bool) : List κ := (places marks).filterMap (ks[·]?)

theorem picked_cons (k : κ) (ks : List κ) (m : Bool) (marks : List Bool) :
    picked (k :: ks) (m :: marks) = (if m then [k] else []) ++ picked ks marks := by
  have rest : (marks.findIdxs id 1).filterMap ((k :: ks)[·]?) = picked ks marks := by
    rw [List.findIdxs_start, List.filterMap_map]
    rfl
  cases m with
  | true => simp [picked, places, List.findIdxs_cons, rest]
  | false => simpa [picked, places, List.findIdxs_cons] using rest

variable (d : Desk κ V)

@[simp] theorem marks_length (ks : List κ) (v : V) : (d.marks ks v).length = ks.length := by
  induction ks generalizing v with
  | nil => rfl
  | cons k ks ih => simp [Desk.marks, ih]

theorem offerAll_append (ks js : List κ) (v : V) :
    d.offerAll (ks ++ js) v = d.offerAll js (d.offerAll ks v) := by
  induction ks generalizing v with
  | nil => rfl
  | cons k ks ih => exact ih (d.offer k v)

theorem marks_append (ks js : List κ) (v : V) :
    d.marks (ks ++ js) v = d.marks ks v ++ d.marks js (d.offerAll ks v) := by
  induction ks generalizing v with
  | nil => rfl
  | cons k ks ih => simp [Desk.marks, Desk.offerAll, ih]

theorem offer_refuses (j k : κ) (v : V) (refused : d.admits k v = false) :
    d.admits k (d.offer j v) = false := by
  unfold Desk.offer
  split
  · exact d.final j k v refused
  · exact refused

theorem offer_settles (k : κ) (v : V) : d.admits k (d.offer k v) = false := by
  cases decided : d.admits k v with
  | false => exact offer_refuses d k k v decided
  | true =>
    rw [Desk.offer, if_pos decided]
    exact d.once k v

theorem offerAll_refuses (js : List κ) (k : κ) (v : V) (refused : d.admits k v = false) :
    d.admits k (d.offerAll js v) = false := by
  induction js generalizing v with
  | nil => exact refused
  | cons j js ih => exact ih (d.offer j v) (offer_refuses d j k v refused)

theorem offerAll_settles (ks : List κ) (v : V) :
    ∀ k ∈ ks, d.admits k (d.offerAll ks v) = false := by
  induction ks generalizing v with
  | nil => nofun
  | cons j js ih =>
    intro k hk
    rcases List.mem_cons.mp hk with rfl | hk
    · exact offerAll_refuses d js k _ (offer_settles d k v)
    · exact ih (d.offer j v) k hk

theorem refused_nothing (ks : List κ) (v : V) (refused : ∀ k ∈ ks, d.admits k v = false) :
    d.offerAll ks v = v ∧ d.marks ks v = List.replicate ks.length false := by
  induction ks with
  | nil => exact ⟨rfl, rfl⟩
  | cons k ks ih =>
    have here := refused k List.mem_cons_self
    have stays : d.offer k v = v := by simp [Desk.offer, here]
    obtain ⟨same, none⟩ := ih (fun j hj => refused j (List.mem_cons_of_mem k hj))
    exact ⟨by simp [Desk.offerAll, stays, same],
      by simp [Desk.marks, stays, none, here, List.replicate_succ]⟩

theorem resume (ks : List κ) (n : Nat) (v : V) :
    let u := d.offerAll (ks.take n) v
    d.offerAll ks u = d.offerAll ks v ∧
      places (d.marks (ks.take n) v) ++ places (d.marks ks u) = places (d.marks ks v) := by
  have settled := offerAll_settles d (ks.take n) v
  obtain ⟨same, none⟩ := refused_nothing d (ks.take n) _ settled
  have whole (w : V) : d.offerAll ks w = d.offerAll (ks.drop n) (d.offerAll (ks.take n) w) := by
    rw [← offerAll_append, List.take_append_drop]
  have marked (w : V) : d.marks ks w =
      d.marks (ks.take n) w ++ d.marks (ks.drop n) (d.offerAll (ks.take n) w) := by
    rw [← marks_append, List.take_append_drop]
  have empty : (List.replicate (ks.take n).length false).findIdxs id = [] := by
    simp [List.findIdxs_eq_nil_iff]
  constructor
  · rw [whole, whole v, same]
  · rw [marked, marked v, same, none, places, places, places, List.findIdxs_append,
      List.findIdxs_append, empty, List.nil_append, List.length_replicate, marks_length]

theorem attempts_once (ks : List κ) (ns : List Nat) (v : V) :
    (d.attempts ks ns v).2 = d.offerAll ks v ∧
      (d.attempts ks ns v).1.flatMap places = places (d.marks ks v) := by
  induction ns generalizing v with
  | nil => simp [Desk.attempts]
  | cons n ns ih =>
    obtain ⟨same, placed⟩ := resume d ks n v
    obtain ⟨last, later⟩ := ih (d.offerAll (ks.take n) v)
    constructor
    · exact last.trans same
    · simp only [Desk.attempts, List.flatMap_cons, later, placed]

theorem refused_unpicked (ks : List κ) (k : κ) (v : V) (refused : d.admits k v = false) :
    k ∉ picked ks (d.marks ks v) := by
  induction ks generalizing v with
  | nil => simp [picked]
  | cons j ks ih =>
    have later := ih (d.offer j v) (offer_refuses d j k v refused)
    rw [Desk.marks, picked_cons]
    intro found
    rcases List.mem_append.mp found with here | there
    · split at here
      · rename_i admitted
        cases List.mem_singleton.mp here
        simp [refused] at admitted
      · cases here
    · exact later there

theorem picked_nodup (ks : List κ) (v : V) : (picked ks (d.marks ks v)).Nodup := by
  induction ks generalizing v with
  | nil => simp [picked]
  | cons k ks ih =>
    have fresh := refused_unpicked d ks k (d.offer k v) (offer_settles d k v)
    rw [Desk.marks, picked_cons]
    split
    · exact List.nodup_cons.mpr ⟨fresh, ih (d.offer k v)⟩
    · exact ih (d.offer k v)

end Intake
