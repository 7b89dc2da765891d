import Mathlib.Data.List.Nodup

/-! Lists of keyed values and the patches that change them. A create adds a value under a new
key, an update replaces the values of a key, a delete removes them. -/
namespace Patch

inductive Op where
  | create | update | delete | other
  deriving DecidableEq

structure Entry (κ ν : Type*) where
  key : κ
  value : ν
  op : Op

variable {κ ν : Type*}

def Entry.pair (e : Entry κ ν) : κ × ν := (e.key, e.value)

variable [DecidableEq κ]

def replace (e : Entry κ ν) (kv : κ × ν) : κ × ν := if kv.1 = e.key then e.pair else kv

def apply (l : List (κ × ν)) (e : Entry κ ν) : List (κ × ν) :=
  match e.op with
  | .create => if e.key ∈ l.map Prod.fst then l else l ++ [e.pair]
  | .update => l.map (replace e)
  | .delete => l.filter (fun kv => kv.1 ≠ e.key)
  | .other => l

def revise (kv : κ × ν) (e : Entry κ ν) : κ × ν := if e.op = .update then replace e kv else kv

def newest (es : List (Entry κ ν)) (kv : κ × ν) : κ × ν := es.foldl revise kv

theorem replace_key (e : Entry κ ν) (kv : κ × ν) : (replace e kv).1 = kv.1 := by
  unfold replace
  split
  · next same => exact same.symm
  · rfl

theorem revise_key (kv : κ × ν) (e : Entry κ ν) : (revise kv e).1 = kv.1 := by
  unfold revise
  split
  · exact replace_key e kv
  · rfl

theorem newest_key (es : List (Entry κ ν)) (kv : κ × ν) : (newest es kv).1 = kv.1 := by
  induction es generalizing kv with
  | nil => rfl
  | cons e es ih => exact (ih (revise kv e)).trans (revise_key kv e)

theorem keys_newest (es : List (Entry κ ν)) (l : List (κ × ν)) :
    (l.map (newest es)).map Prod.fst = l.map Prod.fst := by
  rw [List.map_map]
  exact List.map_congr_left fun kv _ => newest_key es kv

theorem keys_replace (e : Entry κ ν) (l : List (κ × ν)) :
    (l.map (replace e)).map Prod.fst = l.map Prod.fst := by
  rw [List.map_map]
  exact List.map_congr_left fun kv _ => replace_key e kv

theorem newest_creates (es : List (Entry κ ν)) (kv : κ × ν) (creates : ∀ e ∈ es, e.op = .create) :
    newest es kv = kv := by
  induction es with
  | nil => rfl
  | cons e es ih =>
    obtain ⟨first, later⟩ := List.forall_mem_cons.mp creates
    have same : revise kv e = kv := if_neg (by rw [first]; decide)
    exact (congrArg (newest es) same).trans (ih later)

theorem newest_cons {e : Entry κ ν} (es : List (Entry κ ν)) (other : e.op ≠ .update) :
    newest (e :: es) = newest es := by
  funext kv
  have same : revise kv e = kv := if_neg other
  exact congrArg (newest es) same

theorem newest_append (es fs : List (Entry κ ν)) (kv : κ × ν) :
    newest (es ++ fs) kv = newest fs (newest es kv) :=
  List.foldl_append

theorem count_apply (l : List (κ × ν)) (e : Entry κ ν) (k : κ) :
    ((apply l e).map Prod.fst).count k ≤ (l.map Prod.fst).count k + [e.key].count k := by
  unfold apply
  split
  · split
    · exact Nat.le_add_right _ _
    · rw [List.map_append, List.count_append]
      exact Nat.le_refl _
  · rw [keys_replace]
    exact Nat.le_add_right _ _
  · have sub := (List.filter_sublist (p := fun kv => kv.1 ≠ e.key) (l := l)).map Prod.fst
    exact Nat.le_trans (sub.count_le k) (Nat.le_add_right _ _)
  · exact Nat.le_add_right _ _

theorem count_foldl (es : List (Entry κ ν)) (l : List (κ × ν)) (k : κ) :
    ((es.foldl apply l).map Prod.fst).count k ≤
      (l.map Prod.fst).count k + (es.map Entry.key).count k := by
  induction es generalizing l with
  | nil => exact Nat.le_refl _
  | cons e es ih =>
    have first := count_apply l e k
    have later := ih (apply l e)
    have split : ((e :: es).map Entry.key).count k =
        [e.key].count k + (es.map Entry.key).count k := by
      rw [List.map_cons, ← List.singleton_append, List.count_append]
    rw [List.foldl_cons, split]
    omega

theorem count_delete (l : List (κ × ν)) {e : Entry κ ν} (delete : e.op = .delete) :
    ((apply l e).map Prod.fst).count e.key = 0 := by
  have result : apply l e = l.filter (fun kv => kv.1 ≠ e.key) := by rw [apply, delete]
  rw [result, List.count_eq_zero]
  intro member
  obtain ⟨kv, there, same⟩ := List.mem_map.mp member
  exact of_decide_eq_true (List.mem_filter.mp there).2 same

/-- A list of patches that lists its own result has no delete: what a delete names occurs in
the result less often than in the patches. -/
theorem fixed_no_delete {l : List (κ × ν)} {es : List (Entry κ ν)}
    (fixed : es.map Entry.pair = es.foldl apply l) : ∀ e ∈ es, e.op ≠ .delete := by
  intro e member delete
  obtain ⟨before, after, rfl⟩ := List.append_of_mem member
  have keys : (before ++ e :: after).map Entry.key =
      (((before ++ e :: after).foldl apply l)).map Prod.fst := by
    rw [← fixed, List.map_map]
    rfl
  have bound := count_foldl after (apply (before.foldl apply l) e) e.key
  rw [count_delete _ delete, ← List.foldl_cons, ← List.foldl_append, ← keys] at bound
  rw [List.map_append, List.map_cons, List.count_append, List.count_cons_self] at bound
  omega

inductive Kept (l : List (κ × ν)) (e : Entry κ ν) : List (κ × ν) → Prop where
  | created (op : e.op = .create) (fresh : e.key ∉ l.map Prod.fst) : Kept l e (l ++ [e.pair])
  | updated (op : e.op = .update) : Kept l e (l.map (replace e))
  | same (op : e.op ≠ .update) : Kept l e l

theorem apply_kept (l : List (κ × ν)) {e : Entry κ ν} (noDelete : e.op ≠ .delete) :
    Kept l e (apply l e) := by
  unfold apply
  split
  · next create =>
    split
    · exact .same (by rw [create]; decide)
    · next fresh => exact .created create fresh
  · next update => exact .updated update
  · next delete => exact absurd delete noDelete
  · next other => exact .same (by rw [other]; decide)

/-- Without a delete the old values stay in their places, each as the updates leave it, and
new ones follow them. -/
theorem foldl_kept (es : List (Entry κ ν)) (l : List (κ × ν))
    (noDelete : ∀ e ∈ es, e.op ≠ .delete) :
    ∃ rest, es.foldl apply l = l.map (newest es) ++ rest ∧ (rest.map Prod.fst).Nodup ∧
      ∀ k ∈ rest.map Prod.fst, k ∉ l.map Prod.fst ∧ ∃ e ∈ es, e.op = .create ∧ e.key = k := by
  induction es generalizing l with
  | nil =>
    have same : l.map (newest []) = l := List.map_id' l
    exact ⟨[], by rw [List.foldl_nil, same, List.append_nil], List.nodup_nil, by simp⟩
  | cons e es ih =>
    obtain ⟨first, later⟩ := List.forall_mem_cons.mp noDelete
    obtain ⟨rest, result, distinct, fresh⟩ := ih (apply l e) later
    rw [List.foldl_cons]
    have kept := apply_kept l first
    generalize apply l e = changed at kept result fresh
    have widen {k : κ} (there : ∃ e' ∈ es, e'.op = .create ∧ e'.key = k) :
        ∃ e' ∈ e :: es, e'.op = .create ∧ e'.key = k := by
      obtain ⟨e', member, create, same⟩ := there
      exact ⟨e', List.mem_cons_of_mem _ member, create, same⟩
    cases kept with
    | created op unused =>
      have other : e.op ≠ .update := by rw [op]; decide
      rw [newest_cons es other]
      refine ⟨newest es e.pair :: rest, ?_, ?_, ?_⟩
      · rw [result, List.map_append, List.append_assoc]
        rfl
      · rw [List.map_cons, newest_key, List.nodup_cons]
        refine ⟨fun member => (fresh _ member).1 ?_, distinct⟩
        rw [List.map_append]
        exact List.mem_append_right _ (List.mem_singleton.mpr rfl)
      · intro k member
        rw [List.map_cons, newest_key, List.mem_cons] at member
        rcases member with rfl | member
        · exact ⟨unused, e, List.mem_cons_self, op, rfl⟩
        · obtain ⟨absent, there⟩ := fresh k member
          rw [List.map_append, List.mem_append, not_or] at absent
          exact ⟨absent.1, widen there⟩
    | updated op =>
      have turn : (l.map (replace e)).map (newest es) = l.map (newest (e :: es)) := by
        rw [List.map_map]
        refine List.map_congr_left fun kv _ => ?_
        have revised : revise kv e = replace e kv := if_pos op
        exact (congrArg (newest es) revised).symm
      rw [turn] at result
      rw [keys_replace] at fresh
      exact ⟨rest, result, distinct, fun k member =>
        ⟨(fresh k member).1, widen (fresh k member).2⟩⟩
    | same op =>
      rw [newest_cons es op]
      exact ⟨rest, result, distinct, fun k member =>
        ⟨(fresh k member).1, widen (fresh k member).2⟩⟩

theorem foldl_creates (es : List (Entry κ ν)) (l : List (κ × ν))
    (new : ∀ e ∈ es, e.op = .create ∧ e.key ∉ l.map Prod.fst)
    (distinct : (es.map Entry.key).Nodup) : es.foldl apply l = l ++ es.map Entry.pair := by
  induction es generalizing l with
  | nil => simp
  | cons e es ih =>
    obtain ⟨⟨create, fresh⟩, later⟩ := List.forall_mem_cons.mp new
    rw [List.map_cons, List.nodup_cons] at distinct
    have first : apply l e = l ++ [e.pair] := by simp only [apply, create, if_neg fresh]
    have rest : ∀ f ∈ es, f.op = .create ∧ f.key ∉ (l ++ [e.pair]).map Prod.fst := by
      intro f member
      refine ⟨(later f member).1, fun there => ?_⟩
      rw [List.map_append, List.mem_append] at there
      rcases there with old | here
      · exact (later f member).2 old
      · have same : f.key = e.key := List.mem_singleton.mp here
        exact distinct.1 (same ▸ List.mem_map_of_mem member)
    rw [List.foldl_cons, first, ih _ rest distinct.2, List.map_cons, List.append_assoc]
    rfl

/-- Patches that restate a list: for each value in its place an entry with the value that
their updates leave, and then creates of distinct new keys. -/
structure Restates (l : List (κ × ν)) (kept new : List (Entry κ ν)) : Prop where
  values : kept.map Entry.pair = l.map (newest kept)
  noDelete : ∀ e ∈ kept, e.op ≠ .delete
  creates : ∀ e ∈ new, e.op = .create ∧ e.key ∉ l.map Prod.fst
  distinct : (new.map Entry.key).Nodup

theorem restates_iff (l : List (κ × ν)) (es : List (Entry κ ν)) :
    es.map Entry.pair = es.foldl apply l ↔ ∃ kept new, es = kept ++ new ∧ Restates l kept new := by
  constructor
  · intro fixed
    have noDelete := fixed_no_delete fixed
    obtain ⟨rest, result, distinct, fresh⟩ := foldl_kept es l noDelete
    rw [result] at fixed
    obtain ⟨kept, new, rfl, values, added⟩ := List.map_eq_append_iff.mp fixed
    have keys : new.map Entry.key = rest.map Prod.fst := by
      rw [← added, List.map_map]
      rfl
    have old : kept.map Entry.key = l.map Prod.fst := by
      rw [← keys_newest (kept ++ new) l, ← values, List.map_map]
      rfl
    rw [← keys] at distinct fresh
    have creates : ∀ e ∈ new, e.op = .create ∧ e.key ∉ l.map Prod.fst := by
      intro e member
      obtain ⟨absent, c, there, create, same⟩ := fresh e.key (List.mem_map_of_mem member)
      rcases List.mem_append.mp there with inKept | inNew
      · exact absurd (old ▸ same ▸ List.mem_map_of_mem inKept) absent
      · exact ⟨List.inj_on_of_nodup_map distinct inNew member same ▸ create, absent⟩
    refine ⟨kept, new, rfl, ?_, fun e member => noDelete e (List.mem_append_left _ member),
      creates, distinct⟩
    rw [values]
    refine List.map_congr_left fun kv _ => ?_
    rw [newest_append, newest_creates new _ fun e member => (creates e member).1]
  · rintro ⟨kept, new, rfl, restates⟩
    obtain ⟨rest, result, _, fresh⟩ := foldl_kept kept l restates.noDelete
    have old : kept.map Entry.key = l.map Prod.fst := by
      rw [← keys_newest kept l, ← restates.values, List.map_map]
      rfl
    have none : rest = [] := by
      apply List.eq_nil_iff_forall_not_mem.mpr
      intro kv member
      obtain ⟨absent, e, there, _, same⟩ := fresh kv.1 (List.mem_map_of_mem member)
      exact absent (old ▸ same ▸ List.mem_map_of_mem there)
    rw [none, List.append_nil, ← restates.values] at result
    rw [List.foldl_append, result, List.map_append, foldl_creates new _ ?_ restates.distinct]
    intro e member
    rw [restates.values, keys_newest]
    exact restates.creates e member

end Patch
