import Mathlib.Data.List.Nodup

/-! Insertion-ordered dictionaries: iteration is in the order in which the keys first
arrived, and giving a present key a new value does not move it. -/

structure Dict (κ ν : Type*) where
  entries : List (κ × ν)
  distinct : (entries.map Prod.fst).Nodup

namespace Dict

variable {κ ν : Type*}

theorem ext_entries {d e : Dict κ ν} (same : d.entries = e.entries) : d = e := by
  cases d
  cases e
  cases same
  rfl

def empty : Dict κ ν := ⟨[], List.nodup_nil⟩

def keys (d : Dict κ ν) : List κ := d.entries.map Prod.fst

def values (d : Dict κ ν) : List ν := d.entries.map Prod.snd

theorem keys_nodup (d : Dict κ ν) : d.keys.Nodup := d.distinct

theorem mem_values {d : Dict κ ν} {v : ν} : v ∈ d.values ↔ ∃ k, (k, v) ∈ d.entries := by
  simp [values]

theorem mem_keys {d : Dict κ ν} {k : κ} : k ∈ d.keys ↔ ∃ v, (k, v) ∈ d.entries := by
  simp [keys]

theorem entry_unique {d : Dict κ ν} {k : κ} {v w : ν} (left : (k, v) ∈ d.entries)
    (right : (k, w) ∈ d.entries) : v = w := by
  have same := List.inj_on_of_nodup_map d.distinct left right rfl
  exact congrArg Prod.snd same

def mapValues (f : κ → ν → ν) (d : Dict κ ν) : Dict κ ν where
  entries := d.entries.map (fun e => (e.1, f e.1 e.2))
  distinct := by
    rw [List.map_map]
    exact d.distinct

@[simp] theorem keys_mapValues (f : κ → ν → ν) (d : Dict κ ν) : (d.mapValues f).keys = d.keys := by
  rw [keys, mapValues, List.map_map]
  rfl

theorem mem_mapValues {f : κ → ν → ν} {d : Dict κ ν} {k : κ} {w : ν} :
    (k, w) ∈ (d.mapValues f).entries ↔ ∃ v, (k, v) ∈ d.entries ∧ f k v = w := by
  constructor
  · intro member
    obtain ⟨⟨j, v⟩, hv, same⟩ := List.mem_map.mp member
    cases same
    exact ⟨v, hv, rfl⟩
  · rintro ⟨v, member, rfl⟩
    exact List.mem_map.mpr ⟨(k, v), member, rfl⟩

theorem distinct_append {l : List (κ × ν)} {k : κ} (distinct : (l.map Prod.fst).Nodup)
    (fresh : k ∉ l.map Prod.fst) (v : ν) : ((l ++ [(k, v)]).map Prod.fst).Nodup := by
  rw [List.map_append, List.map_singleton, ← List.concat_eq_append]
  exact distinct.concat fresh

variable [DecidableEq κ]

def get? (d : Dict κ ν) (k : κ) : Option ν := (d.entries.find? (fun e => e.1 = k)).map Prod.snd

def set (d : Dict κ ν) (k : κ) (v : ν) : Dict κ ν :=
  if present : k ∈ d.keys then d.mapValues (fun j w => if j = k then v else w)
  else ⟨d.entries ++ [(k, v)], distinct_append d.distinct present v⟩

def erase (d : Dict κ ν) (k : κ) : Dict κ ν where
  entries := d.entries.filter (fun e => e.1 ≠ k)
  distinct := d.distinct.sublist (List.filter_sublist.map Prod.fst)

theorem get?_eq_some_iff {d : Dict κ ν} {k : κ} {v : ν} :
    d.get? k = some v ↔ (k, v) ∈ d.entries := by
  constructor
  · intro found
    obtain ⟨⟨j, w⟩, hit, rfl⟩ := Option.map_eq_some_iff.mp found
    have same : j = k := by simpa using List.find?_some hit
    rw [← same]
    exact List.mem_of_find?_eq_some hit
  · intro member
    cases hit : d.entries.find? (fun e => e.1 = k) with
    | none =>
      have other := List.find?_eq_none.mp hit (k, v) member
      exact absurd (decide_eq_true rfl) other
    | some e =>
      have same : e.1 = k := by simpa using List.find?_some hit
      have there : (k, e.2) ∈ d.entries := same ▸ List.mem_of_find?_eq_some hit
      rw [get?, hit, Option.map_some, entry_unique there member]

theorem value_unique {d : Dict κ ν} {k : κ} {v : ν} (found : d.get? k = some v) {e : κ × ν}
    (member : e ∈ d.entries) (same : e.1 = k) : e.2 = v := by
  have here : (e.1, v) ∈ d.entries := same ▸ get?_eq_some_iff.mp found
  exact entry_unique member here

theorem get?_eq_none_iff {d : Dict κ ν} {k : κ} : d.get? k = none ↔ k ∉ d.keys := by
  rw [mem_keys, Option.eq_none_iff_forall_ne_some, not_exists]
  exact forall_congr' fun v => not_congr get?_eq_some_iff

theorem set_fresh {d : Dict κ ν} {k : κ} (fresh : k ∉ d.keys) (v : ν) :
    (d.set k v).entries = d.entries ++ [(k, v)] := by
  rw [set, dif_neg fresh]

theorem set_present {d : Dict κ ν} {k : κ} (present : k ∈ d.keys) (v : ν) :
    d.set k v = d.mapValues (fun j w => if j = k then v else w) := by
  rw [set, dif_pos present]

theorem mem_set {d : Dict κ ν} {j k : κ} {v w : ν} :
    (j, w) ∈ (d.set k v).entries ↔ (j = k ∧ w = v) ∨ ((j, w) ∈ d.entries ∧ j ≠ k) := by
  by_cases present : k ∈ d.keys
  · rw [set_present present, mem_mapValues]
    constructor
    · rintro ⟨u, member, same⟩
      by_cases here : j = k
      · exact .inl ⟨here, by rw [← same, if_pos here]⟩
      · rw [if_neg here] at same
        exact .inr ⟨same ▸ member, here⟩
    · rintro (⟨rfl, rfl⟩ | ⟨member, other⟩)
      · obtain ⟨u, member⟩ := mem_keys.mp present
        exact ⟨u, member, if_pos rfl⟩
      · exact ⟨w, member, if_neg other⟩
  · rw [set_fresh present, List.mem_append, List.mem_singleton, Prod.mk.injEq]
    have other : (j, w) ∈ d.entries → j ≠ k :=
      fun member same => present (mem_keys.mpr ⟨w, same ▸ member⟩)
    constructor
    · rintro (member | here)
      · exact .inr ⟨member, other member⟩
      · exact .inl here
    · rintro (here | ⟨member, _⟩)
      · exact .inr here
      · exact .inl member

theorem get?_set {d : Dict κ ν} {j k : κ} {v : ν} :
    (d.set k v).get? j = if j = k then some v else d.get? j := by
  apply Option.ext
  intro w
  rw [get?_eq_some_iff, mem_set]
  by_cases same : j = k
  · simp [same, eq_comm]
  · simp [same, get?_eq_some_iff]

theorem mem_keys_set {d : Dict κ ν} {j k : κ} {v : ν} :
    j ∈ (d.set k v).keys ↔ j = k ∨ j ∈ d.keys := by
  simp only [mem_keys, mem_set]
  by_cases same : j = k
  · simp [same]
  · simp [same]

theorem mem_erase {d : Dict κ ν} {j k : κ} {v : ν} :
    (j, v) ∈ (d.erase k).entries ↔ (j, v) ∈ d.entries ∧ j ≠ k := by
  simp [erase]

theorem mem_keys_erase {d : Dict κ ν} {j k : κ} : j ∈ (d.erase k).keys ↔ j ∈ d.keys ∧ j ≠ k := by
  simp only [mem_keys, mem_erase, exists_and_right]

theorem get?_erase {d : Dict κ ν} {j k : κ} (differ : j ≠ k) : (d.erase k).get? j = d.get? j := by
  apply Option.ext
  intro v
  rw [get?_eq_some_iff, get?_eq_some_iff, mem_erase]
  exact ⟨fun h => h.1, fun h => ⟨h, differ⟩⟩

theorem set_stored {d : Dict κ ν} {k : κ} {v : ν} (found : d.get? k = some v) :
    d.set k v = d := by
  have present : k ∈ d.keys := mem_keys.mpr ⟨v, get?_eq_some_iff.mp found⟩
  apply ext_entries
  rw [set_present present]
  have kept : ∀ e ∈ d.entries, (e.1, if e.1 = k then v else e.2) = e := by
    intro e member
    split
    · next here => rw [← value_unique found member here]
    · rfl
  exact (List.map_congr_left kept).trans (List.map_id' _)

theorem set_eq_self_iff {d : Dict κ ν} {k : κ} {v : ν} : d.set k v = d ↔ d.get? k = some v := by
  constructor
  · intro same
    rw [← same, get?_set, if_pos rfl]
  · exact set_stored

theorem erase_absent {d : Dict κ ν} {k : κ} (absent : d.get? k = none) : d.erase k = d := by
  apply ext_entries
  apply List.filter_eq_self.mpr
  intro e member
  have other : e.1 ≠ k := fun same =>
    get?_eq_none_iff.mp absent (same ▸ mem_keys.mpr ⟨e.2, member⟩)
  exact decide_eq_true other

theorem get?_erase_self {d : Dict κ ν} {k : κ} : (d.erase k).get? k = none :=
  get?_eq_none_iff.mpr fun present => (mem_keys_erase.mp present).2 rfl

theorem erase_eq_self_iff {d : Dict κ ν} {k : κ} : d.erase k = d ↔ d.get? k = none := by
  constructor
  · intro same
    rw [← same, get?_erase_self]
  · exact erase_absent

end Dict
