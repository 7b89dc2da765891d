import SessionOffload.Lib.Dict

/-! A dictionary of objects. The dictionary has references to them, a change is made in place,
and a reference may be held elsewhere as well. While no two keys have the same object it is a
dictionary of values. -/

structure Arena (κ ν : Type*) where
  objects : List ν
  names : Dict κ Nat
  placed : ∀ r ∈ names.values, r < objects.length
  apart : names.values.Nodup

namespace Arena

variable {κ ν γ : Type*}

def empty : Arena κ ν := ⟨[], .empty, nofun, List.nodup_nil⟩

def resolve (objects : List ν) (e : κ × Nat) : Option (κ × ν) :=
  objects[e.2]?.map fun v => (e.1, v)

theorem resolve_key {objects : List ν} {e : κ × Nat} {f : κ × ν}
    (resolved : resolve objects e = some f) : f.1 = e.1 := by
  obtain ⟨v, _, rfl⟩ := Option.map_eq_some_iff.mp resolved
  rfl

theorem resolve_keys {objects : List ν} {l : List (κ × Nat)}
    (placed : ∀ e ∈ l, e.2 < objects.length) :
    (l.filterMap (resolve objects)).map Prod.fst = l.map Prod.fst := by
  induction l with
  | nil => rfl
  | cons e l ih =>
    obtain ⟨here, later⟩ := List.forall_mem_cons.mp placed
    have found : resolve objects e = some (e.1, objects[e.2]) := by
      rw [resolve, List.getElem?_eq_getElem here]
      rfl
    rw [List.filterMap_cons_some found, List.map_cons, List.map_cons, ih later]

theorem entry_placed (a : Arena κ ν) {e : κ × Nat} (member : e ∈ a.names.entries) :
    e.2 < a.objects.length :=
  a.placed e.2 (List.mem_map_of_mem member)

def contents (a : Arena κ ν) : Dict κ ν where
  entries := a.names.entries.filterMap (resolve a.objects)
  distinct := by
    rw [resolve_keys fun _ member => a.entry_placed member]
    exact a.names.distinct

theorem contents_keys (a : Arena κ ν) : a.contents.keys = a.names.keys :=
  resolve_keys fun _ member => a.entry_placed member

theorem mem_contents {a : Arena κ ν} {k : κ} {v : ν} :
    (k, v) ∈ a.contents.entries ↔ ∃ r, (k, r) ∈ a.names.entries ∧ a.objects[r]? = some v := by
  simp [contents, resolve]

theorem resolve_values {objects : List ν} {l : List (κ × Nat)}
    (placed : ∀ e ∈ l, e.2 < objects.length) :
    (l.filterMap (resolve objects)).map (fun f => some f.2) = l.map fun e => objects[e.2]? := by
  induction l with
  | nil => rfl
  | cons e l ih =>
    obtain ⟨here, later⟩ := List.forall_mem_cons.mp placed
    have object : objects[e.2]? = some objects[e.2] := List.getElem?_eq_getElem here
    have found : resolve objects e = some (e.1, objects[e.2]) := by
      rw [resolve, object]
      rfl
    rw [List.filterMap_cons_some found, List.map_cons, List.map_cons, ih later, object]

theorem contents_values (a : Arena κ ν) :
    a.contents.values.map some = a.names.values.map (a.objects[·]?) := by
  rw [Dict.values, Dict.values, List.map_map, List.map_map]
  exact resolve_values fun _ member => a.entry_placed member

theorem unnamed (a : Arena κ ν) : a.objects.length ∉ a.names.values :=
  fun member => Nat.lt_irrefl _ (a.placed _ member)

theorem resolve_grown {a : Arena κ ν} (v : ν) {e : κ × Nat} (member : e ∈ a.names.entries) :
    resolve (a.objects ++ [v]) e = resolve a.objects e := by
  rw [resolve, resolve, List.getElem?_append_left (a.entry_placed member)]

/-- What an observer of some aspect of the objects sees of them. -/
def aspects (g : ν → γ) (a : Arena κ ν) : List γ := a.objects.map g

variable [DecidableEq κ]

def read (a : Arena κ ν) (k : κ) : Option ν := (a.names.get? k).bind (a.objects[·]?)

theorem read_contents (a : Arena κ ν) (k : κ) : a.read k = a.contents.get? k := by
  apply Option.ext
  intro v
  rw [Dict.get?_eq_some_iff, mem_contents, read, Option.bind_eq_some_iff]
  simp only [Dict.get?_eq_some_iff]

theorem set_values_nodup {d : Dict κ Nat} {n : Nat} (apart : d.values.Nodup) (new : n ∉ d.values)
    (k : κ) : (d.set k n).values.Nodup := by
  by_cases present : k ∈ d.keys
  · rw [Dict.set_present present, Dict.values, Dict.mapValues, List.map_map]
    refine List.Nodup.map_on ?_ (List.Nodup.of_map _ d.distinct)
    intro e member f other same
    have left : e.2 ∈ d.values := List.mem_map_of_mem member
    have right : f.2 ∈ d.values := List.mem_map_of_mem other
    simp only [Function.comp_apply] at same
    by_cases here : e.1 = k
    · by_cases there : f.1 = k
      · exact List.inj_on_of_nodup_map d.distinct member other (here.trans there.symm)
      · rw [if_pos here, if_neg there] at same
        exact absurd (same ▸ right) new
    · rw [if_neg here] at same
      by_cases there : f.1 = k
      · rw [if_pos there] at same
        exact absurd (same ▸ left) new
      · rw [if_neg there] at same
        exact List.inj_on_of_nodup_map apart member other same
  · rw [Dict.values, Dict.set_fresh present, List.map_append]
    exact List.nodup_append.mpr ⟨apart, List.nodup_singleton n,
      fun r member s last same => by
        have here : r = n := same.trans (List.mem_singleton.mp last)
        exact new (here ▸ member)⟩

theorem mem_values_set {d : Dict κ Nat} {k : κ} {n r : Nat} (member : r ∈ (d.set k n).values) :
    r = n ∨ r ∈ d.values := by
  obtain ⟨j, there⟩ := Dict.mem_values.mp member
  rcases Dict.mem_set.mp there with ⟨_, same⟩ | ⟨old, _⟩
  · exact .inl same
  · exact .inr (Dict.mem_values.mpr ⟨j, old⟩)

/-- The key gets an object of its own; the one it had stays where it is. -/
def insert (a : Arena κ ν) (k : κ) (v : ν) : Arena κ ν where
  objects := a.objects ++ [v]
  names := a.names.set k a.objects.length
  placed := by
    intro r member
    rw [List.length_append, List.length_singleton]
    rcases mem_values_set member with rfl | old
    · exact Nat.lt_succ_self _
    · exact Nat.lt_succ_of_lt (a.placed r old)
  apart := set_values_nodup a.apart a.unnamed k

def modify (a : Arena κ ν) (k : κ) (f : ν → ν) : Arena κ ν where
  objects := (a.names.get? k).elim a.objects fun r => a.objects.modify r f
  names := a.names
  placed := by
    intro r member
    have same : ((a.names.get? k).elim a.objects fun r => a.objects.modify r f).length =
        a.objects.length := by
      cases a.names.get? k with
      | none => rfl
      | some r => exact List.length_modify ..
    rw [same]
    exact a.placed r member
  apart := a.apart

def erase (a : Arena κ ν) (k : κ) : Arena κ ν where
  objects := a.objects
  names := a.names.erase k
  placed := fun r member => a.placed r ((List.filter_sublist.map Prod.snd).subset member)
  apart := a.apart.sublist (List.filter_sublist.map Prod.snd)

theorem contents_insert (a : Arena κ ν) (k : κ) (v : ν) :
    (a.insert k v).contents = a.contents.set k v := by
  apply Dict.ext_entries
  have last : (a.objects ++ [v])[a.objects.length]? = some v := List.getElem?_concat_length
  change (a.names.set k a.objects.length).entries.filterMap (resolve (a.objects ++ [v])) = _
  by_cases present : k ∈ a.names.keys
  · have stored : k ∈ a.contents.keys := a.contents_keys ▸ present
    rw [Dict.set_present stored, Dict.set_present present]
    change (a.names.entries.map _).filterMap _ = (a.names.entries.filterMap _).map _
    rw [List.filterMap_map, List.map_filterMap]
    refine List.filterMap_congr fun e member => ?_
    simp only [Function.comp_apply]
    by_cases here : e.1 = k
    · rw [if_pos here, resolve, last, resolve, List.getElem?_eq_getElem (a.entry_placed member)]
      simp [here]
    · have old : resolve (a.objects ++ [v]) (e.1, e.2) = resolve a.objects e :=
        resolve_grown v member
      rw [if_neg here, old]
      cases resolved : resolve a.objects e with
      | none => rfl
      | some f =>
        have other : f.1 ≠ k := resolve_key resolved ▸ here
        rw [Option.map_some, if_neg other]
  · have fresh : k ∉ a.contents.keys := a.contents_keys ▸ present
    rw [Dict.set_fresh fresh, Dict.set_fresh present, List.filterMap_append,
      List.filterMap_congr fun e member => resolve_grown v member]
    simp only [List.filterMap_cons, List.filterMap_nil, resolve, last, Option.map_some]
    rfl

/-- A change in place is one of the value, as no other key has the object. -/
theorem contents_modify {a : Arena κ ν} {k : κ} {v : ν} (stored : a.read k = some v)
    (f : ν → ν) : (a.modify k f).contents = a.contents.set k (f v) := by
  obtain ⟨r, named, object⟩ := Option.bind_eq_some_iff.mp stored
  have entry : (k, r) ∈ a.names.entries := Dict.get?_eq_some_iff.mp named
  have present : k ∈ a.names.keys := Dict.mem_keys.mpr ⟨r, entry⟩
  apply Dict.ext_entries
  have stored : k ∈ a.contents.keys := a.contents_keys ▸ present
  have changed : (a.modify k f).objects = a.objects.modify r f := by
    simp only [modify, named, Option.elim_some]
  rw [Dict.set_present stored]
  change a.names.entries.filterMap (resolve (a.modify k f).objects) =
    (a.names.entries.filterMap _).map _
  rw [changed, List.map_filterMap]
  refine List.filterMap_congr fun e member => ?_
  rw [resolve, resolve]
  by_cases here : e.1 = k
  · have same : e.2 = r := Dict.value_unique named member here
    rw [same, List.getElem?_modify_eq, object]
    simp [here]
  · have other : r ≠ e.2 := by
      rintro rfl
      exact here (congrArg Prod.fst (List.inj_on_of_nodup_map a.apart member entry rfl))
    rw [List.getElem?_modify_ne _ _ other]
    cases a.objects[e.2]? with
    | none => rfl
    | some w => simp [here]

theorem contents_erase (a : Arena κ ν) (k : κ) : (a.erase k).contents = a.contents.erase k := by
  apply Dict.ext_entries
  change (a.names.entries.filter fun e => e.1 ≠ k).filterMap (resolve a.objects) =
    (a.names.entries.filterMap (resolve a.objects)).filter fun e => e.1 ≠ k
  rw [List.filterMap_filter, List.filter_filterMap]
  refine List.filterMap_congr fun e _ => ?_
  cases resolved : resolve a.objects e with
  | none => simp
  | some f => simp [resolve_key resolved, Option.filter]

section Aspects
variable (g : ν → γ) (a : Arena κ ν) (k : κ)

theorem aspects_insert (v : ν) : (a.insert k v).aspects g = a.aspects g ++ [g v] :=
  List.map_append

theorem aspects_modify {f : ν → ν} (kept : ∀ v, g (f v) = g v) :
    (a.modify k f).aspects g = a.aspects g := by
  change ((a.names.get? k).elim a.objects fun r => a.objects.modify r f).map g = a.objects.map g
  cases a.names.get? k with
  | none => rfl
  | some r =>
    apply List.ext_getElem?
    intro i
    rw [Option.elim_some, List.getElem?_map, List.getElem?_modify, List.getElem?_map]
    cases a.objects[i]? with
    | none => simp
    | some v =>
      by_cases here : r = i
      · simp [here, kept]
      · simp [here]

end Aspects

end Arena
