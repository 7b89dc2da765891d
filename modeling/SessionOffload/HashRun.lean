import Mathlib.Algebra.BigOperators.Group.Finset.Piecewise
import Mathlib.Algebra.BigOperators.Intervals
import SessionOffload.UtHashSpec
import SessionOffload.Lib.Transition

/-! Runs of a program that uses one table of uthash.h: it adds blocks that are not in the
table, deletes blocks that are, looks keys up, and does what it likes with the handles of
other blocks. The list beside the table is what the program has added and not deleted. -/
namespace SessionOffload
open Intrusive Transition

inductive HashCall where
  | add (x : Item)
  | del (x : Item)
  | find (key : List Byte) (found : Option Nat)
  | other (a : Nat)

/-- `fuel` bounds the elements the program ever has in the table. -/
inductive HashStep (fuel : Nat) : UtHash × List Item → HashCall → UtHash × List Item → Prop where
  | add {t t' : UtHash} {l : List Item} (x : Item) (malloc : Nat → Bool)
      (refuses : Refuses malloc) (fresh : x.addr ∉ addrs l) (allocated : (t.hh x.addr).isSome)
      (room : l.length < fuel) (run : hashAdd malloc fuel x.key x.addr t = some t') :
      HashStep fuel (t, l) (.add x) (t', l ++ [x])
  | del {t t' : UtHash} {l : List Item} (x : Item) (member : x ∈ l)
      (run : hashDeleteHh x.addr t = some t') :
      HashStep fuel (t, l) (.del x) (t', l.erase x)
  | find {t : UtHash} {l : List Item} (key : List Byte) (found : Option Nat)
      (run : hashFind fuel t key = some found) :
      HashStep fuel (t, l) (.find key found) (t, l)
  | other {t : UtHash} {l : List Item} (a : Nat) (h : Option UtHashHandle)
      (outside : a ∉ addrs l) :
      HashStep fuel (t, l) (.other a) ({ t with hh := Function.update t.hh a h }, l)

abbrev HashCallRun (fuel : Nat) (calls : List HashCall) (t : UtHash) (l : List Item) : Prop :=
  ∃ hh, Path (HashStep fuel) (UtHash.empty hh, []) calls (t, l)

theorem delete_member {t : UtHash} {l : List Item} (holds : t.Holds l) {x : Item}
    (member : x ∈ l) :
    ∃ t', hashDeleteHh x.addr t = some t' ∧ t'.Holds (l.erase x) ∧
      ∀ b, b ∉ addrs (l.erase x) → t'.hh b = t.hh b := by
  obtain ⟨l₁, l₂, rfl⟩ := List.append_of_mem member
  have away : x ∉ l₁ := fun there => by
    have apart := holds.distinct
    rw [addrs_append, addrs_cons] at apart
    exact (List.nodup_append.mp apart).2.2 _ (List.mem_map_of_mem there) _ List.mem_cons_self rfl
  rw [List.erase_append_right _ away, List.erase_cons_head]
  exact delete_item holds

theorem client_step {fuel : Nat} {s s' : UtHash × List Item} {call : HashCall}
    (holds : s.1.Holds s.2 ∧ s.2.length ≤ fuel) (step : HashStep fuel s call s') :
    s'.1.Holds s'.2 ∧ s'.2.length ≤ fuel := by
  obtain ⟨holds, bound⟩ := holds
  cases step with
  | add x malloc refuses fresh allocated room run =>
    obtain ⟨h, live⟩ := Option.isSome_iff_exists.mp allocated
    rcases add_item refuses holds fresh live room with ⟨_, failed⟩ | ⟨t', run', holds', _⟩
    · rw [failed] at run
      cases run
    · rw [run'] at run
      cases run
      exact ⟨holds', by simpa using room⟩
  | del x member run =>
    obtain ⟨t', run', holds', _⟩ := delete_member holds member
    rw [run'] at run
    cases run
    exact ⟨holds', Nat.le_trans (List.length_erase_le ..) bound⟩
  | find key found run => exact ⟨holds, bound⟩
  | other a h outside =>
    refine ⟨holds.untouched rfl rfl fun b hb => Function.update_of_ne ?_ _ _, bound⟩
    exact fun same => outside (same ▸ hb)

theorem client_holds {fuel : Nat} {calls : List HashCall} {t : UtHash} {l : List Item}
    (run : HashCallRun fuel calls t l) : t.Holds l ∧ l.length ≤ fuel := by
  obtain ⟨hh, path⟩ := run
  exact path.invariant (fun s => s.1.Holds s.2 ∧ s.2.length ≤ fuel)
    (fun _ _ _ holds step => client_step holds step) ⟨empty_holds hh, Nat.zero_le _⟩

def addEach (malloc : Nat → Bool) (fuel : Nat) : List Item → UtHash → Option UtHash
  | [], t => some t
  | x :: xs, t => (hashAdd malloc fuel x.key x.addr t).bind (addEach malloc fuel xs)

theorem addEach_path {malloc : Nat → Bool} (refuses : Refuses malloc) {fuel : Nat}
    {xs l : List Item} {t t' : UtHash} (holds : t.Holds l) (distinct : (addrs (l ++ xs)).Nodup)
    (room : (l ++ xs).length ≤ fuel) (allocated : ∀ x ∈ xs, (t.hh x.addr).isSome)
    (added : addEach malloc fuel xs t = some t') :
    Path (HashStep fuel) (t, l) (xs.map .add) (t', l ++ xs) := by
  induction xs generalizing t l with
  | nil =>
    cases added
    rw [List.append_nil]
    exact .nil _
  | cons x xs ih =>
    have fresh : x.addr ∉ addrs l := by
      rw [addrs_append, addrs_cons] at distinct
      exact fun taken => (List.nodup_append.mp distinct).2.2 _ taken _ List.mem_cons_self rfl
    rw [List.append_cons] at distinct room
    have space : l.length < fuel := by
      simp only [List.length_append, List.length_cons, List.length_nil] at room
      omega
    obtain ⟨h, live⟩ := Option.isSome_iff_exists.mp (allocated x List.mem_cons_self)
    rcases add_item refuses holds fresh live space with ⟨_, failed⟩ | ⟨u, run, holds', same, _⟩
    · simp [addEach, failed] at added
    · simp only [addEach, run, Option.bind_some] at added
      have later : ∀ y ∈ xs, (u.hh y.addr).isSome := fun y hy => by
        rw [same y.addr]
        · exact allocated y (List.mem_cons_of_mem _ hy)
        · rw [addrs_append] at distinct
          exact fun taken => (List.nodup_append.mp distinct).2.2 _ taken _
            (List.mem_map_of_mem hy) rfl
      rw [List.append_cons]
      exact .cons (.add x malloc refuses fresh (by rw [live]; rfl) space run)
        (ih holds' distinct room later added)

def clearedHeap : Heap Nat UtHashHandle := fun _ => some .zero

/-- Ten elements whose keys fall into one of 32 buckets. -/
def crowd : List Item :=
  [16, 20, 22, 29, 88, 115, 141, 182, 196, 201].map fun n => ⟨n, [BitVec.ofNat 8 n]⟩

def crowded (n : Nat) : UtHash :=
  (addEach upTo32GiB 16 (crowd.take n) (UtHash.empty clearedHeap)).getD (UtHash.empty clearedHeap)

theorem crowded_run (n : Nat) (added : addEach upTo32GiB 16 (crowd.take n)
    (UtHash.empty clearedHeap) = some (crowded n)) :
    HashCallRun 16 ((crowd.take n).map .add) (crowded n) (crowd.take n) := by
  have distinct : (addrs (crowd.take n)).Nodup :=
    (by decide : (addrs crowd).Nodup).sublist ((List.take_sublist n crowd).map _)
  have short : (crowd.take n).length ≤ 16 :=
    Nat.le_trans (List.length_take_le' ..) (by decide)
  exact ⟨clearedHeap, addEach_path upTo32GiB_refuses (empty_holds _) distinct short
    (fun _ _ => rfl) added⟩

/-- At every point of every run the integrity check passes, HASH_COUNT is the number of
elements in 32 bits, and following `hh.next` from the head meets them in the order they were
added, whatever expansions have taken place. -/
theorem table_integrity {fuel : Nat} {calls : List HashCall} {t : UtHash} {l : List Item}
    (run : HashCallRun fuel calls t l) :
    hashFsck fuel t = some () ∧ hashCount t = some (BitVec.ofNat 32 l.length) ∧
      trail UtHashHandle.next t.hh fuel t.head = some (addrs l) := by
  obtain ⟨holds, enough⟩ := client_holds run
  refine ⟨fsck_passes holds enough, count_spec holds, ?_⟩
  cases l with
  | nil =>
    rw [holds.head]
    cases fuel <;> rfl
  | cons x l =>
    obtain ⟨_, tbl, order, k, _, _, laid⟩ := holds.more (List.cons_ne_nil x l)
    rw [holds.head]
    exact trail_linked laid.app (by simpa using enough)

theorem crowded_integrity : hashFsck 16 (crowded 10) = some () ∧
    hashCount (crowded 10) = some (BitVec.ofNat 32 (crowd.take 10).length) ∧
    trail UtHashHandle.next (crowded 10).hh 16 (crowded 10).head = some (addrs (crowd.take 10)) :=
  table_integrity (crowded_run 10 rfl)

/-- HASH_FIND returns an element with the key exactly when there is one, so with distinct
keys it returns the one. -/
theorem table_lookup {fuel : Nat} {calls : List HashCall} {t : UtHash} {l : List Item}
    (run : HashCallRun fuel calls t l) (key : List Byte) :
    ∃ found, hashFind fuel t key = some found ∧
      (found = none ↔ ∀ x ∈ l, x.key ≠ key) ∧
      ((l.map Item.key).Nodup → ∀ x ∈ l, x.key = key → found = some x.addr) := by
  obtain ⟨holds, enough⟩ := client_holds run
  obtain ⟨found, lookup, sound, complete⟩ := find_spec holds enough key
  refine ⟨found, lookup, ⟨complete, fun absent => ?_⟩, fun distinct x member same => ?_⟩
  · cases hit : found with
    | none => rfl
    | some a =>
      obtain ⟨x, member, _, same⟩ := sound a hit
      exact absurd same (absent x member)
  · cases hit : found with
    | none => exact absurd same (complete hit x member)
    | some a =>
      obtain ⟨y, there, rfl, same'⟩ := sound a hit
      rw [List.inj_on_of_nodup_map distinct there member (same'.trans same.symm)]

theorem crowded_lookup : ∃ found, hashFind 16 (crowded 10) [22#8] = some found ∧
    (found = none ↔ ∀ x ∈ crowd.take 10, x.key ≠ [22#8]) ∧
    (((crowd.take 10).map Item.key).Nodup →
      ∀ x ∈ crowd.take 10, x.key = [22#8] → found = some x.addr) :=
  table_lookup (crowded_run 10 rfl) [22#8]

/-- No macro follows a pointer to a block without a handle, reads behind the array of
buckets or walks in a circle: a deletion of a member and a lookup always end, and an
addition of an allocated block ends unless malloc refuses an array. -/
theorem table_safe {fuel : Nat} {calls : List HashCall} {t : UtHash} {l : List Item}
    (run : HashCallRun fuel calls t l) :
    (∀ x ∈ l, ∃ t', HashStep fuel (t, l) (.del x) (t', l.erase x)) ∧
    (∀ key, ∃ found, HashStep fuel (t, l) (.find key found) (t, l)) ∧
    (∀ x malloc, Refuses malloc → x.addr ∉ addrs l → (t.hh x.addr).isSome → l.length < fuel →
      (∀ size ∈ t.asks, malloc size = true) →
      ∃ t', HashStep fuel (t, l) (.add x) (t', l ++ [x])) := by
  obtain ⟨holds, enough⟩ := client_holds run
  refine ⟨fun x member => ?_, fun key => ?_,
    fun x malloc refuses fresh allocated room granted => ?_⟩
  · obtain ⟨t', ends, _⟩ := delete_member holds member
    exact ⟨t', .del x member ends⟩
  · obtain ⟨found, ends, _⟩ := find_spec holds enough key
    exact ⟨found, .find key found ends⟩
  · obtain ⟨h, live⟩ := Option.isSome_iff_exists.mp allocated
    rcases add_item refuses holds fresh live room with ⟨⟨size, asked, refused⟩, _⟩ | ⟨t', ends, _⟩
    · rw [granted size asked] at refused
      cases refused
    · exact ⟨t', .add x malloc refuses fresh allocated room ends⟩

theorem crowded_safe :
    (∀ x ∈ crowd.take 10, ∃ t',
      HashStep 16 (crowded 10, crowd.take 10) (.del x) (t', (crowd.take 10).erase x)) ∧
    (∀ key, ∃ found, HashStep 16 (crowded 10, crowd.take 10) (.find key found)
      (crowded 10, crowd.take 10)) ∧
    (∀ x malloc, Refuses malloc → x.addr ∉ addrs (crowd.take 10) →
      ((crowded 10).hh x.addr).isSome → (crowd.take 10).length < 16 →
      (∀ size ∈ (crowded 10).asks, malloc size = true) →
      ∃ t', HashStep 16 (crowded 10, crowd.take 10) (.add x) (t', crowd.take 10 ++ [x])) :=
  table_safe (crowded_run 10 rfl)

/-- An addition that changes the number of buckets doubles it, and leaves behind the ideal
chain length ceil(n/b) and the count of the elements further down their chain than that, as long
as 32 bits can count the elements. -/
theorem expansion_accounts {fuel : Nat} {calls : List HashCall} {t t' : UtHash} {l : List Item}
    {x : Item} (run : HashCallRun fuel calls t l)
    (step : HashStep fuel (t, l) (.add x) (t', l ++ [x])) (few : l.length + 1 < 2 ^ 32)
    {tbl tbl' : UtHashTable} (before : t.tbl = some tbl) (after : t'.tbl = some tbl')
    (changed : tbl'.numBuckets ≠ tbl.numBuckets) :
    tbl'.numBuckets = tbl.numBuckets * 2 ∧ ChainsAccounted tbl' := by
  obtain ⟨holds, _⟩ := client_holds run
  cases step with
  | add x malloc refuses fresh allocated room run =>
    obtain ⟨h, live⟩ := Option.isSome_iff_exists.mp allocated
    rcases add_item refuses holds fresh live room with ⟨_, failed⟩ | ⟨u, run', _, _, grown⟩
    · rw [failed] at run
      cases run
    · rw [run'] at run
      cases run
      rcases grown tbl tbl' before after with same | ⟨doubled, accounted⟩
      · exact absurd same changed
      · exact ⟨doubled, accounted few⟩

theorem crowded_expansion : ∃ tbl tbl', (crowded 9).tbl = some tbl ∧
    (crowded 10).tbl = some tbl' ∧ tbl'.numBuckets = tbl.numBuckets * 2 ∧ ChainsAccounted tbl' :=
  ⟨_, _, rfl, rfl, expansion_accounts (x := ⟨201, [201#8]⟩) (crowded_run 9 rfl)
    (.add _ upTo32GiB upTo32GiB_refuses (by decide) rfl (by decide) rfl) (by decide) rfl rfl
    (by decide)⟩

/-- What HASH_FSCK looks at: every chain and the list of all elements is linked both ways,
and the counts are the lengths. -/
def Sound (t : UtHash) : Prop :=
  ∀ a, t.head = some a → ∃ (tbl : UtHashTable) (chains : Nat → List Nat) (l : List Nat),
    t.tbl = some tbl ∧
    (∀ i < tbl.numBuckets.toNat, ∃ b, tbl.buckets[i]? = some b ∧ Bucketed b t.hh (chains i)) ∧
    l.head? = some a ∧ Linked appOrder t.hh none l none ∧
    tbl.numItems = BitVec.ofNat 32 l.length ∧
    tbl.numItems = BitVec.ofNat 32 (chainsTotal chains tbl.numBuckets.toNat)

theorem chain_short (chains : Nat → List Nat) {i n : Nat} (inside : i < n) :
    (chains i).length ≤ chainsTotal chains n := by
  induction n with
  | zero => omega
  | succ n ih =>
    rw [chainsTotal]
    by_cases last : i = n
    · subst last
      omega
    · have := ih (by omega)
      omega

/-- The integrity check lets a table through, on any heap whatever, exactly when it is
sound. It does not look at the tail or at which bucket an element is in. -/
theorem fsck_iff_sound (t : UtHash) : (∃ fuel, hashFsck fuel t = some ()) ↔ Sound t := by
  constructor
  · rintro ⟨fuel, passed⟩ a head
    simp only [hashFsck, head, Option.bind_eq_bind, Option.bind_eq_some_iff] at passed
    obtain ⟨tbl, here, count, buckets, n, walk, passed⟩ := passed
    obtain ⟨chains, held, total⟩ := of_fsckBuckets buckets
    obtain ⟨l, first, length, linked⟩ := linked_of_tally walk
    split at passed
    · rename_i same
      exact ⟨tbl, chains, l, here, held, first, linked, by rw [length, same.2],
        by rw [← total, same.1]⟩
    · cases passed
  · intro sound
    cases head : t.head with
    | none => exact ⟨0, by simp [hashFsck, head]⟩
    | some a =>
      obtain ⟨tbl, chains, l, here, held, first, linked, items, total⟩ := sound a head
      let fuel := l.length + chainsTotal chains tbl.numBuckets.toNat
      have buckets : fsckBuckets fuel tbl t.hh tbl.numBuckets.toNat = some tbl.numItems := by
        rw [total]
        refine fsckBuckets_of held fun i hi => ?_
        exact Nat.le_trans (chain_short chains hi) (Nat.le_add_left _ _)
      have walk : tally appOrder t.hh fuel none (some a) = some l.length := by
        rw [← first]
        exact tally_linked linked (Nat.le_add_right _ _)
      refine ⟨fuel, ?_⟩
      simp only [hashFsck, head, here, buckets, walk, Option.bind_eq_bind, Option.bind_some,
        ← items, and_self, if_true]

end SessionOffload
