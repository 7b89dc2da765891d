import SessionOffload.HashExpansion

/-! What each macro of uthash.h does to a table, in terms of the elements in the order
they were added. Later modules use these statements and do not unfold the macros. -/
namespace SessionOffload
open Intrusive

structure Binned (tbl : UtHashTable) (hh : Heap Nat UtHashHandle) (order : List Item)
    (k : Nat) : Prop where
  small : k ≤ 31
  bkts : tbl.numBuckets = BitVec.ofNat 32 (2 ^ k)
  log2 : tbl.log2NumBuckets = BitVec.ofNat 32 k
  filed : Filed k tbl.buckets hh order
  stored : Keyed hh order
  distinct : (addrs order).Nodup

structure Laid (tbl : UtHashTable) (hh : Heap Nat UtHashHandle) (l order : List Item)
    (k : Nat) : Prop where
  app : Linked appOrder hh none (addrs l) none
  tail : (addrs l).getLast? = some tbl.tail
  items : tbl.numItems = BitVec.ofNat 32 l.length
  perm : order.Perm l
  binned : Binned tbl hh order k

structure UtHash.Holds (t : UtHash) (l : List Item) : Prop where
  distinct : (addrs l).Nodup
  head : t.head = (addrs l).head?
  empty : l = [] → t.tbl = none
  table : l ≠ [] → ∃ tbl order k, t.tbl = some tbl ∧ Laid tbl t.hh l order k

def UtHash.empty (hh : Heap Nat UtHashHandle) : UtHash := ⟨none, none, hh⟩

theorem empty_holds (hh : Heap Nat UtHashHandle) : (UtHash.empty hh).Holds [] where
  distinct := List.nodup_nil
  head := rfl
  empty _ := rfl
  table more := absurd rfl more

section Untouched

variable {tbl : UtHashTable} {hh hh' : Heap Nat UtHashHandle} {order : List Item} {k : Nat}

theorem Keyed.untouched {l : List Item} (stored : Keyed hh l)
    (same : ∀ a ∈ addrs l, hh' a = hh a) : Keyed hh' l := by
  intro x member
  obtain ⟨h, live, key, hashv⟩ := stored x member
  exact ⟨h, (same x.addr (List.mem_map_of_mem member)).trans live, key, hashv⟩

theorem Binned.untouched (binned : Binned tbl hh order k)
    (same : ∀ a ∈ addrs order, hh' a = hh a) : Binned tbl hh' order k where
  small := binned.small
  bkts := binned.bkts
  log2 := binned.log2
  filed := ⟨binned.filed.size, fun i inside => by
    obtain ⟨b, here, held⟩ := binned.filed.bucket i inside
    exact ⟨b, here, held.untouched fun a ha => same a (chain_subset k order i ha)⟩⟩
  stored := binned.stored.untouched same
  distinct := binned.distinct

theorem Binned.appFrame (binned : Binned tbl hh order k) {l : List Nat}
    (frame : Frame appOrder hh hh' l) : Binned tbl hh' order k where
  small := binned.small
  bkts := binned.bkts
  log2 := binned.log2
  filed := filed_appFrame binned.filed frame
  stored := stored_appFrame binned.stored frame
  distinct := binned.distinct

theorem Laid.untouched {l : List Item} (laid : Laid tbl hh l order k)
    (same : ∀ a ∈ addrs l, hh' a = hh a) :
    Laid tbl hh' l order k where
  app := laid.app.untouched same
  tail := laid.tail
  items := laid.items
  perm := laid.perm
  binned := laid.binned.untouched fun a ha => same a ((laid.perm.map Item.addr).subset ha)

theorem UtHash.Holds.untouched {t t' : UtHash} {l : List Item} (holds : t.Holds l)
    (head : t'.head = t.head) (tbl : t'.tbl = t.tbl) (same : ∀ a ∈ addrs l, t'.hh a = t.hh a) :
    t'.Holds l where
  distinct := holds.distinct
  head := head.trans holds.head
  empty nobody := tbl.trans (holds.empty nobody)
  table more := by
    obtain ⟨tb, order, k, here, laid⟩ := holds.table more
    exact ⟨tb, order, k, tbl.trans here, laid.untouched same⟩

end Untouched

theorem numBuckets_pow {tbl : UtHashTable} {hh : Heap Nat UtHashHandle} {order : List Item}
    {k : Nat} (binned : Binned tbl hh order k) :
    tbl.numBuckets.toNat = 2 ^ k := by
  rw [binned.bkts, BitVec.toNat_ofNat]
  have := binned.small
  exact Nat.mod_eq_of_lt (Nat.pow_lt_pow_right (by decide) (by omega))

theorem UtHash.Holds.more {t : UtHash} {l : List Item} (holds : t.Holds l) (more : l ≠ []) :
    ∃ a tbl order k, t.head = some a ∧ t.tbl = some tbl ∧ Laid tbl t.hh l order k := by
  obtain ⟨tbl, order, k, here, laid⟩ := holds.table more
  obtain ⟨x, rest, rfl⟩ := List.exists_cons_of_ne_nil more
  exact ⟨x.addr, tbl, order, k, holds.head, here, laid⟩

/-- What HASH_FIND_IN_BKT compares tells the elements apart by their keys alone. -/
theorem Keyed.hits {hh : Heap Nat UtHashHandle} {l : List Item} (stored : Keyed hh l)
    {x : Item} (member : x ∈ l) (key : List Byte) :
    (hh x.addr).any (fun h => h.hashv == hashJen key && h.key == key) = true ↔ x.key = key := by
  obtain ⟨h, live, same, hashv⟩ := stored x member
  simp only [live, Option.any_some, same, hashv, Bool.and_eq_true, beq_iff_eq]
  exact ⟨fun both => both.2, fun eq => ⟨congrArg hashJen eq, eq⟩⟩

theorem find_spec {t : UtHash} {l : List Item} (holds : t.Holds l) {fuel : Nat}
    (enough : l.length ≤ fuel) (key : List Byte) :
    ∃ found, hashFind fuel t key = some found ∧
      (∀ a, found = some a → ∃ x ∈ l, x.addr = a ∧ x.key = key) ∧
      (found = none → ∀ x ∈ l, x.key ≠ key) := by
  by_cases nobody : l = []
  · subst nobody
    exact ⟨none, by simp [hashFind, holds.head], by simp, by simp⟩
  · obtain ⟨a, tbl, order, k, head, here, laid⟩ := holds.more nobody
    let slot := (hashJen key).toNat % 2 ^ k
    have bkt : hashToBkt (hashJen key) tbl.numBuckets = slot := by
      rw [laid.binned.bkts, hashToBkt_pow laid.binned.small]
    obtain ⟨b, bucket, held⟩ := laid.binned.filed.bucket slot (Nat.mod_lt _ (Nat.two_pow_pos k))
    have short : (chain k order slot).length ≤ fuel :=
      Nat.le_trans (length_chain_le _ _ _) (Nat.le_trans (Nat.le_of_eq laid.perm.length_eq) enough)
    let hit := fun h : UtHashHandle => h.hashv == hashJen key && h.key == key
    have walk := seek_linked hit held.linked short
    refine ⟨(chain k order slot).find? (fun a => (t.hh a).any hit), ?_, ?_, ?_⟩
    · simp only [hashFind, head, here, Option.bind_eq_bind, Option.bind_some, bkt, bucket,
        hashFindInBkt, held.head]
      exact walk
    · intro a found
      obtain ⟨x, member, _, rfl⟩ := mem_chain.mp (List.mem_of_find?_eq_some found)
      have met : (t.hh x.addr).any hit = true :=
        List.find?_some (p := fun a => (t.hh a).any hit) found
      have same := (laid.binned.stored.hits member key).mp met
      exact ⟨x, laid.perm.subset member, rfl, same⟩
    · intro missed x member same
      have there := laid.perm.symm.subset member
      have inChain : x.addr ∈ chain k order slot :=
        mem_chain.mpr ⟨x, there, by rw [Item.slot, same], rfl⟩
      exact List.find?_eq_none.mp missed _ inChain ((laid.binned.stored.hits there key).mpr same)

theorem count_spec {t : UtHash} {l : List Item} (holds : t.Holds l) :
    hashCount t = some (BitVec.ofNat 32 l.length) := by
  cases l with
  | nil => simp [hashCount, holds.head]
  | cons x l =>
    obtain ⟨tbl, order, k, here, laid⟩ := holds.table (List.cons_ne_nil x l)
    simp [hashCount, holds.head, here, laid.items]

def UtHash.asks (t : UtHash) : List Nat :=
  [sizeofUtHashTable, hashInitialNumBuckets * sizeofUtHashBucket,
    2 * (t.tbl.map fun tbl => tbl.numBuckets.toNat).getD hashInitialNumBuckets *
      sizeofUtHashBucket]

theorem addToTable_cases {malloc : Nat → Bool} (refuses : Refuses malloc) {fuel : Nat}
    {tbl : UtHashTable} {hh : Heap Nat UtHashHandle} {order : List Item} {k : Nat}
    (binned : Binned tbl hh order k) {x : Item} {h : UtHashHandle} (fresh : x.addr ∉ addrs order)
    (live : hh x.addr = some h) (key : h.key = x.key) (hashv : h.hashv = hashJen x.key)
    (enough : order.length < fuel) :
    (malloc (2 * tbl.numBuckets.toNat * sizeofUtHashBucket) = false ∧
      hashAddToTable malloc fuel (hashJen x.key) x.addr tbl hh = none) ∨
    ∃ tbl' hh' order' k', hashAddToTable malloc fuel (hashJen x.key) x.addr tbl hh =
        some (tbl', hh') ∧ order'.Perm (x :: order) ∧ Binned tbl' hh' order' k' ∧
      Frame bucketOrder hh hh' (addrs (x :: order)) ∧ tbl'.numItems = tbl.numItems + 1 ∧
      tbl'.tail = tbl.tail ∧
      (tbl'.numBuckets = tbl.numBuckets ∨
        tbl'.numBuckets = tbl.numBuckets * 2 ∧
          (order.length + 1 < 2 ^ 32 → ChainsAccounted tbl')) := by
  have slot : hashToBkt (hashJen x.key) tbl.numBuckets = x.slot k := by
    rw [binned.bkts, hashToBkt_pow binned.small, Item.slot]
  have distinct : (addrs (x :: order)).Nodup := List.nodup_cons.mpr ⟨fresh, binned.distinct⟩
  obtain ⟨b, here, held⟩ := binned.filed.bucket _ (slot_lt k x)
  obtain ⟨hh₁, run, frame, filed⟩ := filed_push binned.filed distinct live here
  let b₁ : UtHashBucket := ⟨some x.addr, b.count + 1, b.expandMult⟩
  let tbl₁ := { tbl with numItems := tbl.numItems + 1, buckets := tbl.buckets.set (x.slot k) b₁ }
  have stored : Keyed hh (x :: order) := by
    intro y member
    rcases List.mem_cons.mp member with rfl | member
    · exact ⟨h, live, key, hashv⟩
    · exact binned.stored y member
  have stored₁ : Keyed hh₁ (x :: order) := stored_bucketFrame stored frame
  have filed₁ : Filed k tbl₁.buckets hh₁ (x :: order) := filed b.expandMult
  have unfolded : hashAddToTable malloc fuel (hashJen x.key) x.addr tbl hh =
      if expandNeeded tbl₁ b₁ then hashExpandBuckets malloc fuel tbl₁ hh₁
      else some (tbl₁, hh₁) := by
    simp only [hashAddToTable, hashAddToBkt, slot, here, run, Option.bind_eq_bind,
      Option.bind_some, tbl₁, b₁]
  rw [unfolded]
  cases needed : expandNeeded tbl₁ b₁ with
  | false =>
    exact .inr ⟨tbl₁, hh₁, x :: order, k, rfl, .refl _,
      ⟨binned.small, binned.bkts, binned.log2, filed₁, stored₁, distinct⟩, frame, rfl, rfl,
      .inl rfl⟩
  | true =>
    rw [if_pos rfl]
    have bkts₁ : tbl₁.numBuckets = BitVec.ofNat 32 (2 ^ k) := binned.bkts
    rcases expand_cases refuses binned.small bkts₁ binned.log2 filed₁ stored₁ distinct enough with
      ⟨refused, failed⟩ | ⟨tbl₂, hh₂, order₂, run₂, done⟩
    · refine .inl ⟨?_, failed⟩
      rwa [numBuckets_pow binned, ← Nat.pow_succ']
    · refine .inr ⟨tbl₂, hh₂, order₂, k + 1, run₂, done.perm, ?_, ?_, done.items, done.tail,
        .inr ⟨done.doubled, fun few => done.accounted binned.bkts binned.log2 few⟩⟩
      · refine ⟨done.small, done.bkts, done.log2, done.filed, ?_, ?_⟩
        · exact fun y hy => stored_bucketFrame stored₁ done.frame y (done.perm.subset hy)
        · exact (List.Perm.nodup_iff (done.perm.map _)).mpr distinct
      · exact frame.trans done.frame (List.Subset.refl _) (List.Subset.refl _)

theorem makeTable_cases (malloc : Nat → Bool) (add : Nat) (hh : Heap Nat UtHashHandle) :
    ((∃ size ∈ [sizeofUtHashTable, hashInitialNumBuckets * sizeofUtHashBucket],
        malloc size = false) ∧ hashMakeTable malloc add = none) ∨
    ∃ tbl, hashMakeTable malloc add = some tbl ∧ Binned tbl hh [] 5 ∧ tbl.tail = add ∧
      tbl.numItems = 0 := by
  cases first : malloc sizeofUtHashTable with
  | false => exact .inl ⟨⟨_, List.mem_cons_self, first⟩, by simp [hashMakeTable, first]⟩
  | true =>
    cases second : malloc (hashInitialNumBuckets * sizeofUtHashBucket) with
    | false =>
      exact .inl ⟨⟨_, List.mem_cons_of_mem _ List.mem_cons_self, second⟩,
        by simp [hashMakeTable, second]⟩
    | true =>
      refine .inr ⟨_, by simp [hashMakeTable, first, second]; rfl, ?_, rfl, rfl⟩
      exact ⟨by decide, rfl, rfl, filed_empty 5 hh, fun x hx => absurd hx List.not_mem_nil,
        List.nodup_nil⟩

structure PutBehind (l : List Item) (x : Item) (t t' : UtHash) : Prop where
  holds : t'.Holds (l ++ [x])
  outside : ∀ b, b ∉ addrs (l ++ [x]) → t'.hh b = t.hh b
  grown : ∀ tbl tbl', t.tbl = some tbl → t'.tbl = some tbl' →
    tbl'.numBuckets = tbl.numBuckets ∨
      tbl'.numBuckets = tbl.numBuckets * 2 ∧ (l.length + 1 < 2 ^ 32 → ChainsAccounted tbl')

structure KeyWritten (t : UtHash) (x : Item) (h : UtHashHandle)
    (hh : Heap Nat UtHashHandle) : Prop where
  write : t.hh.write x.addr (fun h => { h with hashv := hashJen x.key, key := x.key }) = some hh
  live : hh x.addr = some h
  key : h.key = x.key
  hashv : h.hashv = hashJen x.key
  same : ∀ b, b ≠ x.addr → hh b = t.hh b

section Add
variable {malloc : Nat → Bool} {fuel : Nat} {t : UtHash} {l : List Item} {x : Item}
  {h : UtHashHandle} {hh : Heap Nat UtHashHandle}

theorem key_written (live : t.hh x.addr = some h) :
    ∃ h' hh, KeyWritten t x h' hh :=
  ⟨{ h with hashv := hashJen x.key, key := x.key }, Function.update t.hh x.addr _,
    write_live live _, Function.update_self .., rfl, rfl,
    fun _ away => Function.update_of_ne away _ _⟩

theorem addrs_nodup_append (distinct : (addrs l).Nodup) (fresh : x.addr ∉ addrs l) :
    (addrs (l ++ [x])).Nodup := by
  rw [addrs_append]
  exact List.nodup_append.mpr ⟨distinct, List.nodup_singleton _, fun a ha b hb same =>
    fresh (List.mem_singleton.mp hb ▸ same ▸ ha)⟩

theorem add_first (refuses : Refuses malloc) (holds : t.Holds []) (written : KeyWritten t x h hh)
    (enough : 0 < fuel) :
    ((∃ size ∈ t.asks, malloc size = false) ∧ hashAdd malloc fuel x.key x.addr t = none) ∨
    ∃ t', hashAdd malloc fuel x.key x.addr t = some t' ∧ PutBehind [] x t t' := by
  have head : t.head = none := holds.head
  have noTable : t.tbl = none := holds.empty rfl
  obtain ⟨hh₁, run₁, live₁, _, frame₁⟩ :=
    aim_spec (F := appOrder) (l := []) written.live trivial List.not_mem_nil none none
  rcases makeTable_cases malloc x.addr hh₁ with ⟨⟨size, member, refused⟩, failed⟩ |
    ⟨tbl, made, binned, tail, items⟩
  · refine .inl ⟨⟨size, List.mem_append_left [_] member, refused⟩, ?_⟩
    simp only [hashAdd, written.write, head, run₁, failed, Option.bind_eq_bind, Option.bind_some,
      Option.bind_none]
  · rcases addToTable_cases refuses binned List.not_mem_nil live₁ written.key written.hashv
      enough with ⟨refused, failed⟩ | ⟨tbl₂, hh₂, order₂, k₂, run₂, perm, binned₂, frame₂,
        items₂, tail₂, _⟩
    · refine .inl ⟨⟨_, ?_, refused⟩, ?_⟩
      · simp [UtHash.asks, noTable, binned.bkts, hashInitialNumBuckets]
      · simp only [hashAdd, written.write, head, run₁, made, failed, Option.bind_eq_bind,
          Option.bind_some, Option.bind_none]
    · have laid : Laid tbl₂ hh₂ [x] order₂ k₂ := by
        refine ⟨?_, ?_, ?_, perm, binned₂⟩
        · have single : Linked appOrder hh₁ none [x.addr] none := ⟨⟨_, live₁, rfl, rfl⟩, trivial⟩
          exact app_bucketFrame single frame₂
        · simp [tail₂, tail]
        · simp [items₂, items]
      refine .inr ⟨⟨some x.addr, some tbl₂, hh₂⟩, ?_, ⟨?_, fun b away => ?_, ?_⟩⟩
      · simp only [hashAdd, written.write, head, run₁, made, run₂, Option.bind_eq_bind,
          Option.bind_some]
      · have distinct : (addrs [x]).Nodup := List.nodup_singleton _
        exact ⟨distinct, rfl, by simp, fun _ => ⟨tbl₂, order₂, k₂, rfl, laid⟩⟩
      · have apart : b ∉ [x.addr] := away
        have other : b ≠ x.addr := fun same => apart (List.mem_singleton.mpr same)
        have kept := (frame₂.outside b apart).trans (frame₁.outside b apart)
        exact kept.trans (written.same b other)
      · intro tbl _ there
        rw [noTable] at there
        cases there

theorem add_behind (refuses : Refuses malloc) (holds : t.Holds l) (more : l ≠ [])
    (fresh : x.addr ∉ addrs l) (written : KeyWritten t x h hh) (enough : l.length < fuel) :
    ((∃ size ∈ t.asks, malloc size = false) ∧ hashAdd malloc fuel x.key x.addr t = none) ∨
    ∃ t', hashAdd malloc fuel x.key x.addr t = some t' ∧ PutBehind l x t t' := by
  have distinct := addrs_nodup_append holds.distinct fresh
  obtain ⟨a, tbl, order, k, head, here, laid⟩ := holds.more more
  have away₀ : ∀ b ∈ addrs l, hh b = t.hh b :=
    fun b member => written.same b (fun same => fresh (same ▸ member))
  have inOrder : addrs order ⊆ addrs l := (laid.perm.map Item.addr).subset
  obtain ⟨hh₁, run₁, linked₁, frame₁⟩ :=
    pushBack_spec written.live (laid.app.untouched away₀) (by simpa using distinct) laid.tail
  obtain ⟨h₁, live₁, rest⟩ := frame₁.live written.live
  simp only [appOrder, Prod.mk.injEq] at rest
  have binned₁ : Binned { tbl with tail := x.addr } hh₁ order k := by
    have kept := (laid.binned.untouched fun b hb => away₀ b (inOrder hb)).appFrame frame₁
    exact ⟨kept.small, kept.bkts, kept.log2, kept.filed, kept.stored, kept.distinct⟩
  have enough' : order.length < fuel := lt_of_eq_of_lt laid.perm.length_eq enough
  rcases addToTable_cases refuses binned₁ (fun taken => fresh (inOrder taken)) live₁
    (rest.2.2.1.trans written.key) (rest.2.2.2.trans written.hashv) enough' with
    ⟨refused, failed⟩ | ⟨tbl₂, hh₂, order₂, k₂, run₂, perm, binned₂, frame₂, items₂, tail₂, grown⟩
  · refine .inl ⟨⟨_, ?_, refused⟩, ?_⟩
    · simp [UtHash.asks, here]
    · simp only [hashAdd, written.write, head, here, run₁, failed, Option.bind_eq_bind,
        Option.bind_some, Option.bind_none]
  · have laid₂ : Laid tbl₂ hh₂ (l ++ [x]) order₂ k₂ := by
      refine ⟨?_, ?_, ?_, ?_, binned₂⟩
      · rw [addrs_append]
        exact app_bucketFrame linked₁ frame₂
      · simp [tail₂]
      · rw [items₂, List.length_append, BitVec.ofNat_add, ← laid.items]
        rfl
      · exact (perm.trans (laid.perm.cons x)).trans (List.perm_append_singleton x l).symm
    refine .inr ⟨⟨some a, some tbl₂, hh₂⟩, ?_, ⟨?_, fun b away => ?_, ?_⟩⟩
    · simp only [hashAdd, written.write, head, here, run₁, run₂, Option.bind_eq_bind,
        Option.bind_some]
    · refine ⟨distinct, ?_, by simp, fun _ => ⟨tbl₂, order₂, k₂, rfl, laid₂⟩⟩
      rw [addrs_append, List.head?_append, ← holds.head, head]
      rfl
    · rw [addrs_append] at away
      have apart₁ : b ∉ addrs l ++ [x.addr] := away
      have apart₂ : b ∉ addrs (x :: order) := by
        intro taken
        rcases List.mem_cons.mp taken with rfl | taken
        · exact apart₁ (List.mem_append_right _ List.mem_cons_self)
        · exact apart₁ (List.mem_append_left _ (inOrder taken))
      have other : b ≠ x.addr :=
        fun same => apart₁ (same ▸ List.mem_append_right _ List.mem_cons_self)
      have kept := (frame₂.outside b apart₂).trans (frame₁.outside b apart₁)
      exact kept.trans (written.same b other)
    · intro old new there now
      cases here.symm.trans there
      cases now
      rwa [laid.perm.length_eq] at grown

/-- HASH_ADD of a block that is not in the table puts it behind all the others, or ends the
program because an array is refused. -/
theorem add_item (refuses : Refuses malloc) (holds : t.Holds l) (fresh : x.addr ∉ addrs l)
    (live : t.hh x.addr = some h) (enough : l.length < fuel) :
    ((∃ size ∈ t.asks, malloc size = false) ∧ hashAdd malloc fuel x.key x.addr t = none) ∨
    ∃ t', hashAdd malloc fuel x.key x.addr t = some t' ∧ PutBehind l x t t' := by
  obtain ⟨h', hh, written⟩ := key_written live
  by_cases first : l = []
  · subst first
    exact add_first refuses holds written enough
  · exact add_behind refuses holds first fresh written enough

end Add

theorem Binned.remove {tbl : UtHashTable} {hh : Heap Nat UtHashHandle} {order : List Item}
    {k : Nat} (binned : Binned tbl hh order k) {x : Item} (member : x ∈ order) :
    ∃ tbl' hh' order', hashDelInBkt (x.slot k) x.addr tbl hh = some (tbl', hh') ∧
      order.Perm (x :: order') ∧ Binned tbl' hh' order' k ∧
      Frame bucketOrder hh hh' (addrs order') ∧ tbl'.numItems = tbl.numItems ∧
      tbl'.tail = tbl.tail := by
  obtain ⟨o₁, o₂, rfl⟩ := List.append_of_mem member
  obtain ⟨buckets, hh', run, filed, frame⟩ := filed_remove binned.filed binned.distinct
  have sub : (o₁ ++ o₂).Sublist (o₁ ++ x :: o₂) :=
    (List.Sublist.refl o₁).append (List.sublist_cons_self x o₂)
  refine ⟨{ tbl with buckets := buckets }, hh', o₁ ++ o₂, run, List.perm_middle, ?_, frame, rfl,
    rfl⟩
  exact ⟨binned.small, binned.bkts, binned.log2, filed,
    stored_bucketFrame (fun y hy => binned.stored y (sub.subset hy)) frame,
    binned.distinct.sublist (sub.map _)⟩

/-- The tail after a deletion: it moves back only when the last element goes. -/
theorem tail_spec {l₁ l₂ : List Item} {x : Item} (distinct : (addrs (l₁ ++ x :: l₂)).Nodup)
    (more : l₁ ++ l₂ ≠ []) {tail : Nat} (last : (addrs (l₁ ++ x :: l₂)).getLast? = some tail) :
    (if x.addr = tail then (addrs l₁).getLast? else some tail) =
      (addrs (l₁ ++ l₂)).getLast? := by
  cases l₂ with
  | nil =>
    have same : x.addr = tail := by simpa using last
    rw [if_pos same, List.append_nil]
  | cons y l₂ =>
    have kept : (addrs (y :: l₂)).getLast? = some tail := by
      rw [addrs_append, addrs_cons, List.getLast?_append] at last
      simpa using last
    have member : tail ∈ addrs (y :: l₂) := List.mem_of_getLast? kept
    have other : x.addr ≠ tail := by
      rw [addrs_append, addrs_cons] at distinct
      have apart := (List.nodup_cons.mp (List.nodup_append.mp distinct).2.1).1
      exact fun same => apart (same ▸ member)
    rw [if_neg other, addrs_append, List.getLast?_append, kept]
    rfl

theorem UtHash.Holds.handle {t : UtHash} {l₁ l₂ : List Item} {x : Item}
    (holds : t.Holds (l₁ ++ x :: l₂)) :
    ∃ h, t.hh x.addr = some h ∧ h.prev = (addrs l₁).getLast? ∧ h.next = (addrs l₂).head? := by
  obtain ⟨_, tbl, order, k, _, _, laid⟩ := holds.more (by simp)
  have linked := laid.app
  rw [addrs_append, addrs_cons] at linked
  obtain ⟨_, ⟨h, live, back, forth⟩, _⟩ := linked_append.mp linked
  rw [Option.or_none] at back forth
  exact ⟨h, live, back, forth⟩

theorem Binned.slot {tbl : UtHashTable} {hh : Heap Nat UtHashHandle} {order : List Item} {k : Nat}
    (binned : Binned tbl hh order k) {x : Item} {h : UtHashHandle} (member : x ∈ order)
    (live : hh x.addr = some h) : hashToBkt h.hashv tbl.numBuckets = x.slot k := by
  obtain ⟨h', live', _, hashv⟩ := binned.stored x member
  cases live.symm.trans live'
  rw [binned.bkts, hashToBkt_pow binned.small, hashv, Item.slot]

theorem delete_item {t : UtHash} {l₁ l₂ : List Item} {x : Item}
    (holds : t.Holds (l₁ ++ x :: l₂)) :
    ∃ t', hashDeleteHh x.addr t = some t' ∧ t'.Holds (l₁ ++ l₂) ∧
      ∀ b, b ∉ addrs (l₁ ++ l₂) → t'.hh b = t.hh b := by
  have distinct := holds.distinct
  obtain ⟨a, tbl, order, k, head, here, laid⟩ := holds.more (by simp)
  obtain ⟨h, live, prev, next⟩ := holds.handle
  have linked := laid.app
  rw [addrs_append, addrs_cons] at linked
  have sub : (l₁ ++ l₂).Sublist (l₁ ++ x :: l₂) :=
    (List.Sublist.refl l₁).append (List.sublist_cons_self x l₂)
  by_cases more : l₁ ++ l₂ = []
  · obtain ⟨rfl, rfl⟩ := List.append_eq_nil_iff.mp more
    refine ⟨⟨none, none, t.hh⟩, ?_, empty_holds t.hh, fun b _ => rfl⟩
    simp only [hashDeleteHh, live, here, prev, next, Option.bind_eq_bind, Option.bind_some]
    rfl
  · have company : ¬(h.prev = none ∧ h.next = none) := by
      rw [prev, next, List.getLast?_eq_none_iff, List.head?_eq_none_iff]
      rintro ⟨left, right⟩
      exact more (by rw [List.map_eq_nil_iff.mp left, List.map_eq_nil_iff.mp right]; rfl)
    have member : x ∈ order := laid.perm.symm.subset (by simp)
    have bkt : hashToBkt h.hashv tbl.numBuckets = x.slot k := laid.binned.slot member live
    obtain ⟨tail, last⟩ : ∃ tail, (addrs (l₁ ++ l₂)).getLast? = some tail :=
      Option.ne_none_iff_exists'.mp fun nobody =>
        more (List.map_eq_nil_iff.mp (List.getLast?_eq_none_iff.mp nobody))
    have moved := (tail_spec distinct more laid.tail).trans last
    rw [← prev] at moved
    have apart := distinct
    rw [addrs_append, addrs_cons] at apart
    obtain ⟨hh₁, run₁, linked₁, frame₁⟩ := unlink_spec linked apart
    rw [← addrs_append] at linked₁ frame₁
    have binned₁ : Binned { tbl with tail := tail } hh₁ order k := by
      have kept := laid.binned.appFrame frame₁
      exact ⟨kept.small, kept.bkts, kept.log2, kept.filed, kept.stored, kept.distinct⟩
    obtain ⟨tbl₂, hh₂, order₂, run₂, perm, binned₂, frame₂, items, tail₂⟩ :=
      binned₁.remove member
    have perm₂ : order₂.Perm (l₁ ++ l₂) :=
      ((perm.symm.trans laid.perm).trans List.perm_middle).cons_inv
    have first : (if h.prev = none then h.next else t.head) = (addrs (l₁ ++ l₂)).head? := by
      rw [prev, next, holds.head, addrs_append, addrs_append, List.head?_append,
        List.head?_append]
      cases l₁ <;> simp
    refine ⟨⟨(addrs (l₁ ++ l₂)).head?, some { tbl₂ with numItems := tbl₂.numItems - 1 }, hh₂⟩, ?_,
      ⟨distinct.sublist (sub.map _), rfl, fun nobody => absurd nobody more, fun _ =>
        ⟨_, order₂, k, rfl, app_bucketFrame linked₁ frame₂, ?_, ?_, perm₂, ?_⟩⟩, fun b away => ?_⟩
    · simp only [hashDeleteHh, live, here, if_neg company, moved, run₁, bkt, run₂, first,
        Option.bind_eq_bind, Option.bind_some]
    · exact last.trans (congrArg some tail₂.symm)
    · change tbl₂.numItems - 1 = _
      rw [items, laid.items, List.length_append, List.length_append, List.length_cons,
        ← Nat.add_assoc, BitVec.ofNat_add (_ + _) 1]
      exact BitVec.add_sub_cancel _ _
    · exact ⟨binned₂.small, binned₂.bkts, binned₂.log2, binned₂.filed, binned₂.stored,
        binned₂.distinct⟩
    · have away₂ : b ∉ addrs order₂ := fun taken => away ((perm₂.map Item.addr).subset taken)
      exact (frame₂.outside b away₂).trans (frame₁.outside b away)

section Fsck

variable {tbl : UtHashTable} {hh : Heap Nat UtHashHandle} {fuel n : Nat}

def chainsTotal (chains : Nat → List Nat) : Nat → Nat
  | 0 => 0
  | n + 1 => chainsTotal chains n + (chains n).length

theorem fsckBuckets_of {chains : Nat → List Nat}
    (held : ∀ i < n, ∃ b, tbl.buckets[i]? = some b ∧ Bucketed b hh (chains i))
    (short : ∀ i < n, (chains i).length ≤ fuel) :
    fsckBuckets fuel tbl hh n = some (BitVec.ofNat 32 (chainsTotal chains n)) := by
  induction n with
  | zero => rfl
  | succ n ih =>
    obtain ⟨b, here, bucket⟩ := held n (Nat.lt_succ_self n)
    have walk := tally_linked bucket.linked (short n (Nat.lt_succ_self n))
    rw [← bucket.head] at walk
    have before := ih (fun i hi => held i (Nat.lt_succ_of_lt hi))
      (fun i hi => short i (Nat.lt_succ_of_lt hi))
    simp only [fsckBuckets, before, here, walk, bucket.count, if_true, Option.bind_eq_bind,
      Option.bind_some, chainsTotal, BitVec.ofNat_add]

theorem of_fsckBuckets {count : Word32} (passed : fsckBuckets fuel tbl hh n = some count) :
    ∃ chains : Nat → List Nat,
      (∀ i < n, ∃ b, tbl.buckets[i]? = some b ∧ Bucketed b hh (chains i)) ∧
      count = BitVec.ofNat 32 (chainsTotal chains n) := by
  induction n generalizing count with
  | zero => exact ⟨fun _ => [], by simp, (Option.some.inj passed).symm⟩
  | succ n ih =>
    simp only [fsckBuckets, Option.bind_eq_bind, Option.bind_eq_some_iff] at passed
    obtain ⟨first, before, b, here, size, walk, passed⟩ := passed
    obtain ⟨chains, held, total⟩ := ih before
    obtain ⟨cells, head, length, linked⟩ := linked_of_tally walk
    split at passed
    · rename_i counted
      cases passed
      refine ⟨Function.update chains n cells, fun i hi => ?_, ?_⟩
      · by_cases same : i = n
        · subst same
          rw [Function.update_self]
          exact ⟨b, here, head.symm, by rw [counted, length], linked⟩
        · rw [Function.update_of_ne same]
          exact held i (by omega)
      · have kept : ∀ m ≤ n, chainsTotal (Function.update chains n cells) m =
            chainsTotal chains m := fun m hm => by
          induction m with
          | zero => rfl
          | succ m step =>
            rw [chainsTotal, chainsTotal, step (by omega), Function.update_of_ne (by omega)]
        rw [chainsTotal, kept n (Nat.le_refl n), Function.update_self, length, total,
          BitVec.ofNat_add]
    · cases passed

theorem chainsTotal_moved (k : Nat) (order : List Item) (n : Nat) :
    chainsTotal (chain k order) n = (movedItems k order n).length := by
  induction n with
  | zero => rfl
  | succ n ih =>
    rw [chainsTotal, ih, movedItems, List.length_append, List.length_reverse, Nat.add_comm,
      chain, length_addrs]

theorem fsck_passes {t : UtHash} {l : List Item} (holds : t.Holds l)
    (enough : l.length ≤ fuel) : hashFsck fuel t = some () := by
  by_cases nobody : l = []
  · subst nobody
    simp [hashFsck, holds.head]
  · obtain ⟨a, tbl, order, k, head, here, laid⟩ := holds.more nobody
    have short : order.length ≤ fuel := Nat.le_trans (Nat.le_of_eq laid.perm.length_eq) enough
    have chains := fsckBuckets_of laid.binned.filed.bucket
      (fun i _ => Nat.le_trans (length_chain_le k order i) short)
    have every : chainsTotal (chain k order) (2 ^ k) = l.length := by
      rw [chainsTotal_moved, (movedItems_all k order).length_eq, laid.perm.length_eq]
    have fits : (addrs l).length ≤ fuel := by rwa [length_addrs]
    have whole := tally_linked laid.app fits
    rw [← holds.head, head] at whole
    simp [hashFsck, head, here, numBuckets_pow laid.binned, chains, whole, laid.items, every]

end Fsck

end SessionOffload
