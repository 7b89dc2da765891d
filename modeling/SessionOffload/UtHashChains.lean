import Mathlib.Algebra.Group.Nat.Defs
import Mathlib.Data.List.Perm.Basic
import SessionOffload.UtHash

/-! The chains of a table of uthash.h. They are given by one order of the elements, in
which every bucket selects its own: an element that is added goes in front of that order,
and an expansion puts the elements into a new one. -/
namespace SessionOffload
open Intrusive

structure Item where
  addr : Nat
  key : List Byte
  deriving DecidableEq, Repr

def Item.slot (k : Nat) (x : Item) : Nat := (hashJen x.key).toNat % 2 ^ k

def addrs (l : List Item) : List Nat := l.map Item.addr

@[simp] theorem addrs_nil : addrs [] = [] := rfl

@[simp] theorem addrs_cons (x : Item) (l : List Item) : addrs (x :: l) = x.addr :: addrs l := rfl

@[simp] theorem addrs_append (l₁ l₂ : List Item) : addrs (l₁ ++ l₂) = addrs l₁ ++ addrs l₂ :=
  List.map_append

@[simp] theorem length_addrs (l : List Item) : (addrs l).length = l.length := List.length_map _

theorem slot_lt (k : Nat) (x : Item) : x.slot k < 2 ^ k := Nat.mod_lt _ (Nat.two_pow_pos k)

theorem item_unique {l : List Item} (distinct : (addrs l).Nodup) {x y : Item} (hx : x ∈ l)
    (hy : y ∈ l) (same : x.addr = y.addr) : x = y :=
  List.inj_on_of_nodup_map distinct hx hy same

def chainItems (k : Nat) (order : List Item) (i : Nat) : List Item :=
  order.filter fun x => x.slot k == i

def chain (k : Nat) (order : List Item) (i : Nat) : List Nat := addrs (chainItems k order i)

theorem mem_chainItems {k i : Nat} {order : List Item} {x : Item} :
    x ∈ chainItems k order i ↔ x ∈ order ∧ x.slot k = i := by
  simp [chainItems]

theorem mem_chain {k i a : Nat} {order : List Item} :
    a ∈ chain k order i ↔ ∃ x ∈ order, x.slot k = i ∧ x.addr = a := by
  simp [chain, addrs, chainItems, and_assoc]

theorem chain_subset (k : Nat) (order : List Item) (i : Nat) : chain k order i ⊆ addrs order :=
  List.map_subset _ (List.filter_subset_self _)

theorem chain_nodup {order : List Item} (distinct : (addrs order).Nodup) (k i : Nat) :
    (chain k order i).Nodup :=
  distinct.sublist (List.filter_sublist.map _)

theorem length_chain_le (k : Nat) (order : List Item) (i : Nat) :
    (chain k order i).length ≤ order.length := by
  rw [chain, length_addrs]
  exact List.length_filter_le _ _

theorem chain_cons_slot (k : Nat) (x : Item) (order : List Item) :
    chain k (x :: order) (x.slot k) = x.addr :: chain k order (x.slot k) := by
  simp [chain, chainItems]

theorem chain_cons_other {k i : Nat} {x : Item} (order : List Item) (other : i ≠ x.slot k) :
    chain k (x :: order) i = chain k order i := by
  simp [chain, chainItems, other.symm]

theorem chain_split_slot (k : Nat) (x : Item) (o₁ o₂ : List Item) :
    chain k (o₁ ++ x :: o₂) (x.slot k) =
      chain k o₁ (x.slot k) ++ x.addr :: chain k o₂ (x.slot k) := by
  simp [chain, chainItems]

theorem chain_split_other {k i : Nat} {x : Item} (o₁ o₂ : List Item) (other : i ≠ x.slot k) :
    chain k (o₁ ++ x :: o₂) i = chain k (o₁ ++ o₂) i := by
  simp [chain, chainItems, other.symm]

theorem chain_append (k : Nat) (o₁ o₂ : List Item) (i : Nat) :
    chain k (o₁ ++ o₂) i = chain k o₁ i ++ chain k o₂ i := by
  simp [chain, chainItems]

theorem chain_apart {order : List Item} (distinct : (addrs order).Nodup) {k i j a : Nat}
    (other : i ≠ j) (left : a ∈ chain k order i) : a ∉ chain k order j := by
  intro right
  obtain ⟨x, hx, slot, rfl⟩ := mem_chain.mp left
  obtain ⟨y, hy, slot', same⟩ := mem_chain.mp right
  rw [item_unique distinct hy hx same, slot] at slot'
  exact other slot'

def Keyed (hh : Heap Nat UtHashHandle) (l : List Item) : Prop :=
  ∀ x ∈ l, ∃ h, hh x.addr = some h ∧ h.key = x.key ∧ h.hashv = hashJen x.key

structure Bucketed (b : UtHashBucket) (hh : Heap Nat UtHashHandle) (cells : List Nat) : Prop where
  head : b.hhHead = cells.head?
  count : b.count = BitVec.ofNat 32 cells.length
  linked : Linked bucketOrder hh none cells none

structure Filed (k : Nat) (buckets : List UtHashBucket) (hh : Heap Nat UtHashHandle)
    (order : List Item) : Prop where
  size : buckets.length = 2 ^ k
  bucket : ∀ i < 2 ^ k, ∃ b, buckets[i]? = some b ∧ Bucketed b hh (chain k order i)

theorem filed_empty (k : Nat) (hh : Heap Nat UtHashHandle) :
    Filed k (List.replicate (2 ^ k) ⟨none, 0, 0⟩) hh [] where
  size := List.length_replicate
  bucket i inside := by
    refine ⟨⟨none, 0, 0⟩, ?_, rfl, rfl, trivial⟩
    rw [List.getElem?_replicate, if_pos inside]

theorem Bucketed.untouched {b : UtHashBucket} {hh hh' : Heap Nat UtHashHandle} {cells : List Nat}
    (held : Bucketed b hh cells) (same : ∀ a ∈ cells, hh' a = hh a) : Bucketed b hh' cells :=
  ⟨held.head, held.count, held.linked.untouched same⟩

section Frames

variable {hh hh' : Heap Nat UtHashHandle} {l : List Nat}

theorem stored_bucketFrame {items : List Item} (stored : Keyed hh items)
    (frame : Frame bucketOrder hh hh' l) : Keyed hh' items := by
  intro x member
  obtain ⟨h, live, key, hashv⟩ := stored x member
  obtain ⟨h', live', rest⟩ := frame.live live
  simp only [bucketOrder, Prod.mk.injEq] at rest
  exact ⟨h', live', rest.2.2.1.trans key, rest.2.2.2.trans hashv⟩

theorem stored_appFrame {items : List Item} (stored : Keyed hh items)
    (frame : Frame appOrder hh hh' l) : Keyed hh' items := by
  intro x member
  obtain ⟨h, live, key, hashv⟩ := stored x member
  obtain ⟨h', live', rest⟩ := frame.live live
  simp only [appOrder, Prod.mk.injEq] at rest
  exact ⟨h', live', rest.2.2.1.trans key, rest.2.2.2.trans hashv⟩

theorem app_bucketFrame {before behind : Option Nat} {cells : List Nat}
    (linked : Linked appOrder hh before cells behind) (frame : Frame bucketOrder hh hh' l) :
    Linked appOrder hh' before cells behind :=
  linked.transport fun _ _ h live => by
    obtain ⟨h', live', rest⟩ := frame.live live
    simp only [bucketOrder, Prod.mk.injEq] at rest
    exact ⟨h', live', rest.1, rest.2.1⟩

theorem bucketed_appFrame {b : UtHashBucket} {cells : List Nat} (held : Bucketed b hh cells)
    (frame : Frame appOrder hh hh' l) : Bucketed b hh' cells where
  head := held.head
  count := held.count
  linked := held.linked.transport fun _ _ h live => by
    obtain ⟨h', live', rest⟩ := frame.live live
    simp only [appOrder, Prod.mk.injEq] at rest
    exact ⟨h', live', rest.1, rest.2.1⟩

theorem filed_appFrame {k : Nat} {buckets : List UtHashBucket} {order : List Item}
    (filed : Filed k buckets hh order) (frame : Frame appOrder hh hh' l) :
    Filed k buckets hh' order where
  size := filed.size
  bucket i inside := by
    obtain ⟨b, here, held⟩ := filed.bucket i inside
    exact ⟨b, here, bucketed_appFrame held frame⟩

end Frames

theorem filed_push {k : Nat} {buckets : List UtHashBucket} {hh : Heap Nat UtHashHandle}
    {order : List Item} {x : Item} {h : UtHashHandle} {b : UtHashBucket}
    (filed : Filed k buckets hh order) (distinct : (addrs (x :: order)).Nodup)
    (live : hh x.addr = some h) (here : buckets[x.slot k]? = some b) :
    ∃ hh', pushFront bucketOrder hh x.addr b.hhHead = some hh' ∧
      Frame bucketOrder hh hh' (addrs (x :: order)) ∧
      ∀ expandMult, Filed k (buckets.set (x.slot k) ⟨some x.addr, b.count + 1, expandMult⟩) hh'
        (x :: order) := by
  obtain ⟨b', here', held⟩ := filed.bucket _ (slot_lt k x)
  cases here.symm.trans here'
  have fresh := (List.nodup_cons.mp distinct).1
  have apart : (x.addr :: chain k order (x.slot k)).Nodup := by
    rw [← chain_cons_slot]
    exact chain_nodup distinct k _
  obtain ⟨hh', run, linked, frame⟩ := pushFront_spec live held.linked apart
  rw [← held.head] at run
  refine ⟨hh', run, ?_, fun expandMult => ⟨?_, fun i inside => ?_⟩⟩
  · refine frame.trans (.refl _ []) ?_ (List.nil_subset _)
    exact List.cons_subset_cons _ (chain_subset k order _)
  · rw [List.length_set, filed.size]
  · by_cases same : i = x.slot k
    · subst same
      refine ⟨_, List.getElem?_set_self (by rw [filed.size]; exact inside), ?_⟩
      rw [chain_cons_slot]
      refine ⟨rfl, ?_, linked⟩
      rw [List.length_cons, BitVec.ofNat_add, ← held.count]
      rfl
    · obtain ⟨c, there, kept⟩ := filed.bucket i inside
      refine ⟨c, ?_, ?_⟩
      · rw [List.getElem?_set_ne (Ne.symm same), there]
      · rw [chain_cons_other order same]
        refine kept.untouched fun a ha => frame.outside a ?_
        intro taken
        rcases List.mem_cons.mp taken with rfl | taken
        · exact fresh (chain_subset k order i ha)
        · exact chain_apart (List.nodup_cons.mp distinct).2 same ha taken

theorem filed_remove {k : Nat} {tbl : UtHashTable} {hh : Heap Nat UtHashHandle}
    {o₁ o₂ : List Item} {x : Item} (filed : Filed k tbl.buckets hh (o₁ ++ x :: o₂))
    (distinct : (addrs (o₁ ++ x :: o₂)).Nodup) :
    ∃ buckets hh', hashDelInBkt (x.slot k) x.addr tbl hh =
        some ({ tbl with buckets := buckets }, hh') ∧
      Filed k buckets hh' (o₁ ++ o₂) ∧ Frame bucketOrder hh hh' (addrs (o₁ ++ o₂)) := by
  obtain ⟨b, here, held⟩ := filed.bucket _ (slot_lt k x)
  have apart := chain_nodup distinct k (x.slot k)
  have linked := held.linked
  rw [chain_split_slot] at linked apart
  obtain ⟨hh', run, linked', frame⟩ := unlink_spec linked apart
  obtain ⟨h, live, _, forth⟩ := (linked_append.mp linked).2.1
  have head : (if b.hhHead = some x.addr then h.hhNext else b.hhHead) =
      (chain k (o₁ ++ o₂) (x.slot k)).head? := by
    rw [held.head, chain_split_slot, chain_append]
    cases first : chain k o₁ (x.slot k) with
    | nil => simpa [bucketOrder] using forth
    | cons a rest =>
      have other : a ≠ x.addr := by
        rw [first] at apart
        exact (List.nodup_append.mp apart).2.2 a List.mem_cons_self _ List.mem_cons_self
      simp [other]
  let b' : UtHashBucket := ⟨(chain k (o₁ ++ o₂) (x.slot k)).head?, b.count - 1, b.expandMult⟩
  refine ⟨tbl.buckets.set (x.slot k) b', hh', ?_, ⟨?_, fun i inside => ?_⟩, ?_⟩
  · simp only [hashDelInBkt, here, live, run, Option.bind_eq_bind, Option.bind_some, head, b']
  · rw [List.length_set, filed.size]
  · by_cases same : i = x.slot k
    · subst same
      refine ⟨b', List.getElem?_set_self (by rw [filed.size]; exact inside), rfl, ?_, ?_⟩
      · change b.count - 1 = _
        rw [held.count, chain_split_slot, chain_append, List.length_append, List.length_append,
          List.length_cons, ← Nat.add_assoc, BitVec.ofNat_add (_ + _) 1]
        exact BitVec.add_sub_cancel _ _
      · rw [chain_append]
        exact linked'
    · obtain ⟨c, there, kept⟩ := filed.bucket i inside
      refine ⟨c, ?_, ?_⟩
      · rw [List.getElem?_set_ne (Ne.symm same), there]
      · rw [← chain_split_other o₁ o₂ same]
        refine kept.untouched fun a ha => frame.outside a fun taken => ?_
        refine chain_apart distinct same ha ?_
        rw [chain_split_slot]
        rcases List.mem_append.mp taken with taken | taken
        · exact List.mem_append_left _ taken
        · exact List.mem_append_right _ (List.mem_cons_of_mem _ taken)
  · refine frame.trans (.refl _ []) ?_ (List.nil_subset _)
    rw [← chain_append]
    exact chain_subset k (o₁ ++ o₂) _

section Expansion

variable {k : Nat} {ideal : Word32}

theorem hashToBkt_pow (small : k ≤ 31) (hashv : Word32) :
    hashToBkt hashv (BitVec.ofNat 32 (2 ^ k)) = hashv.toNat % 2 ^ k := by
  have bound : 2 ^ k < 2 ^ 32 := Nat.pow_lt_pow_right (by decide) (by omega)
  have positive := Nat.two_pow_pos k
  have width : (BitVec.ofNat 32 (2 ^ k)).toNat = 2 ^ k := by
    rw [BitVec.toNat_ofNat, Nat.mod_eq_of_lt bound]
  have mask : (BitVec.ofNat 32 (2 ^ k) - 1#32).toNat = 2 ^ k - 1 := by
    rw [BitVec.toNat_sub_of_le, width]
    · rfl
    · rw [BitVec.le_def, width]
      exact positive
  rw [hashToBkt, BitVec.toNat_and]
  exact (congrArg _ mask).trans (Nat.and_two_pow_sub_one_eq_mod _ k)

/-- Moving an element is putting it at the front of a chain of the new array. -/
theorem expandCell_eq (numBkts : Word32) (thh : Nat) (e : Expansion) :
    expandCell numBkts ideal thh e = (e.hh thh).bind fun h =>
      (e.newBuckets[hashToBkt h.hashv numBkts]?).bind fun b =>
        (pushFront bucketOrder e.hh thh b.hhHead).map fun hh =>
          { newBuckets := e.newBuckets.set (hashToBkt h.hashv numBkts) (b.receive ideal thh)
            nonidealItems := if ideal < b.count + 1 then e.nonidealItems + 1 else e.nonidealItems
            hh := hh } := by
  cases live : e.hh thh with
  | none => simp [expandCell, live]
  | some h =>
    cases here : e.newBuckets[hashToBkt h.hashv numBkts]? with
    | none => simp [expandCell, live, here]
    | some b =>
      simp only [expandCell, live, here, pushFront, aim, Option.bind_eq_bind, Option.bind_some,
        write_live live, write_live (Function.update_self ..), Function.update_idem]
      cases b.hhHead with
      | none => rfl
      | some first =>
        simp only [Heap.writeAt, Option.map_eq_bind]
        rfl

def overfull (k : Nat) (ideal : Word32) : List Item → Word32
  | [] => 0
  | x :: order =>
    if ideal < BitVec.ofNat 32 (chain k order (x.slot k)).length + 1 then overfull k ideal order + 1
    else overfull k ideal order

structure Moved (k : Nat) (ideal : Word32) (e : Expansion) (done : List Item) : Prop where
  filed : Filed k e.newBuckets e.hh done
  nonideal : e.nonidealItems = overfull k ideal done

theorem expandCell_spec (small : k ≤ 31) {e : Expansion} {done : List Item} {x : Item}
    {h : UtHashHandle} (moved : Moved k ideal e done) (distinct : (addrs (x :: done)).Nodup)
    (live : e.hh x.addr = some h) (hashv : h.hashv = hashJen x.key) :
    ∃ e', expandCell (BitVec.ofNat 32 (2 ^ k)) ideal x.addr e = some e' ∧
      Moved k ideal e' (x :: done) ∧ Frame bucketOrder e.hh e'.hh (addrs (x :: done)) := by
  have slot : hashToBkt h.hashv (BitVec.ofNat 32 (2 ^ k)) = x.slot k := by
    rw [hashToBkt_pow small, hashv, Item.slot]
  obtain ⟨b, here, held⟩ := moved.filed.bucket _ (slot_lt k x)
  obtain ⟨hh', run, frame, filed⟩ := filed_push moved.filed distinct live here
  let nonideal := if ideal < b.count + 1 then e.nonidealItems + 1 else e.nonidealItems
  refine ⟨⟨e.newBuckets.set (x.slot k) (b.receive ideal x.addr), nonideal, hh'⟩, ?_,
    ⟨filed _, ?_⟩, frame⟩
  · rw [expandCell_eq, live, Option.bind_some, slot, here, Option.bind_some, run, Option.map_some]
  · simp only [overfull, ← held.count, moved.nonideal, nonideal]

theorem expandChain_spec (small : k ≤ 31) {items done : List Item} {e : Expansion}
    {before : Option Nat} (moved : Moved k ideal e done)
    (linked : Linked bucketOrder e.hh before (addrs items) none) (stored : Keyed e.hh items)
    (distinct : (addrs (items ++ done)).Nodup) {fuel : Nat} (enough : items.length ≤ fuel) :
    ∃ e', expandChain (BitVec.ofNat 32 (2 ^ k)) ideal fuel (addrs items).head? e = some e' ∧
      Moved k ideal e' (items.reverse ++ done) ∧
      Frame bucketOrder e.hh e'.hh (addrs (items ++ done)) := by
  induction items generalizing done e before fuel with
  | nil => exact ⟨e, by cases fuel <;> rfl, moved, .refl _ _⟩
  | cons x items ih =>
    cases fuel with
    | zero => simp at enough
    | succ fuel =>
      obtain ⟨⟨h, live, _, forth⟩, after⟩ := linked
      obtain ⟨h', live', _, hashv⟩ := stored x List.mem_cons_self
      cases live.symm.trans live'
      have swapped : (addrs (items ++ x :: done)).Nodup :=
        (List.Perm.nodup_iff (List.perm_middle.map _)).mpr distinct
      have later : (addrs (x :: done)).Nodup := by
        rw [addrs_append] at swapped
        exact (List.nodup_append.mp swapped).2.1
      obtain ⟨e₁, run₁, moved₁, frame₁⟩ := expandCell_spec small moved later live hashv
      have away : ∀ a ∈ addrs items, e₁.hh a = e.hh a := fun a ha => by
        rw [addrs_append] at swapped
        exact frame₁.outside a fun taken => (List.nodup_append.mp swapped).2.2 a ha a taken rfl
      obtain ⟨e₂, run₂, moved₂, frame₂⟩ := ih moved₁ (after.untouched away)
        (stored_bucketFrame (fun y hy => stored y (List.mem_cons_of_mem _ hy)) frame₁) swapped
        (Nat.le_of_succ_le_succ enough)
      have next : h.hhNext = (addrs items).head? := by
        rw [Option.or_none] at forth
        exact forth
      refine ⟨e₂, ?_, ?_, ?_⟩
      · simp only [addrs_cons, List.head?_cons, expandChain, live, Option.bind_eq_bind,
          Option.bind_some, run₁, next, run₂]
      · rw [List.reverse_cons, List.append_assoc, List.singleton_append]
        exact moved₂
      · refine frame₁.trans frame₂ ?_ ?_
        · simp only [List.cons_append, addrs_cons, addrs_append]
          exact List.cons_subset_cons _ (List.subset_append_right ..)
        · exact (List.perm_middle.map Item.addr).subset

def movedItems (k : Nat) (order : List Item) : Nat → List Item
  | 0 => []
  | n + 1 => (chainItems k order n).reverse ++ movedItems k order n

theorem movedItems_perm (k : Nat) (order : List Item) (n : Nat) :
    (movedItems k order n).Perm (order.filter fun x => x.slot k < n) := by
  induction n with
  | zero => simp [movedItems]
  | succ n ih =>
    have split := List.filter_append_perm (fun x : Item => x.slot k == n)
      (order.filter fun x => x.slot k < n + 1)
    rw [List.filter_filter, List.filter_filter] at split
    have here : (order.filter fun x => x.slot k == n && decide (x.slot k < n + 1)) =
        chainItems k order n := by
      refine List.filter_congr fun x _ => ?_
      rw [Bool.eq_iff_iff]
      simp only [Bool.and_eq_true, beq_iff_eq, decide_eq_true_eq]
      omega
    have below : (order.filter fun x => !(x.slot k == n) && decide (x.slot k < n + 1)) =
        order.filter fun x => x.slot k < n := by
      refine List.filter_congr fun x _ => ?_
      rw [Bool.eq_iff_iff]
      simp only [Bool.and_eq_true, Bool.not_eq_true', beq_eq_false_iff_ne, decide_eq_true_eq]
      omega
    rw [here, below] at split
    exact ((List.reverse_perm _).append ih).trans split

theorem movedItems_all (k : Nat) (order : List Item) :
    (movedItems k order (2 ^ k)).Perm order := by
  have all := movedItems_perm k order (2 ^ k)
  rwa [List.filter_eq_self.mpr fun x _ => by simpa using slot_lt k x] at all

theorem chain_after_moved {order : List Item} (distinct : (addrs order).Nodup) (k n : Nat) :
    (addrs (chainItems k order n ++ movedItems k order n)).Nodup := by
  have next := movedItems_perm k order (n + 1)
  have again : (chainItems k order n ++ movedItems k order n).Perm
      (order.filter fun x => x.slot k < n + 1) :=
    ((List.reverse_perm _).symm.append_right _).trans next
  exact (List.Perm.nodup_iff (again.map _)).mpr (distinct.sublist (List.filter_sublist.map _))

theorem expandTurns_spec {tbl : UtHashTable} {hh : Heap Nat UtHashHandle} {order : List Item}
    (small : k + 1 ≤ 31) (filed : Filed k tbl.buckets hh order) (stored : Keyed hh order)
    (distinct : (addrs order).Nodup) {fuel : Nat} (enough : order.length ≤ fuel) {n : Nat}
    (inside : n ≤ 2 ^ k) (ideal : Word32) :
    ∃ e, (List.range n).foldlM (fun e i => do
          let b ← tbl.buckets[i]?
          expandChain (BitVec.ofNat 32 (2 ^ (k + 1))) ideal fuel b.hhHead e)
        ⟨List.replicate (2 ^ (k + 1)) ⟨none, 0, 0⟩, 0, hh⟩ = some e ∧
      Moved (k + 1) ideal e (movedItems k order n) ∧
      Frame bucketOrder hh e.hh (addrs (movedItems k order n)) := by
  induction n with
  | zero => exact ⟨_, rfl, ⟨filed_empty _ _, rfl⟩, .refl _ _⟩
  | succ n ih =>
    obtain ⟨e, run, moved, frame⟩ := ih (Nat.le_of_succ_le inside)
    obtain ⟨b, here, held⟩ := filed.bucket n inside
    have apart := chain_after_moved distinct k n
    have away : ∀ a ∈ chain k order n, e.hh a = hh a := fun a ha => by
      rw [addrs_append] at apart
      exact frame.outside a fun taken => (List.nodup_append.mp apart).2.2 a ha a taken rfl
    have kept : Keyed e.hh (chainItems k order n) :=
      stored_bucketFrame (fun x hx => stored x (mem_chainItems.mp hx).1) frame
    have short : (chainItems k order n).length ≤ fuel :=
      Nat.le_trans (List.length_filter_le _ _) enough
    obtain ⟨e', run', moved', frame'⟩ :=
      expandChain_spec small moved (held.linked.untouched away) kept apart short
    refine ⟨e', ?_, moved', ?_⟩
    · rw [List.range_succ, List.foldlM_append, run]
      simp only [Option.bind_eq_bind, Option.bind_some, List.foldlM_cons, List.foldlM_nil, here,
        held.head]
      rw [chain, run']
      rfl
    · refine frame.trans frame' ?_ ?_
      · simp only [movedItems, addrs_append]
        exact List.subset_append_right ..
      · exact (((List.reverse_perm _).symm.append_right _).map Item.addr).subset

end Expansion

/-- malloc refuses the arrays of more than 2^31 buckets, which take more than 32 GiB. -/
def Refuses (malloc : Nat → Bool) : Prop := ∀ size, malloc size = true → size ≤ 2 ^ 35

def upTo32GiB (size : Nat) : Bool := size ≤ 2 ^ 35

theorem upTo32GiB_refuses : Refuses upTo32GiB := fun _ granted => of_decide_eq_true granted

structure Expanded (tbl tbl' : UtHashTable) (hh hh' : Heap Nat UtHashHandle) (k : Nat)
    (order order' : List Item) : Prop where
  perm : order'.Perm order
  filed : Filed (k + 1) tbl'.buckets hh' order'
  frame : Frame bucketOrder hh hh' (addrs order)
  small : k + 1 ≤ 31
  bkts : tbl'.numBuckets = BitVec.ofNat 32 (2 ^ (k + 1))
  doubled : tbl'.numBuckets = tbl.numBuckets * 2
  log2 : tbl'.log2NumBuckets = BitVec.ofNat 32 (k + 1)
  items : tbl'.numItems = tbl.numItems
  tail : tbl'.tail = tbl.tail
  ideal : tbl'.idealChainMaxlen = idealChainMaxlen tbl
  nonideal : tbl'.nonidealItems = overfull (k + 1) (idealChainMaxlen tbl) order'

theorem expand_cases {malloc : Nat → Bool} (refuses : Refuses malloc) {fuel : Nat}
    {tbl : UtHashTable} {hh : Heap Nat UtHashHandle} {order : List Item} {k : Nat}
    (small : k ≤ 31) (bkts : tbl.numBuckets = BitVec.ofNat 32 (2 ^ k))
    (log2 : tbl.log2NumBuckets = BitVec.ofNat 32 k) (filed : Filed k tbl.buckets hh order)
    (stored : Keyed hh order) (distinct : (addrs order).Nodup) (enough : order.length ≤ fuel) :
    (malloc (2 ^ (k + 1) * sizeofUtHashBucket) = false ∧
      hashExpandBuckets malloc fuel tbl hh = none) ∨
    ∃ tbl' hh' order', hashExpandBuckets malloc fuel tbl hh = some (tbl', hh') ∧
      Expanded tbl tbl' hh hh' k order order' := by
  have turns : tbl.numBuckets.toNat = 2 ^ k := by
    rw [bkts, BitVec.toNat_ofNat]
    exact Nat.mod_eq_of_lt (Nat.pow_lt_pow_right (by decide) (by omega))
  have wanted : 2 * tbl.numBuckets.toNat = 2 ^ (k + 1) := by rw [turns, Nat.pow_succ']
  cases granted : malloc (2 ^ (k + 1) * sizeofUtHashBucket) with
  | false => exact .inl ⟨rfl, by simp [hashExpandBuckets, wanted, granted]⟩
  | true =>
    have bound : 2 ^ (k + 1) * 2 ^ 4 ≤ 2 ^ 35 := refuses _ granted
    rw [← Nat.pow_add] at bound
    have larger : k + 1 ≤ 31 := by
      have := (Nat.pow_le_pow_iff_right (by decide : 1 < 2)).mp bound
      omega
    have doubled : tbl.numBuckets * 2 = BitVec.ofNat 32 (2 ^ (k + 1)) := by
      rw [bkts, Nat.pow_succ, BitVec.ofNat_mul]
      rfl
    obtain ⟨e, run, moved, frame⟩ := expandTurns_spec larger filed stored distinct enough
      (Nat.le_refl (2 ^ k)) (idealChainMaxlen tbl)
    have loop : expandLoop fuel (tbl.numBuckets * 2) (idealChainMaxlen tbl) tbl
        ⟨List.replicate (2 ^ (k + 1)) ⟨none, 0, 0⟩, 0, hh⟩ = some e := by
      rw [expandLoop, turns, doubled]
      exact run
    refine .inr ⟨tbl.expanded (idealChainMaxlen tbl) e, e.hh, movedItems k order (2 ^ k), ?_, ?_⟩
    · simp only [hashExpandBuckets, wanted, granted, if_true, loop, Option.bind_eq_bind,
        Option.bind_some]
    · refine ⟨movedItems_all k order, moved.filed, ?_, larger, doubled, rfl, ?_, rfl, rfl, rfl, ?_⟩
      · exact frame.trans (.refl _ []) ((movedItems_all k order).map Item.addr).subset
          (List.nil_subset _)
      · rw [BitVec.ofNat_add, ← log2]
        rfl
      · exact moved.nonideal

end SessionOffload
