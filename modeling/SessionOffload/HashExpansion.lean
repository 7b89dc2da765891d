import Mathlib.Algebra.GroupWithZero.Nat
import Mathlib.Algebra.BigOperators.Group.Finset.Piecewise
import Mathlib.Algebra.BigOperators.Group.Finset.Basic
import SessionOffload.UtHashChains

/-! The bookkeeping of HASH_EXPAND_BUCKETS: how long the chains should ideally be, and how
many elements lie further down. Further expansions are inhibited by these two numbers. -/
namespace SessionOffload
open Intrusive

/-- The bookkeeping of an expansion, as the comments of uthash.h word it: the ideal chain
length is ceil(n/b), and the nonideal items are those whose chain position exceeds it. -/
structure ChainsAccounted (tbl : UtHashTable) : Prop where
  ideal : tbl.idealChainMaxlen.toNat =
    (tbl.numItems.toNat + tbl.numBuckets.toNat - 1) / tbl.numBuckets.toNat
  nonideal : tbl.nonidealItems.toNat =
    (tbl.buckets.map fun b => b.count.toNat - tbl.idealChainMaxlen.toNat).sum

theorem overfull_sum (k : Nat) (ideal : Word32) (order : List Item)
    (few : order.length < 2 ^ 32) :
    (overfull k ideal order).toNat =
        ∑ i ∈ Finset.range (2 ^ k), ((chain k order i).length - ideal.toNat) ∧
      (overfull k ideal order).toNat ≤ order.length := by
  induction order with
  | nil => simp [overfull, chain, chainItems]
  | cons x order ih =>
    obtain ⟨sum, bound⟩ := ih (Nat.lt_of_succ_lt few)
    have short := length_chain_le k order (x.slot k)
    rw [List.length_cons] at few
    have next : (BitVec.ofNat 32 (chain k order (x.slot k)).length + 1#32).toNat =
        (chain k order (x.slot k)).length + 1 := by
      rw [BitVec.toNat_add, BitVec.toNat_ofNat, BitVec.toNat_ofNat]
      omega
    have split : ∑ i ∈ Finset.range (2 ^ k), ((chain k (x :: order) i).length - ideal.toNat) =
        ∑ i ∈ Finset.range (2 ^ k), ((chain k order i).length - ideal.toNat) +
          if ideal.toNat < (chain k order (x.slot k)).length + 1 then 1 else 0 := by
      rw [← Finset.sum_erase_add _ _ (Finset.mem_range.mpr (slot_lt k x)),
        ← Finset.sum_erase_add (a := x.slot k) _ (fun i => (chain k order i).length - ideal.toNat)
          (Finset.mem_range.mpr (slot_lt k x))]
      have others : ∀ i ∈ (Finset.range (2 ^ k)).erase (x.slot k),
          (chain k (x :: order) i).length - ideal.toNat =
            (chain k order i).length - ideal.toNat := fun i hi => by
        rw [chain_cons_other order (Finset.ne_of_mem_erase hi)]
      rw [Finset.sum_congr rfl others, chain_cons_slot, List.length_cons]
      split <;> omega
    rw [split, ← sum, overfull]
    by_cases deep : ideal.toNat < (chain k order (x.slot k)).length + 1
    · have cond : ideal < BitVec.ofNat 32 (chain k order (x.slot k)).length + 1 := by
        rw [BitVec.lt_def]
        exact next.symm ▸ deep
      have add : (overfull k ideal order + 1).toNat = (overfull k ideal order).toNat + 1 := by
        change ((overfull k ideal order).toNat + 1) % 2 ^ 32 = _
        omega
      rw [if_pos cond, if_pos deep, List.length_cons, add]
      omega
    · have cond : ¬ideal < BitVec.ofNat 32 (chain k order (x.slot k)).length + 1 := by
        rw [BitVec.lt_def]
        exact next.symm ▸ deep
      rw [if_neg cond, if_neg deep, List.length_cons]
      omega

theorem filed_sum {k : Nat} {buckets : List UtHashBucket} {hh : Heap Nat UtHashHandle}
    {order : List Item} (filed : Filed k buckets hh order) (few : order.length < 2 ^ 32)
    (ideal : Nat) :
    (buckets.map fun b => b.count.toNat - ideal).sum =
      ∑ i ∈ Finset.range (2 ^ k), ((chain k order i).length - ideal) := by
  have same : (buckets.map fun b => b.count.toNat - ideal) =
      (List.range (2 ^ k)).map fun i => (chain k order i).length - ideal := by
    refine List.ext_getElem? fun i => ?_
    rw [List.getElem?_map, List.getElem?_map]
    by_cases inside : i < 2 ^ k
    · obtain ⟨b, here, held⟩ := filed.bucket i inside
      have short := length_chain_le k order i
      rw [here, List.getElem?_range inside, Option.map_some, Option.map_some, held.count,
        BitVec.toNat_ofNat, Nat.mod_eq_of_lt (by omega)]
    · rw [List.getElem?_eq_none (by rw [filed.size]; omega),
        List.getElem?_eq_none (by rw [List.length_range]; omega)]
      rfl
  rw [same]
  rfl

theorem ceil_div (n b : Nat) (positive : 0 < b) :
    n / b + (if n % b ≠ 0 then 1 else 0) = (n + b - 1) / b := by
  have whole := Nat.div_add_mod n b
  have small := Nat.mod_lt n positive
  by_cases exact : n % b = 0
  · rw [if_neg (by simpa using exact)]
    refine (Nat.div_eq_of_lt_le ?_ ?_).symm
    · rw [Nat.add_zero, Nat.mul_comm]
      omega
    · rw [Nat.add_zero, Nat.succ_mul, Nat.mul_comm]
      omega
  · rw [if_pos exact]
    refine (Nat.div_eq_of_lt_le ?_ ?_).symm
    · rw [Nat.succ_mul, Nat.mul_comm]
      omega
    · rw [Nat.succ_mul, Nat.succ_mul, Nat.mul_comm]
      omega

theorem ideal_ceil {tbl : UtHashTable} {k : Nat} (small : k + 1 ≤ 31)
    (bkts : tbl.numBuckets = BitVec.ofNat 32 (2 ^ k))
    (log2 : tbl.log2NumBuckets = BitVec.ofNat 32 k) :
    (idealChainMaxlen tbl).toNat =
      (tbl.numItems.toNat + 2 ^ (k + 1) - 1) / 2 ^ (k + 1) := by
  have doubled : tbl.numBuckets * 2 = BitVec.ofNat 32 (2 ^ (k + 1)) := by
    rw [bkts, Nat.pow_succ, BitVec.ofNat_mul]
    rfl
  have shift : (tbl.log2NumBuckets + 1).toNat = k + 1 := by
    rw [log2]
    change (k % 2 ^ 32 + 1) % 2 ^ 32 = _
    omega
  have low : (tbl.numItems &&& (tbl.numBuckets * 2 - 1)).toNat =
      tbl.numItems.toNat % 2 ^ (k + 1) := by
    rw [doubled]
    exact hashToBkt_pow small tbl.numItems
  have flag : (tbl.numItems &&& (tbl.numBuckets * 2 - 1) ≠ 0) ↔
      tbl.numItems.toNat % 2 ^ (k + 1) ≠ 0 := by
    rw [← low, ne_eq, ne_eq, ← BitVec.toNat_inj]
    rfl
  have high : (tbl.numItems >>> (tbl.log2NumBuckets + 1).toNat).toNat =
      tbl.numItems.toNat / 2 ^ (k + 1) := by
    rw [shift, BitVec.toNat_ushiftRight, Nat.shiftRight_eq_div_pow]
  have room : tbl.numItems.toNat / 2 ^ (k + 1) + 1 < 2 ^ 32 := by
    have := Nat.div_le_self tbl.numItems.toNat (2 ^ (k + 1))
    have half : tbl.numItems.toNat / 2 ^ (k + 1) ≤ tbl.numItems.toNat / 2 :=
      Nat.div_le_div_left (Nat.le_self_pow (by omega) 2) (by decide)
    have := tbl.numItems.isLt
    omega
  rw [← ceil_div _ _ (Nat.two_pow_pos _), idealChainMaxlen, BitVec.toNat_add, high]
  by_cases rest : tbl.numItems.toNat % 2 ^ (k + 1) ≠ 0
  · rw [if_pos (flag.mpr rest), if_pos rest]
    exact Nat.mod_eq_of_lt room
  · rw [if_neg (fun h => rest (flag.mp h)), if_neg rest]
    exact Nat.mod_eq_of_lt (Nat.lt_of_succ_lt room)

theorem Expanded.accounted {tbl tbl' : UtHashTable} {hh hh' : Heap Nat UtHashHandle} {k : Nat}
    {order order' : List Item} (done : Expanded tbl tbl' hh hh' k order order')
    (bkts : tbl.numBuckets = BitVec.ofNat 32 (2 ^ k))
    (log2 : tbl.log2NumBuckets = BitVec.ofNat 32 k) (few : order.length < 2 ^ 32) :
    ChainsAccounted tbl' where
  ideal := by
    have turns : tbl'.numBuckets.toNat = 2 ^ (k + 1) := by
      rw [done.bkts, BitVec.toNat_ofNat]
      have := done.small
      exact Nat.mod_eq_of_lt (Nat.pow_lt_pow_right (by decide) (by omega))
    rw [done.ideal, done.items, turns]
    exact ideal_ceil done.small bkts log2
  nonideal := by
    have few' : order'.length < 2 ^ 32 := by rwa [done.perm.length_eq]
    rw [done.nonideal, done.ideal, filed_sum done.filed few', (overfull_sum _ _ _ few').1]

end SessionOffload
