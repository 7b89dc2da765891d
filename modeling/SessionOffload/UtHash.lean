import SessionOffload.Opof
import SessionOffload.Lib.Intrusive

/-! uthash.h as opof_hash.h builds it: without Bloom filter, with a fatal out of memory
and the key hashed by HASH_JEN. An element is named by the address of its block, which
stands for the address of its handle as well, so ELMT_FROM_HH and HH_FROM_ELMT are left
out; one head variable owns the table, so the `tbl` pointer of the handles is too. `none`
as the result is a pointer followed to no block or behind an array, exit(-1), or a walk
of more than `fuel` turns. -/
namespace SessionOffload
open Intrusive

/-- UT_hash_handle; `key` is what the `keylen` bytes at the key pointer are. -/
structure UtHashHandle where
  prev : Option Nat
  next : Option Nat
  hhPrev : Option Nat
  hhNext : Option Nat
  key : List Byte
  hashv : Word32
  deriving DecidableEq, Repr

def UtHashHandle.zero : UtHashHandle := ⟨none, none, none, none, [], 0⟩

structure UtHashBucket where
  hhHead : Option Nat
  count : Word32
  expandMult : Word32
  deriving DecidableEq, Repr

structure UtHashTable where
  buckets : List UtHashBucket
  numBuckets : Word32
  log2NumBuckets : Word32
  numItems : Word32
  tail : Nat
  idealChainMaxlen : Word32
  nonidealItems : Word32
  ineffExpands : Word32
  noexpand : Word32
  deriving DecidableEq, Repr

/-- The head variable, the table it leads to and the handles of the allocated blocks. -/
structure UtHash where
  head : Option Nat
  tbl : Option UtHashTable
  hh : Heap Nat UtHashHandle

def hashInitialNumBuckets : Nat := 32
def hashInitialNumBucketsLog2 : Word32 := 5
def hashBktCapacityThresh : Word32 := 10
def sizeofUtHashTable : Nat := 64
def sizeofUtHashBucket : Nat := 16

def appOrder : Field Nat UtHashHandle (Option Nat × Option Nat × List Byte × Word32) where
  next := UtHashHandle.next
  prev := UtHashHandle.prev
  rest h := (h.hhPrev, h.hhNext, h.key, h.hashv)
  setNext v h := { h with next := v }
  setPrev v h := { h with prev := v }
  next_setNext _ _ := rfl
  prev_setNext _ _ := rfl
  rest_setNext _ _ := rfl
  next_setPrev _ _ := rfl
  prev_setPrev _ _ := rfl
  rest_setPrev _ _ := rfl

/-- The chain of one bucket, the element added last in front. -/
def bucketOrder : Field Nat UtHashHandle (Option Nat × Option Nat × List Byte × Word32) where
  next := UtHashHandle.hhNext
  prev := UtHashHandle.hhPrev
  rest h := (h.prev, h.next, h.key, h.hashv)
  setNext v h := { h with hhNext := v }
  setPrev v h := { h with hhPrev := v }
  next_setNext _ _ := rfl
  prev_setNext _ _ := rfl
  rest_setNext _ _ := rfl
  next_setPrev _ _ := rfl
  prev_setPrev _ _ := rfl
  rest_setPrev _ _ := rfl

structure Jen where
  i : Word32
  j : Word32
  hashv : Word32

/-- HASH_JEN_MIX, one field for each of its lines. -/
def hashJenMix (s : Jen) : Jen :=
  let a := (s.i - s.j - s.hashv) ^^^ (s.hashv >>> 13)
  let b := (s.j - s.hashv - a) ^^^ (a <<< 8)
  let c := (s.hashv - a - b) ^^^ (b >>> 13)
  let a := (a - b - c) ^^^ (c >>> 12)
  let b := (b - c - a) ^^^ (a <<< 16)
  let c := (c - a - b) ^^^ (b >>> 5)
  let a := (a - b - c) ^^^ (c >>> 3)
  let b := (b - c - a) ^^^ (a <<< 10)
  let c := (c - a - b) ^^^ (b >>> 15)
  ⟨a, b, c⟩

/-- The byte at `n`, shifted; a byte behind the end adds nothing. -/
def jenByte (key : List Byte) (n shift : Nat) : Word32 :=
  ((key.getD n 0).setWidth 32) <<< shift

def jenWord (key : List Byte) (n : Nat) : Word32 :=
  jenByte key n 0 + jenByte key (n + 1) 8 + jenByte key (n + 2) 16 + jenByte key (n + 3) 24

def hashJenLoop : Nat → List Byte → Jen → Jen × List Byte
  | 0, key, s => (s, key)
  | blocks + 1, key, s =>
    hashJenLoop blocks (key.drop 12)
      (hashJenMix ⟨s.i + jenWord key 0, s.j + jenWord key 4, s.hashv + jenWord key 8⟩)

/-- The switch falls through, so every byte that is left is added; the lowest byte of
the third word is kept for the length. -/
def hashJen (key : List Byte) : Word32 :=
  let (s, key') := hashJenLoop (key.length / 12) key ⟨0x9e3779b9#32, 0x9e3779b9#32, 0xfeedbeef#32⟩
  let hashv := s.hashv + BitVec.ofNat 32 key.length +
    (jenByte key' 8 8 + jenByte key' 9 16 + jenByte key' 10 24)
  (hashJenMix ⟨s.i + jenWord key' 0, s.j + jenWord key' 4, hashv⟩).hashv

def hashToBkt (hashv numBkts : Word32) : Nat := (hashv &&& (numBkts - 1)).toNat

section Macros

variable (malloc : Nat → Bool) (fuel : Nat)

def hashFindInBkt (t : UtHash) (b : UtHashBucket) (key : List Byte) (hashv : Word32) :
    Option (Option Nat) :=
  seek UtHashHandle.hhNext (fun h => h.hashv == hashv && h.key == key) t.hh fuel b.hhHead

def hashFind (t : UtHash) (key : List Byte) : Option (Option Nat) :=
  match t.head with
  | none => some none
  | some _ => do
    let tbl ← t.tbl
    let hashv := hashJen key
    let b ← tbl.buckets[hashToBkt hashv tbl.numBuckets]?
    hashFindInBkt fuel t b key hashv

def hashCount (t : UtHash) : Option Word32 :=
  match t.head with
  | none => some 0
  | some _ => t.tbl.map UtHashTable.numItems

def hashMakeTable (add : Nat) : Option UtHashTable :=
  if malloc sizeofUtHashTable && malloc (hashInitialNumBuckets * sizeofUtHashBucket) then
    some {
      buckets := List.replicate hashInitialNumBuckets ⟨none, 0, 0⟩
      numBuckets := BitVec.ofNat 32 hashInitialNumBuckets
      log2NumBuckets := hashInitialNumBucketsLog2
      numItems := 0
      tail := add
      idealChainMaxlen := 0
      nonidealItems := 0
      ineffExpands := 0
      noexpand := 0 }
  else none

/-- The state of HASH_EXPAND_BUCKETS between two elements: the new array, the count of
elements too far down their chain, and the handles. -/
structure Expansion where
  newBuckets : List UtHashBucket
  nonidealItems : Word32
  hh : Heap Nat UtHashHandle

def UtHashBucket.receive (b : UtHashBucket) (ideal : Word32) (thh : Nat) : UtHashBucket where
  hhHead := some thh
  count := b.count + 1
  expandMult :=
    if ideal < b.count + 1 ∧ b.expandMult * ideal < b.count + 1 then b.expandMult + 1
    else b.expandMult

def expandCell (numBkts ideal : Word32) (thh : Nat) (e : Expansion) : Option Expansion := do
  let h ← e.hh thh
  let bkt := hashToBkt h.hashv numBkts
  let b ← e.newBuckets[bkt]?
  let nonidealItems := if ideal < b.count + 1 then e.nonidealItems + 1 else e.nonidealItems
  let hh ← e.hh.write thh (fun h => { h with hhPrev := none })
  let hh ← hh.write thh (fun h => { h with hhNext := b.hhHead })
  let hh ← hh.writeAt b.hhHead (fun h => { h with hhPrev := some thh })
  some ⟨e.newBuckets.set bkt (b.receive ideal thh), nonidealItems, hh⟩

/-- The inner loop: `hh_next` is read before the element is moved. -/
def expandChain (numBkts ideal : Word32) : Nat → Option Nat → Expansion → Option Expansion
  | _, none, e => some e
  | 0, some _, _ => none
  | fuel + 1, some thh, e => do
    let h ← e.hh thh
    let e ← expandCell numBkts ideal thh e
    expandChain numBkts ideal fuel h.hhNext e

def expandLoop (numBkts ideal : Word32) (tbl : UtHashTable) (e : Expansion) : Option Expansion :=
  (List.range tbl.numBuckets.toNat).foldlM (fun e i => do
    let b ← tbl.buckets[i]?
    expandChain numBkts ideal fuel b.hhHead e) e

def idealChainMaxlen (tbl : UtHashTable) : Word32 :=
  (tbl.numItems >>> (tbl.log2NumBuckets + 1).toNat) +
    if tbl.numItems &&& (tbl.numBuckets * 2 - 1) ≠ 0 then 1 else 0

def UtHashTable.expanded (tbl : UtHashTable) (ideal : Word32) (e : Expansion) : UtHashTable :=
  let ineffExpands := if tbl.numItems >>> 1 < e.nonidealItems then tbl.ineffExpands + 1 else 0
  { tbl with
    buckets := e.newBuckets
    numBuckets := tbl.numBuckets * 2
    log2NumBuckets := tbl.log2NumBuckets + 1
    idealChainMaxlen := ideal
    nonidealItems := e.nonidealItems
    ineffExpands := ineffExpands
    noexpand := if 1 < ineffExpands then 1 else tbl.noexpand }

def hashExpandBuckets (tbl : UtHashTable) (hh : Heap Nat UtHashHandle) :
    Option (UtHashTable × Heap Nat UtHashHandle) :=
  if malloc (2 * tbl.numBuckets.toNat * sizeofUtHashBucket) then do
    let ideal := idealChainMaxlen tbl
    let zeroed := List.replicate (2 * tbl.numBuckets.toNat) ⟨none, 0, 0⟩
    let e ← expandLoop fuel (tbl.numBuckets * 2) ideal tbl ⟨zeroed, 0, hh⟩
    some (tbl.expanded ideal e, e.hh)
  else none

def expandNeeded (tbl : UtHashTable) (b : UtHashBucket) : Bool :=
  decide ((b.expandMult + 1) * hashBktCapacityThresh ≤ b.count) && tbl.noexpand == 0

def hashAddToBkt (bkt add : Nat) (tbl : UtHashTable) (hh : Heap Nat UtHashHandle) :
    Option (UtHashTable × Heap Nat UtHashHandle) := do
  let b ← tbl.buckets[bkt]?
  let hh ← pushFront bucketOrder hh add b.hhHead
  let b := { b with count := b.count + 1, hhHead := some add }
  let tbl := { tbl with buckets := tbl.buckets.set bkt b }
  if expandNeeded tbl b then hashExpandBuckets malloc fuel tbl hh else some (tbl, hh)

def hashAddToTable (hashv : Word32) (add : Nat) (tbl : UtHashTable)
    (hh : Heap Nat UtHashHandle) : Option (UtHashTable × Heap Nat UtHashHandle) :=
  let tbl := { tbl with numItems := tbl.numItems + 1 }
  hashAddToBkt malloc fuel (hashToBkt hashv tbl.numBuckets) add tbl hh

/-- HASH_ADD; the key is the field of the element that HASH_ADD_KEYPTR takes the address
of. -/
def hashAdd (key : List Byte) (add : Nat) (t : UtHash) : Option UtHash := do
  let hashv := hashJen key
  let hh ← t.hh.write add (fun h => { h with hashv := hashv, key := key })
  match t.head with
  | none => do
    let hh ← aim appOrder hh add none none
    let tbl ← hashMakeTable malloc add
    let (tbl, hh) ← hashAddToTable malloc fuel hashv add tbl hh
    some ⟨some add, some tbl, hh⟩
  | some head => do
    let tbl ← t.tbl
    -- HASH_APPEND_LIST
    let hh ← pushBack appOrder hh add tbl.tail
    let tbl := { tbl with tail := add }
    let (tbl, hh) ← hashAddToTable malloc fuel hashv add tbl hh
    some ⟨some head, some tbl, hh⟩

def hashDelInBkt (bkt del : Nat) (tbl : UtHashTable) (hh : Heap Nat UtHashHandle) :
    Option (UtHashTable × Heap Nat UtHashHandle) := do
  let b ← tbl.buckets[bkt]?
  let h ← hh del
  let b := { b with
    count := b.count - 1
    hhHead := if b.hhHead = some del then h.hhNext else b.hhHead }
  let hh ← unlink bucketOrder hh del
  some ({ tbl with buckets := tbl.buckets.set bkt b }, hh)

/-- HASH_DELETE_HH; an element without neighbours is the only one, and the table is freed
with it. -/
def hashDeleteHh (del : Nat) (t : UtHash) : Option UtHash := do
  let h ← t.hh del
  let tbl ← t.tbl
  if h.prev = none ∧ h.next = none then some ⟨none, none, t.hh⟩
  else do
    let last := if del = tbl.tail then h.prev else some tbl.tail
    let tail ← last
    let head := if h.prev = none then h.next else t.head
    let hh ← unlink appOrder t.hh del
    let bkt := hashToBkt h.hashv tbl.numBuckets
    let (tbl, hh) ← hashDelInBkt bkt del { tbl with tail := tail } hh
    some ⟨head, some { tbl with numItems := tbl.numItems - 1 }, hh⟩

/-- The first loop of HASH_FSCK over so many buckets; a mismatch ends the program. -/
def fsckBuckets (tbl : UtHashTable) (hh : Heap Nat UtHashHandle) : Nat → Option Word32
  | 0 => some 0
  | i + 1 => do
    let count ← fsckBuckets tbl hh i
    let b ← tbl.buckets[i]?
    let n ← tally bucketOrder hh fuel none b.hhHead
    if b.count = BitVec.ofNat 32 n then some (count + BitVec.ofNat 32 n) else none

def hashFsck (t : UtHash) : Option Unit :=
  match t.head with
  | none => some ()
  | some head => do
    let tbl ← t.tbl
    let count ← fsckBuckets fuel tbl t.hh tbl.numBuckets.toNat
    let n ← tally appOrder t.hh fuel none (some head)
    if count = tbl.numItems ∧ BitVec.ofNat 32 n = tbl.numItems then some () else none

end Macros

end SessionOffload
