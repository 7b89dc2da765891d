import Mathlib.Data.List.Basic
import Mathlib.Data.List.Forall2

/-! Loops that count the items they have handled and stop when the count reaches a
limit tested after the increment, and the list facts of reading a table page by page. -/
namespace Paging

/-- How many of `n` items such a loop handles when `d` more are to be counted. A limit
that is already passed, or that the items do not reach, never stops it. -/
def served (d : Int) (n : Nat) : Nat := if 1 ≤ d ∧ d ≤ n then d.toNat else n

@[simp] theorem served_zero (d : Int) : served d 0 = 0 := by
  unfold served
  split <;> omega

@[simp] theorem served_one (n : Nat) : served 1 (n + 1) = 1 := by
  unfold served
  split <;> omega

theorem served_succ {d : Int} (running : d ≠ 1) (n : Nat) :
    served d (n + 1) = served (d - 1) n + 1 := by
  unfold served
  split <;> split <;> omega

theorem served_of_pos {d : Int} (pos : 1 ≤ d) (n : Nat) : served d n = min d.toNat n := by
  unfold served
  split <;> omega

theorem take_served {α : Type*} {m : Nat} (pos : 1 ≤ m) (l : List α) :
    l.take (served m l.length) = l.take m := by
  rw [served_of_pos (by omega), Int.toNat_natCast, List.take_eq_take_iff]
  omega

theorem drop_served {α : Type*} {m : Nat} (pos : 1 ≤ m) (l : List α) :
    l.drop (served m l.length) = l.drop m := by
  rw [served_of_pos (by omega), Int.toNat_natCast]
  rcases Nat.le_total m l.length with short | long
  · rw [Nat.min_eq_left short]
  · rw [Nat.min_eq_right long, List.drop_length, List.drop_eq_nil_of_le long]

/-- Among `n` items the `i`-th is the last one of a page of `m`, or of the last page. -/
def PageEnd (m n i : Nat) : Prop := i < n ∧ (m ∣ i + 1 ∨ i + 1 = n)

theorem page_last {α : Type*} {m q : Nat} {l : List α} (pos : 1 ≤ m) (inside : q < l.length) :
    ((l.drop q).take m).getLast? = l[min (q + m) l.length - 1]? := by
  rw [List.getLast?_eq_getElem?, List.getElem?_take_of_lt, List.getElem?_drop]
  · congr 1
    simp only [List.length_take, List.length_drop]
    omega
  · simp only [List.length_take, List.length_drop]
    omega

theorem getLastD_mem {α : Type*} {l : List α} (some_item : l ≠ []) (a : α) : l.getLastD a ∈ l := by
  cases l with
  | nil => exact absurd rfl some_item
  | cons b l =>
    rw [List.getLastD_cons]
    exact List.getLastD_mem_cons

theorem pageEnd_of_start {m n q : Nat} (pos : 1 ≤ m) (start : m ∣ q) (inside : q < n) :
    PageEnd m n (min (q + m) n - 1) := by
  refine ⟨by omega, ?_⟩
  rcases Nat.le_total (q + m) n with short | long
  · left
    rw [Nat.min_eq_left short, Nat.sub_add_cancel (by omega)]
    exact Nat.dvd_add start (Nat.dvd_refl m)
  · right
    omega

theorem pageEnd_unique {m n q i : Nat} (start : m ∣ q) (ends : PageEnd m n i) (from_here : q ≤ i)
    (reached : i < q + m) : min (q + m) n - 1 = i := by
  obtain ⟨inside, whole | last⟩ := ends
  · obtain ⟨a, rfl⟩ := start
    obtain ⟨b, hb⟩ := whole
    have more : a < b := by
      by_contra less
      have := Nat.mul_le_mul_left m (Nat.le_of_not_lt less)
      omega
    have next := Nat.mul_le_mul_left m more
    rw [Nat.mul_succ] at next
    omega
  · omega

theorem mapM_some_iff {α β : Type*} {f : α → Option β} {l : List α} {r : List β} :
    l.mapM f = some r ↔ List.Forall₂ (fun a b => f a = some b) l r := by
  induction l generalizing r with
  | nil =>
    rw [List.mapM_nil, List.forall₂_nil_left_iff]
    exact Option.some_inj.trans eq_comm
  | cons a l ih =>
    rw [List.mapM_cons, List.forall₂_cons_left_iff]
    simp only [Option.bind_eq_bind, Option.bind_eq_some_iff, Option.pure_def, Option.some.injEq, ih]
    constructor
    · rintro ⟨b, hb, bs, rest, same⟩
      exact ⟨b, bs, hb, rest, same.symm⟩
    · rintro ⟨b, bs, hb, rest, same⟩
      exact ⟨b, hb, bs, rest, same.symm⟩

theorem mapM_defined_iff {α β : Type*} {f : α → Option β} {l : List α} :
    (∃ r, l.mapM f = some r) ↔ ∀ a ∈ l, ∃ b, f a = some b := by
  simp only [mapM_some_iff]
  induction l with
  | nil => exact ⟨fun _ _ member => absurd member List.not_mem_nil, fun _ => ⟨[], .nil⟩⟩
  | cons a l ih =>
    rw [List.forall_mem_cons, ← ih]
    constructor
    · rintro ⟨r, all⟩
      cases all with
      | cons first rest => exact ⟨⟨_, first⟩, _, rest⟩
    · rintro ⟨⟨b, first⟩, bs, rest⟩
      exact ⟨b :: bs, .cons first rest⟩

theorem mapM_indices {α β : Type*} (f : α → Option β) (l : List α) (k n : Nat)
    (inside : k + n ≤ l.length) :
    (List.range' k n).mapM (fun i => l[i]?.bind f) = ((l.drop k).take n).mapM f := by
  induction n generalizing k with
  | zero => simp
  | succ n ih =>
    have here : k < l.length := by omega
    rw [List.range'_succ, List.mapM_cons, ih (k + 1) (by omega), List.drop_eq_getElem_cons here,
      List.take_succ_cons, List.mapM_cons, List.getElem?_eq_getElem here, Option.bind_some]

theorem mapM_stretch {α β : Type*} (f : α → Option β) (l : List α) (k n : Nat) :
    (List.range' k (min (k + n) l.length - k)).mapM (fun i => l[i]?.bind f) =
      ((l.drop k).take n).mapM f := by
  rcases Nat.le_total k l.length with inside | outside
  · have cut : (l.drop k).take n = (l.drop k).take (min (k + n) l.length - k) := by
      rw [List.take_eq_take_iff, List.length_drop]
      omega
    rw [cut, mapM_indices f l k _ (by omega)]
  · have none : min (k + n) l.length - k = 0 := by omega
    rw [none, List.drop_eq_nil_of_le outside, List.take_nil]
    rfl

section Pages
variable {α : Type*} {size : Nat}

def slice (size k : Nat) (l : List α) : List α := (l.drop (size * (k - 1))).take size

def sliceCount (size n : Nat) : Nat := (n + size - 1) / size

theorem lt_sliceCount_iff (pos : 1 ≤ size) (k n : Nat) : k < sliceCount size n ↔ size * k < n := by
  rw [sliceCount, ← Nat.succ_le_iff, Nat.le_div_iff_mul_le pos, Nat.succ_mul, Nat.mul_comm size k]
  omega

theorem slice_length (k : Nat) (l : List α) :
    (slice size k l).length = min size (l.length - size * (k - 1)) := by
  rw [slice, List.length_take, List.length_drop]

theorem slice_full (pos : 1 ≤ size) {k : Nat} {l : List α} (counted : 1 ≤ k)
    (before : k < sliceCount size l.length) : (slice size k l).length = size := by
  have inside := (lt_sliceCount_iff pos k l.length).mp before
  have split : size * k = size * (k - 1) + size := by
    rw [← Nat.mul_succ, Nat.succ_eq_add_one, Nat.sub_add_cancel counted]
  rw [slice_length]
  omega

theorem slice_beyond (pos : 1 ≤ size) {k : Nat} {l : List α}
    (after : sliceCount size l.length < k) : slice size k l = [] := by
  have outside := mt (lt_sliceCount_iff pos (k - 1) l.length).mpr (by omega)
  rw [slice, List.drop_eq_nil_of_le (by omega), List.take_nil]

theorem pages_take (m : Nat) (l : List α) :
    ((List.range' 1 m).map fun k => slice size k l).flatten = l.take (size * m) := by
  induction m with
  | zero => simp
  | succ m ih =>
    rw [List.range'_1_concat, List.map_append, List.flatten_append, ih, List.map_singleton,
      List.flatten_singleton, slice, Nat.add_sub_cancel_left, Nat.mul_succ, List.take_add]

theorem mapM_slice {β : Type*} {f : α → Option β} {l : List α} {r : List β}
    (built : l.mapM f = some r) (k : Nat) : (slice size k l).mapM f = some (slice size k r) := by
  have each := mapM_some_iff.mp built
  exact mapM_some_iff.mpr (List.forall₂_take size (List.forall₂_drop _ each))

end Pages

end Paging
