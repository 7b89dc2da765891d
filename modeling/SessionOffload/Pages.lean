import SessionOffload.AddErrors
import SessionOffload.CrossPaging

/-! The pages of the simulator's getAllSessions. -/
namespace SessionOffload
open Paging SessionTableServicer

theorem word_pos {w : Word32} (nonzero : w ≠ 0#32) : 1 ≤ w.toNat :=
  Nat.pos_of_ne_zero fun zero => nonzero (BitVec.eq_of_toNat_eq zero)

section Bounds
variable {request : SessionRequestArgs}

/-- The bounds of a page; the first one needs no case of its own, and the last one stops at
the end of the table. -/
theorem pageBounds_page (sized : request.pageSize ≠ 0#32) (paged : request.page ≠ 0#32)
    (n : Nat) :
    (pageBounds request n).1 = (request.pageSize.toNat * (request.page.toNat - 1) : Nat) ∧
      (pageBounds request n).2 + 1 =
        (min (request.pageSize.toNat * request.page.toNat) n : Nat) := by
  have counted := word_pos paged
  have stop : (request.pageSize.toNat * request.page.toNat : Int) =
      (request.pageSize.toNat * request.page.toNat : Nat) := (Nat.cast_mul _ _).symm
  unfold pageBounds
  rw [if_pos ⟨sized, paged⟩, stop]
  constructor
  · change (if request.page = 1#32 then (0 : Int) else _) = _
    split
    · next one =>
      rw [one]
      rfl
    · rw [Nat.cast_mul, Nat.cast_sub counted, Nat.cast_one]
  · dsimp only
    split <;> omega

theorem pageBounds_whole (off : ¬ (request.pageSize ≠ 0#32 ∧ request.page ≠ 0#32)) (n : Nat) :
    pageBounds request n = (0, (n : Int) - 1) := by
  unfold pageBounds
  rw [if_neg off]

theorem pageBounds_inside (request : SessionRequestArgs) (n : Nat) (x : Int)
    (low : (pageBounds request n).1 ≤ x) (high : x ≤ (pageBounds request n).2) :
    0 ≤ x ∧ x < n := by
  by_cases on : request.pageSize ≠ 0#32 ∧ request.page ≠ 0#32
  · obtain ⟨start, stop⟩ := pageBounds_page on.1 on.2 n
    omega
  · rw [pageBounds_whole on] at low high
    omega

end Bounds

/-- The answer with the sessions of some entries; a counter that is too large raises. -/
def listing (entries : List (Nat × OffloadSession)) : Option TimedSessionResponses :=
  (entries.mapM entryResponse).map (⟨·, 23333#64⟩)

variable {s : SessionTableServicer}

theorem getAllSessions_page {request : SessionRequestArgs} (sized : request.pageSize ≠ 0#32)
    (paged : request.page ≠ 0#32) :
    s.getAllSessions request =
      listing (slice request.pageSize.toNat request.page.toNat s.offloadSessionTable.entries) := by
  have counted := word_pos paged
  obtain ⟨start, stop⟩ := pageBounds_page sized paged s.offloadSessionTable.entries.length
  have ends : request.pageSize.toNat * request.page.toNat =
      request.pageSize.toNat * (request.page.toNat - 1) + request.pageSize.toNat := by
    rw [← Nat.mul_succ, Nat.succ_eq_add_one, Nat.sub_add_cancel counted]
  have stretch := mapM_stretch entryResponse s.offloadSessionTable.entries
    (request.pageSize.toNat * (request.page.toNat - 1)) request.pageSize.toNat
  unfold getAllSessions listing slice
  simp only [start, stop, Int.toNat_natCast, Int.toNat_sub]
  change ((List.range' _ _).mapM fun x =>
    s.offloadSessionTable.entries[x]?.bind entryResponse).bind _ = _
  rw [ends, stretch]
  cases ((s.offloadSessionTable.entries.drop _).take _).mapM entryResponse <;> rfl

def Listed (entries : List (Nat × OffloadSession)) (infos : List TimedSessionResponse) : Prop :=
  List.Forall₂ (fun e r => Reports e.2 r) entries infos

theorem built_listed {entries : List (Nat × OffloadSession)} {infos : List TimedSessionResponse}
    (built : entries.mapM entryResponse = some infos) : Listed entries infos :=
  (mapM_some_iff.mp built).imp fun _ _ answer => (response_spec answer).2

theorem listing_fits {entries : List (Nat × OffloadSession)} {answer : TimedSessionResponses}
    (run : listing entries = some answer) : ∀ e ∈ entries, e.2.Fits := by
  intro e member
  obtain ⟨infos, built, _⟩ := Option.map_eq_some_iff.mp run
  obtain ⟨r, response⟩ := mapM_defined_iff.mp ⟨infos, built⟩ e member
  exact (response_spec response).1

theorem listing_iff (entries : List (Nat × OffloadSession)) :
    (∃ answer, listing entries = some answer ∧ Listed entries answer.sessionInfo) ↔
      ∀ e ∈ entries, e.2.Fits := by
  constructor
  · rintro ⟨answer, run, _⟩
    exact listing_fits run
  · intro fits
    obtain ⟨infos, built⟩ := (mapM_defined_iff (f := entryResponse)).mpr fun e member =>
      response_built (fits e member) _
    exact ⟨⟨infos, 23333#64⟩, by rw [listing, built]; rfl, built_listed built⟩

theorem pages_reported {all : List TimedSessionResponse}
    (built : s.offloadSessionTable.entries.mapM entryResponse = some all) {pageSize : Word32}
    (sized : pageSize ≠ 0#32) (startSession : Word64) {last : Nat} (few : last < 2 ^ 32) :
    ∃ answers, (List.range' 1 last).mapM (fun k =>
        s.getAllSessions ⟨pageSize, BitVec.ofNat 32 k, startSession⟩) = some answers ∧
      answers.flatMap TimedSessionResponses.sessionInfo = all.take (pageSize.toNat * last) := by
  refine ⟨(List.range' 1 last).map fun k => ⟨slice pageSize.toNat k all, 23333#64⟩, ?_, ?_⟩
  · rw [mapM_some_iff, List.forall₂_map_right_iff, List.forall₂_same]
    intro k member
    rw [List.mem_range'_1] at member
    have number : (BitVec.ofNat 32 k).toNat = k := by
      rw [BitVec.toNat_ofNat, Nat.mod_eq_of_lt (by omega)]
    have paged : BitVec.ofNat 32 k ≠ 0#32 := by
      intro zero
      have none : k = 0 := number.symm.trans (congrArg BitVec.toNat zero)
      omega
    rw [getAllSessions_page sized paged, number, listing, mapM_slice built k]
    rfl
  · rw [List.flatMap_def, List.map_map, ← pages_take last all]
    rfl

/-- The pages partition the table, in its order: requests are answered, page after page makes up
the table, the pages before the last one are full, later ones are empty, and no index lies outside
the table; without a page size or number the answer is the whole table. -/
structure PagesRight (s : SessionTableServicer) : Prop where
  whole : ∀ request : SessionRequestArgs, request.pageSize = 0#32 ∨ request.page = 0#32 →
    ∃ answer, s.getAllSessions request = some answer ∧
      Listed s.offloadSessionTable.entries answer.sessionInfo
  joined : ∀ (pageSize : Word32) (startSession : Word64) (last : Nat), pageSize ≠ 0#32 →
    last < 2 ^ 32 → ∃ answers, (List.range' 1 last).mapM (fun k =>
        s.getAllSessions ⟨pageSize, BitVec.ofNat 32 k, startSession⟩) = some answers ∧
      Listed (s.offloadSessionTable.entries.take (pageSize.toNat * last))
        (answers.flatMap TimedSessionResponses.sessionInfo) ∧
      (sliceCount pageSize.toNat s.offloadSessionTable.entries.length ≤ last →
        Listed s.offloadSessionTable.entries
          (answers.flatMap TimedSessionResponses.sessionInfo))
  full : ∀ request : SessionRequestArgs, request.pageSize ≠ 0#32 → request.page ≠ 0#32 →
    request.page.toNat < sliceCount request.pageSize.toNat s.offloadSessionTable.entries.length →
    ∃ answer, s.getAllSessions request = some answer ∧
      answer.sessionInfo.length = request.pageSize.toNat
  beyond : ∀ request : SessionRequestArgs, request.pageSize ≠ 0#32 →
    sliceCount request.pageSize.toNat s.offloadSessionTable.entries.length < request.page.toNat →
    ∃ answer, s.getAllSessions request = some answer ∧ answer.sessionInfo = []
  inside : ∀ (request : SessionRequestArgs) (x : Int),
    (pageBounds request s.offloadSessionTable.entries.length).1 ≤ x →
    x ≤ (pageBounds request s.offloadSessionTable.entries.length).2 →
    0 ≤ x ∧ x < s.offloadSessionTable.entries.length

theorem listed_length {entries : List (Nat × OffloadSession)} {infos : List TimedSessionResponse}
    (listed : Listed entries infos) : infos.length = entries.length :=
  (List.Forall₂.length_eq listed).symm

theorem slice_answered (fits : ∀ e ∈ s.offloadSessionTable.values, e.Fits)
    {request : SessionRequestArgs} (sized : request.pageSize ≠ 0#32)
    (paged : request.page ≠ 0#32) :
    ∃ answer, s.getAllSessions request = some answer ∧
      Listed (slice request.pageSize.toNat request.page.toNat s.offloadSessionTable.entries)
        answer.sessionInfo := by
  rw [getAllSessions_page sized paged]
  refine (listing_iff _).mpr fun e member => fits e.2 ?_
  exact List.mem_map_of_mem (List.mem_of_mem_drop (List.mem_of_mem_take member))

theorem pages_right (fits : ∀ e ∈ s.offloadSessionTable.values, e.Fits) : PagesRight s where
  whole := fun request off => by
    have all := (listing_iff s.offloadSessionTable.entries).mpr fun e member =>
      fits e.2 (List.mem_map_of_mem member)
    rwa [listing, ← getAllSessions_whole off] at all
  joined := fun pageSize startSession last sized few => by
    obtain ⟨all, built⟩ := (mapM_defined_iff (f := entryResponse)).mpr fun e member =>
      response_built (fits e.2 (List.mem_map_of_mem member)) _
    obtain ⟨answers, run, joined⟩ := pages_reported built sized startSession few
    have listed := built_listed built
    refine ⟨answers, run, joined ▸ List.forall₂_take _ listed, fun covered => ?_⟩
    have long := listed_length listed
    have enough := mt (lt_sliceCount_iff (word_pos sized) last
      s.offloadSessionTable.entries.length).mpr (Nat.not_lt.mpr covered)
    rw [List.take_of_length_le (by omega)] at joined
    exact joined ▸ listed
  full := fun request sized paged before => by
    obtain ⟨answer, run, listed⟩ := slice_answered fits sized paged
    refine ⟨answer, run, (listed_length listed).trans ?_⟩
    exact slice_full (word_pos sized) (word_pos paged) before
  beyond := fun request sized after => by
    have paged : request.page ≠ 0#32 := by
      intro zero
      rw [zero] at after
      cases after
    obtain ⟨answer, run, listed⟩ := slice_answered fits sized paged
    rw [slice_beyond (word_pos sized) after] at listed
    exact ⟨answer, run, List.forall₂_nil_left_iff.mp listed⟩
  inside := fun request => pageBounds_inside request _

/-- The pages partition the table if and only if every counter of every session fits the field it
is reported in. A page by itself is answered with its stretch of the table exactly where the
counters of the sessions in it do. -/
theorem pages_exact (s : SessionTableServicer) :
    (PagesRight s ↔ ∀ e ∈ s.offloadSessionTable.values, e.Fits) ∧
    ∀ request : SessionRequestArgs, request.pageSize ≠ 0#32 → request.page ≠ 0#32 →
      ((∃ answer, s.getAllSessions request = some answer ∧
        Listed (slice request.pageSize.toNat request.page.toNat s.offloadSessionTable.entries)
          answer.sessionInfo) ↔
      ∀ e ∈ slice request.pageSize.toNat request.page.toNat s.offloadSessionTable.entries,
        e.2.Fits) := by
  refine ⟨⟨fun right e member => ?_, pages_right⟩, fun request sized paged => ?_⟩
  · obtain ⟨answer, run, _⟩ := right.whole wholeTable (.inl rfl)
    obtain ⟨slot, here⟩ := Dict.mem_values.mp member
    rw [getAllSessions_whole (.inl rfl)] at run
    exact listing_fits run (slot, e) here
  · rw [getAllSessions_page sized paged]
    exact listing_iff _

theorem pages_exact_three : PagesRight threeSessions ∧
    ∃ answers, (List.range' 1 2).mapM (fun k =>
        threeSessions.getAllSessions ⟨2#32, BitVec.ofNat 32 k, 0#64⟩) = some answers ∧
      answers.map TimedSessionResponses.ids = [[0#64, 1#64], [2#64]] := by
  have fits : ∀ e ∈ threeSessions.offloadSessionTable.values, e.Fits := by decide
  exact ⟨(pages_exact threeSessions).1.mpr fits, _, rfl, rfl⟩

def onePacket : SessionAction :=
  .updateCounters ⟨1, by decide⟩ ⟨0, by decide⟩ ⟨0, by decide⟩ ⟨0, by decide⟩

def packetPass : NosCall × NosReply := (.traffic fun _ => onePacket, .traffic)

theorem packetPass_path (n : Nat) {s : SessionTableServicer} {e : OffloadSession}
    (here : s.offloadSessionTable.entries = [(1, e)]) (going : e.state ≠ .closed) :
    ∃ t e', Transition.Path NosStep s (List.replicate n packetPass) t ∧
      t.offloadSessionTable.entries = [(1, e')] ∧ e'.inPackets = e.inPackets + n := by
  induction n generalizing s e with
  | zero => exact ⟨s, e, .nil s, here, rfl⟩
  | succ n ih =>
    have next : (s.simulateSessionsTraffic fun _ => onePacket).offloadSessionTable.entries =
        [(1, e.act onePacket)] := by
      simp [simulateSessionsTraffic, Dict.mapValues, here, going]
    obtain ⟨t, e', rest, last, count⟩ := ih next going
    refine ⟨t, e', .cons rfl rest, last, count.trans ?_⟩
    change e.inPackets + 1 + n = e.inPackets + (n + 1)
    omega

/-- A session that has received 2^64 packets cannot be reported, and no request that lists it is
answered. -/
theorem pages_raise : ∃ s, Transition.Path NosStep .simulator
      ((.add dawn .empty, .add (some [])) :: List.replicate 18446744073709551616 packetPass) s ∧
    s.getAllSessions wholeTable = none ∧ s.getAllSessions ⟨1#32, 1#32, 0#64⟩ = none ∧
    ¬ PagesRight s := by
  obtain ⟨s, e, path, table, count⟩ := packetPass_path 18446744073709551616
    (s := SessionTableServicer.simulator.installed 1 dawn .empty) rfl (by decide)
  have unfit : ¬ e.Fits := by
    rintro ⟨small, _⟩
    rw [count] at small
    exact absurd small (by decide)
  have raised : listing s.offloadSessionTable.entries = none :=
    Option.eq_none_iff_forall_ne_some.mpr fun answer run =>
      unfit (listing_fits run (1, e) (table ▸ List.mem_singleton_self _))
  have whole : s.getAllSessions wholeTable = none := (getAllSessions_whole (.inl rfl)).trans raised
  refine ⟨s, .cons rfl path, whole, ?_, fun right => ?_⟩
  · rw [getAllSessions_page (by decide) (by decide), table, ← raised, table]
    rfl
  · obtain ⟨answer, run, _⟩ := right.whole wholeTable (.inl rfl)
    rw [whole] at run
    cases run

end SessionOffload
