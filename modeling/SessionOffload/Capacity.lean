import SessionOffload.TestUtil

/-! The capacity test of opof_add_session_server. It compares the number of sessions
with HASHTABLE_SIZE before the id is looked up, and admits one session too many. -/
namespace SessionOffload
open Transition

/-- The status and effect an add is documented to have on a table of limited size. -/
def AddContract (q : SessionRequestT) (s : Server) : Prop :=
  let status := (opofAddSessionServer q s).1
  let t := (opofAddSessionServer q s).2
  (status = .alreadyExists ↔ q.sessId ∈ s.ids) ∧
  (status = .resourceExhausted ↔ q.sessId ∉ s.ids ∧ s.sessions.length = hashtableSize) ∧
  (status = .ok ↔ q.sessId ∉ s.ids ∧ s.sessions.length ≠ hashtableSize) ∧
  (status = .ok → ∃ r, t.sessions = s.sessions ++ [r] ∧ r.sessionId = q.sessId) ∧
  (status ≠ .ok → t.sessions = s.sessions)

/-- The table is below its limit, or at the limit and the id is already in it. -/
def WithinCapacity (q : SessionRequestT) (s : Server) : Prop :=
  s.sessions.length < hashtableSize ∨
    (s.sessions.length = hashtableSize ∧ q.sessId ∈ s.ids)

theorem addContract_iff (q : SessionRequestT) (s : Server) :
    AddContract q s ↔ WithinCapacity q s := by
  unfold AddContract WithinCapacity
  rcases add_cases q s with ⟨full, run⟩ | ⟨room, present, run⟩ | ⟨room, absent, run⟩
  · rw [run]
    have above : s.sessions.length ≠ hashtableSize := by omega
    constructor
    · intro contract
      exact (above (contract.2.1.mp rfl).2).elim
    · rintro (below | ⟨exact_limit, _⟩)
      · omega
      · exact (above exact_limit).elim
  · rw [run]
    simp only [present, not_true_eq_false, false_and, and_true]
    constructor
    · intro _
      omega
    · intro _
      simp [Server.leaked]
  · rw [run]
    simp only [absent, not_false_eq_true, true_and, and_false, or_false]
    constructor
    · intro contract
      have not_limit := contract.2.2.1.mp trivial
      omega
    · intro below
      have not_limit : s.sessions.length ≠ hashtableSize := by omega
      simp [not_limit, Server.installed, newRecord]

def AddsWithin (s : Server) (l : Call × Reply) (_ : Server) : Prop :=
  ∀ q, l.1 = .add q → WithinCapacity q s

theorem step_bounded {s t : Server} {l : Call × Reply} (inv : s.Inv)
    (below : s.sessions.length ≤ hashtableSize) (step : Step s l t) :
    t.sessions.length ≤ hashtableSize ↔ AddsWithin s l t := by
  have other (apart : ∀ q, l.1 ≠ .add q) : AddsWithin s l t :=
    fun q same => (apart q same).elim
  have kept (table : t.sessions.length ≤ s.sessions.length) (apart : ∀ q, l.1 ≠ .add q) :
      t.sessions.length ≤ hashtableSize ↔ AddsWithin s l t :=
    iff_of_true (Nat.le_trans table below) (other apart)
  cases step_effect inv step with
  | exhausted q full => omega
  | known q room present table =>
    refine iff_of_true (by rw [table]; exact below) ?_
    intro p same
    cases same
    have cases := Nat.lt_or_eq_of_le below
    exact cases.imp_right (fun limit => ⟨limit, present⟩)
  | installed q room absent table =>
    rw [table, List.length_append]
    constructor
    · intro grown p same
      cases same
      exact .inl grown
    · intro within
      rcases within q rfl with less | ⟨_, present⟩
      · exact less
      · exact (absent present).elim
  | found id response resp present named same => exact kept (by rw [same]) (by intro q h; cases h)
  | missed id response absent same => exact kept (by rw [same]) (by intro q h; cases h)
  | deleted id response resp present named table =>
    exact kept (by rw [table]; exact List.length_filter_le _ _) (by intro q h; cases h)
  | unknown id response absent same => exact kept (by rw [same]) (by intro q h; cases h)
  | closed pageSize rs reported table =>
    exact kept (by rw [table, List.length_drop]; omega) (by intro q h; cases h)
  | page key nextkey rs valid table => exact kept (by rw [table]) (by intro q h; cases h)

/-- What the documented capacity says about one step of a run: the table it leads to is
within the limit, and an add has its documented result. -/
def CapacityKept (s : Server) (l : Call × Reply) (t : Server) : Prop :=
  t.sessions.length ≤ hashtableSize ∧ ∀ q, l.1 = .add q → AddContract q s

/-- In every state and for every request the documented result of an add is the actual
one exactly when the add is within the capacity; and a run keeps the documented
capacity and results in every step exactly when all its adds are within it. -/
theorem add_within_capacity (rand : Nat → Nat) (es : List (Call × Reply)) (s : Server) :
    (∀ q, AddContract q s ↔ WithinCapacity q s) ∧
    (Path (restrict Step CapacityKept) (Server.init rand) es s ↔
      Path (restrict Step AddsWithin) (Server.init rand) es s) := by
  refine ⟨fun q => addContract_iff q s, ?_⟩
  have start : (Server.init rand).Inv ∧ (Server.init rand).sessions.length ≤ hashtableSize :=
    ⟨Server.init_inv rand, Nat.zero_le _⟩
  refine Path.restrict_iff (fun s => s.Inv ∧ s.sessions.length ≤ hashtableSize) ?_ ?_ start
  · intro s l t inv step
    constructor
    · intro kept
      exact (step_bounded inv.1 inv.2 step).mp kept.1
    · intro within
      exact ⟨(step_bounded inv.1 inv.2 step).mpr within,
        fun q add => (addContract_iff q s).mpr (within q add)⟩
  · intro s l t inv step within
    exact ⟨step_inv inv.1 step, (step_bounded inv.1 inv.2 step).mpr within⟩

/-- A thousand and one sessions added to the empty store are all accepted; after that
even a known id is refused as exhausted. -/
theorem add_beyond_capacity :
    ∃ s, Path Step (Server.init (fun _ => 0)) (fillEvents 1001 0#64) s ∧
      ¬ s.sessions.length ≤ hashtableSize ∧
      (0#64 ∈ s.ids ∧
        (opofAddSessionServer (testRequest zeroRequest 0#64) s).1 = .resourceExhausted) := by
  obtain ⟨s, path, _, ids⟩ := fill_reaches (fun _ => 0) 0#64 (Nat.le_refl 1001)
  have long : s.sessions.length = 1001 := by
    rw [← s.length_ids, ids]
    simp [idsFrom]
  have limit : hashtableSize = 1000 := rfl
  refine ⟨s, path, by omega, ?_, ?_⟩
  · rw [ids]
    exact List.mem_map.mpr ⟨0, List.mem_range.mpr (by omega), rfl⟩
  · rcases add_cases (testRequest zeroRequest 0#64) s with ⟨_, run⟩ | ⟨room, _⟩ | ⟨room, _⟩
    · rw [run]
    · omega
    · omega

end SessionOffload
