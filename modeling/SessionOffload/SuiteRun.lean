import SessionOffload.TestResults

/-! Tests run one after the other over one server, as the full test suite does. No test fails,
whatever was run before it, although from 1002 sessions on not all of them are accepted. -/
namespace SessionOffload
open Loop SessionTableClient

/-- `max_sessions` is a natural number, to which opof_test7 can add one. -/
def Test.Sized (test : Test) (n : Word32) : Prop :=
  0 ≤ n.toInt ∧ (test = .test7 → n.toInt ≠ 2147483647)

def Test.leaves (test : Test) (n : Word32) : List Word64 :=
  match test with
  | .test2 | .test3 | .test7 => admitted n.toNat
  | _ => []

theorem empty_leaves {s : Server} (empty : s.sessions = []) : s.Ready ∧ s.ids = [] :=
  ⟨ready_of_empty empty, by rw [Server.ids, empty, List.map_nil]⟩

section
variable {pageSize : Word32} (page : 1 ≤ pageSize.toNat ∧ pageSize.toNat ≤ bufferMax)
include page

theorem test_passes {m : Setting} (reliable : m.Reliable) {s : Server} (ready : s.Ready)
    {test : Test} {n : Word32} (sized : test.Sized n) :
    ∃ t, Yields (test.run m n pageSize s) t ∧ t.Ready ∧ t.ids = test.leaves n := by
  obtain ⟨natural, room⟩ := sized
  cases test with
  | test1 =>
    obtain ⟨r, ends, _, empty⟩ := opofTest1_ends reliable ready natural page
    exact ⟨_, ends.map _, empty_leaves empty⟩
  | test2 =>
    obtain ⟨r, ends, _, after, table⟩ := opofTest2_ends reliable ready natural page
    exact ⟨_, ends.map _, after, table⟩
  | test3 =>
    obtain ⟨r, ends, _, after, table⟩ := opofTest3_ends reliable ready natural page
    exact ⟨_, ends.map _, after, table⟩
  | test4 =>
    obtain ⟨r, ends, _, empty⟩ := opofTest4_ends reliable ready natural page
    exact ⟨_, ends.map _, empty_leaves empty⟩
  | test5 =>
    obtain ⟨r, ends, _, empty⟩ := addAndClose_ends reliable ready natural page
      createSessionRequest_ids ok_patient
    exact ⟨_, ends.map _, empty_leaves empty⟩
  | test6 =>
    obtain ⟨r, ends, _, _, _, _, empty⟩ := opofTest6_ends reliable ready natural page
    exact ⟨_, ends.map _, empty_leaves empty⟩
  | test7 =>
    obtain ⟨r, ends, _, _, _, after, table⟩ :=
      opofTest7_ends reliable ready natural page (room rfl)
    exact ⟨_, ends.map _, after, table⟩
  | test8 =>
    obtain ⟨r, ends, _, empty⟩ := addAndClose_ends reliable ready natural page
      createSessionRequest_ids notOk_patient
    exact ⟨_, ends.map _, empty_leaves empty⟩
  | test11 =>
    obtain ⟨r, ends, _, empty⟩ := addAndClose_ends reliable ready natural page
      createSessionRequest6_ids notOk_patient
    exact ⟨_, ends.map _, empty_leaves empty⟩

variable {settings : Nat → Setting} (reliable : ∀ k, (settings k).Reliable)
include reliable

theorem runTests_ends (tests : List (Test × Word32)) (sized : ∀ p ∈ tests, p.1.Sized p.2)
    (k : Nat) {s : Server} (ready : s.Ready) :
    ∃ t, Yields (runTests settings pageSize k tests s) t ∧ t.Ready ∧
      t.ids = tests.foldl (fun _ p => p.1.leaves p.2) s.ids := by
  induction tests generalizing k s with
  | nil => exact ⟨s, .of_some rfl, ready, rfl⟩
  | cons p tests ih =>
    obtain ⟨here, later⟩ := List.forall_mem_cons.mp sized
    obtain ⟨u, first, between, left⟩ := test_passes page (reliable k) ready here
    obtain ⟨t, rest, after, table⟩ := ih later (k + 1) between
    refine ⟨t, first.bind rest, after, ?_⟩
    rw [table, left, List.foldl_cons]

end

/-- Any of the tests in any order, with any numbers of sessions, pass where the calls of the
deletions get through; the table in the end is what the last of them leaves. -/
theorem suite_passes {pageSize : Word32} (page : 1 ≤ pageSize.toNat ∧ pageSize.toNat ≤ bufferMax)
    {settings : Nat → Setting} (reliable : ∀ k, (settings k).Reliable)
    (tests : List (Test × Word32)) (sized : ∀ p ∈ tests, p.1.Sized p.2) {s : Server}
    (ready : s.Ready) :
    ∃ t, Yields (runTests settings pageSize 0 tests s) t ∧
      t.ids = tests.foldl (fun _ p => p.1.leaves p.2) s.ids := by
  obtain ⟨t, ends, _, table⟩ := runTests_ends page reliable tests sized 0 ready
  exact ⟨t, ends, table⟩

theorem reached_of_through {del : Nat → Option Int} (through : ∀ n, del n = none)
    (retryAttempts count i : Nat) : AllGetThrough del retryAttempts count i := by
  induction count generalizing i with
  | zero => exact trivial
  | succ count ih =>
    have first : GetsThrough del retryAttempts i 0 :=
      ⟨Nat.zero_le _, fun m less => absurd less m.not_lt_zero, through i⟩
    exact ⟨0, first, ih _⟩

def plainSetting : Setting :=
  ⟨reliableTransport, 100, fun _ => zeroRequest, fun _ => zeroRequest, fun _ => zeroResponse,
    zeroAddResponse⟩

theorem plainSetting_reliable : plainSetting.Reliable :=
  ⟨fun _ => rfl, fun count => reached_of_through (fun _ => rfl) _ count 0⟩

theorem suite_sized : ∀ p ∈ suite, p.1.Sized p.2 := by
  have all : suite.all (fun p => decide (0 ≤ p.2.toInt ∧ p.2.toInt ≠ 2147483647)) = true := by
    decide
  intro p member
  obtain ⟨natural, room⟩ := of_decide_eq_true (List.all_eq_true.mp all p member)
  exact ⟨natural, fun _ => room⟩

/-- The suite itself, on a server that was just started. -/
theorem suite_passes_full : ∃ t, Yields (opofFullTestSuite (fun _ => plainSetting)
    (Server.init (fun _ => 0))) t ∧ t.ids = [] := by
  obtain ⟨t, ends, table⟩ := @suite_passes (BitVec.ofNat 32 bufferMax) (by decide)
    (fun _ => plainSetting) (fun _ => plainSetting_reliable) suite suite_sized
    (Server.init (fun _ => 0)) (ready_of_empty rfl)
  exact ⟨t, ends, table.trans rfl⟩

/-- Wherever tests have left the server, opof_test6 has its second round of adds refused, each
id as a duplicate or, where the first round has filled the table, for want of room. -/
theorem duplicates_refused {pageSize : Word32}
    (page : 1 ≤ pageSize.toNat ∧ pageSize.toNat ≤ bufferMax) {settings : Nat → Setting}
    (reliable : ∀ k, (settings k).Reliable) (tests : List (Test × Word32))
    (sized : ∀ p ∈ tests, p.1.Sized p.2) {s : Server} (ready : s.Ready) {m : Setting}
    (steady : m.Reliable) {n : Word32} (natural : 0 ≤ n.toInt) :
    ∃ t w v d, Yields (runTests settings pageSize 0 tests s) t ∧
      Yields (opofTest6 m n pageSize t) (w, v, d) ∧
      w.errors = ((idsFrom 0#64 n.toNat).drop 1001).map
        (⟨·, SessionStatus.resourceExhausted.code⟩) ∧
      v.errors = (idsFrom 0#64 n.toNat).map (⟨·, (if 1000 < n.toNat then
        SessionStatus.resourceExhausted else .alreadyExists).code⟩) ∧
      v.server.sessions = w.server.sessions ∧
      d.reported = (idsFrom 0#64 n.toNat).take 1001 ∧ d.server.sessions = [] := by
  obtain ⟨t, run, between, _⟩ := runTests_ends page reliable tests sized 0 ready
  obtain ⟨⟨w, v, d⟩, ends, results⟩ := opofTest6_ends steady between natural page
  exact ⟨t, w, v, d, run, ends, results⟩

theorem duplicates_refused_three : ∃ t w v d,
    Yields (runTests (fun _ => plainSetting) 2#32 0 [(.test3, 19#32)]
      (Server.init (fun _ => 0))) t ∧
    Yields (opofTest6 plainSetting 3#32 2#32 t) (w, v, d) ∧
    w.errors = [] ∧ v.errors = [⟨0#64, 6⟩, ⟨1#64, 6⟩, ⟨2#64, 6⟩] ∧
    d.reported = [0#64, 1#64, 2#64] := by
  obtain ⟨t, w, v, d, run, ends, first, second, _, reported, _⟩ := @duplicates_refused 2#32
    (by decide) (fun _ => plainSetting) (fun _ => plainSetting_reliable) [(.test3, 19#32)]
    (by simp [Test.Sized]) (Server.init (fun _ => 0)) (ready_of_empty rfl) plainSetting
    plainSetting_reliable 3#32 (by decide)
  exact ⟨t, w, v, d, run, ends, first, second, reported⟩

/-- Wherever tests have left the server, opof_test3 and opof_test4 are answered OK, with the
session asked for, for the first 1001 ids and NOT_FOUND for the others, and opof_test7 is
answered NOT_FOUND twice; the deletions empty the table. -/
theorem sessions_answered {pageSize : Word32}
    (page : 1 ≤ pageSize.toNat ∧ pageSize.toNat ≤ bufferMax) {settings : Nat → Setting}
    (reliable : ∀ k, (settings k).Reliable) (tests : List (Test × Word32))
    (sized : ∀ p ∈ tests, p.1.Sized p.2) {s : Server} (ready : s.Ready) {m : Setting}
    (steady : m.Reliable) {n : Word32} (natural : 0 ≤ n.toInt) :
    ∃ t, Yields (runTests settings pageSize 0 tests s) t ∧
      (∃ w r, Yields (opofTest3 m n pageSize t) (w, r) ∧
        List.Forall₂ AnswerFor (List.range n.toNat) r.answers) ∧
      (∃ w r, Yields (opofTest4 m n pageSize t) (w, r) ∧
        List.Forall₂ AnswerFor (List.range n.toNat) r.answers ∧ r.server.sessions = []) ∧
      (n.toInt ≠ 2147483647 → ∃ w u, Yields (opofTest7 m n pageSize t)
        (w, SessionStatus.notFound.code, SessionStatus.notFound.code, u) ∧ u = w.server) := by
  obtain ⟨t, run, between, _⟩ := runTests_ends page reliable tests sized 0 ready
  refine ⟨t, run, ?_, ?_, fun room => ?_⟩
  · obtain ⟨⟨w, r⟩, ends, told, _⟩ := opofTest3_ends steady between natural page
    exact ⟨w, r, ends, told⟩
  · obtain ⟨⟨w, r⟩, ends, told, empty⟩ := opofTest4_ends steady between natural page
    exact ⟨w, r, ends, told, empty⟩
  · obtain ⟨⟨w, got, gone, u⟩, ends, rfl, rfl, same, _⟩ :=
      opofTest7_ends steady between natural page room
    exact ⟨w, u, ends, same⟩

theorem sessions_answered_three : ∃ t,
    Yields (runTests (fun _ => plainSetting) 2#32 0 [(.test3, 19#32)]
      (Server.init (fun _ => 0))) t ∧
    ∃ w r, Yields (opofTest4 plainSetting 3#32 2#32 t) (w, r) ∧
      List.Forall₂ AnswerFor [0, 1, 2] r.answers ∧ r.server.sessions = [] := by
  obtain ⟨t, run, _, deleted, _⟩ := @sessions_answered 2#32 (by decide)
    (fun _ => plainSetting) (fun _ => plainSetting_reliable) [(.test3, 19#32)]
    (by simp [Test.Sized]) (Server.init (fun _ => 0)) (ready_of_empty rfl) plainSetting
    plainSetting_reliable 3#32 (by decide)
  exact ⟨t, run, deleted⟩

/-- The sizes of the batches do not show: two add loops over one table that differ in the page
size, in the function that builds the requests and in what they give up at end with the same
ids in the table and have been told the same errors. -/
theorem page_size_invisible {p q : Word32} (left : 1 ≤ p.toNat ∧ p.toNat ≤ bufferMax)
    (right : 1 ≤ q.toNat ∧ q.toNat ≤ bufferMax)
    {create create' : SessionRequestT → Nat → Word64 → List SessionRequestT}
    (numbers : Numbers create) (numbers' : Numbers create') {gaveUp gaveUp' : Int → Bool}
    (patient : gaveUp SessionStatus.ok.code = false)
    (patient' : gaveUp' SessionStatus.ok.code = false) (m m' : Setting) {s : Server}
    (inv : s.Inv) {n : Word32} (natural : 0 ≤ n.toInt) :
    ∃ w v, Yields (fun fuel => run Adding.running (batchTurn create gaveUp p m.block m.stack) fuel
        (.begin n m.addResp s)) w ∧
      Yields (fun fuel => run Adding.running (batchTurn create' gaveUp' q m'.block m'.stack) fuel
        (.begin n m'.addResp s)) v ∧
      w.server.ids = v.server.ids ∧ w.errors = v.errors := by
  obtain ⟨w, first, _, _, table, errors, _⟩ :=
    adding_ends left numbers patient m.block m.stack m.addResp inv natural
  obtain ⟨v, second, _, _, table', errors', _⟩ :=
    adding_ends right numbers' patient' m'.block m'.stack m'.addResp inv natural
  exact ⟨w, v, first, second, table.trans table'.symm, errors.trans errors'.symm⟩

theorem page_size_invisible_six : ∃ w v,
    Yields (fun fuel => run Adding.running (batchTurn createSessionRequest notOk 4#32
      plainSetting.block plainSetting.stack) fuel (.begin 9#32 zeroAddResponse
        (singleTable 7#64))) w ∧
    Yields (fun fuel => run Adding.running (batchTurn createSessionRequest6 isFailure 64#32
      plainSetting.block plainSetting.stack) fuel (.begin 9#32 zeroAddResponse
        (singleTable 7#64))) v ∧
    w.server.ids = v.server.ids ∧ w.errors = v.errors :=
  page_size_invisible (p := 4#32) (q := 64#32) (by decide) (by decide) createSessionRequest_ids
    createSessionRequest6_ids rfl rfl plainSetting plainSetting (singleTable_inv 7#64) (n := 9#32)
    (by decide)

end SessionOffload
