import SessionOffload.SessionClient
import SessionOffload.TestUtil

/-! The client loop of opof_test2, which asks for page after page with the key the last
one was answered with, until a page is empty. The sentinel that starts over is compared
with that key, although a key is any 64-bit session id. -/
namespace SessionOffload
open Paging

structure Pager where
  sessionStart : Word64
  responses : List SessionResponseT
  finished : Bool

def Pager.begin : Pager := ⟨uintMax, [], false⟩

def Pager.ids (p : Pager) : List Word64 := p.responses.map SessionResponseT.sessionId

/-- One turn of `while (nsessions > 0)`. -/
def Pager.next (pageSize : Word32) (p : Pager) (s : Server) : Option (Pager × Server) := do
  let page ← opofGetAllSessions p.sessionStart pageSize s
  some ({
    sessionStart := page.sessionStartId
    responses := p.responses ++ page.responses
    finished := page.sessionCount == 0 }, page.server)

def getAllLoop (pageSize : Word32) : Nat → Pager → Server → Option (Pager × Server)
  | 0, p, s => if p.finished then some (p, s) else none
  | fuel + 1, p, s =>
    if p.finished then some (p, s)
    else do
      let (p, s) ← p.next pageSize s
      getAllLoop pageSize fuel p s

/-- The cursor stands before the `q`-th record of the table `l`, where a page starts, or
behind its end. -/
structure At (l : List RecordT) (q : Nat) (s : Server) : Prop where
  table : s.sessions = l
  valid : CursorValid s
  pending : s.pending = l.drop q
  aligned : bufferMax ∣ q ∨ l.length ≤ q

theorem at_begin {l : List RecordT} {s : Server} (table : s.sessions = l) :
    At l 0 (s.enter uintMax) := by
  have rewound : s.enter uintMax = s.rewind := if_pos rfl
  rw [rewound]
  exact ⟨table, rewind_valid s, by rw [rewind_pending, table, List.drop_zero],
    .inl (Nat.dvd_zero _)⟩

theorem at_continue {l : List RecordT} {q : Nat} {s : Server} {key : Word64} (here : At l q s)
    (plain : key ≠ uintMax) : At l q (s.enter key) := by
  rwa [Server.enter, if_neg plain]

theorem opofGetAllSessions_page {s t : Server} {rs : List SessionResponseT} {key key' : Word64}
    (run : getAllSessionsPage bufferMax key s = some (rs, key', t)) (pageSize : Word32) :
    opofGetAllSessions key pageSize s = some ⟨SessionStatus.ok.code, key', rs, t⟩ := by
  have back : (rs.map convertSessionResponse2cpp).map convertSessionResponse2c = rs := by
    simp [List.map_map, Function.comp_def]
  simp only [opofGetAllSessions, SessionTableClient.getAllSessions,
    SessionTableImpl.getAllSessions, opofGetAllSessionsServer, run, Bool.false_eq_true, if_false,
    Option.bind_eq_bind, Option.bind_some, SessionResponses.empty, List.nil_append, back]
  rfl

theorem opofGetAllSessions_undefined {s : Server} {key : Word64}
    (undefined : getAllSessionsPage bufferMax key s = none) (pageSize : Word32) :
    opofGetAllSessions key pageSize s = none := by
  simp [opofGetAllSessions, SessionTableClient.getAllSessions, SessionTableImpl.getAllSessions,
    opofGetAllSessionsServer, undefined]

theorem next_run {p : Pager} {s t : Server} {rs : List SessionResponseT} {key : Word64}
    (run : getAllSessionsPage bufferMax p.sessionStart s = some (rs, key, t))
    (pageSize : Word32) :
    p.next pageSize s = some (⟨key, p.responses ++ rs, rs.length == 0⟩, t) := by
  simp only [Pager.next, opofGetAllSessions_page run pageSize, Option.bind_eq_bind,
    Option.bind_some, SessionTableClient.Page.sessionCount]

theorem next_at {l : List RecordT} {q : Nat} {p : Pager} {s : Server}
    (blocks : (l.map RecordT.addr).Nodup) (here : At l q (s.enter p.sessionStart))
    (pageSize : Word32) :
    ∃ p' t, p.next pageSize s = some (p', t) ∧ At l (q + bufferMax) t ∧
      p'.ids = p.ids ++ ((l.map RecordT.sessionId).drop q).take bufferMax ∧
      (p'.finished = true ↔ l.length ≤ q) ∧
      (q < l.length → (l.map RecordT.sessionId)[min (q + bufferMax) l.length - 1]? =
        some p'.sessionStart) ∧
      (l.length ≤ q → p'.sessionStart = p.sessionStart) := by
  have pos : 1 ≤ bufferMax := by decide
  have table : s.sessions = l := by rw [← enter_sessions s p.sessionStart, here.table]
  obtain ⟨rs, key, t, run, same, _, valid, reported, left, last⟩ :=
    page_spec (table ▸ blocks) bufferMax p.sessionStart here.valid
  rw [take_served pos, here.pending] at reported last
  rw [drop_served pos, here.pending, List.drop_drop] at left
  rw [List.map_take, List.map_drop] at reported last
  refine ⟨⟨key, p.responses ++ rs, rs.length == 0⟩, t, next_run run pageSize, ?_, ?_, ?_, ?_, ?_⟩
  · refine ⟨same.trans table, valid, left, ?_⟩
    rcases here.aligned with start | behind
    · exact .inl (Nat.dvd_add start (Nat.dvd_refl bufferMax))
    · exact .inr (by omega)
  · simp [Pager.ids, reported]
  · have count := congrArg List.length reported
    simp only [List.length_map, List.length_take, List.length_drop] at count
    simp only [beq_iff_eq]
    omega
  · intro inside
    rw [← List.length_map (f := RecordT.sessionId)] at inside ⊢
    rw [← page_last pos inside, last, List.getLastD_eq_getLast?]
    have some_page : ((l.map RecordT.sessionId).drop q).take bufferMax ≠ [] := by
      simp only [ne_eq, List.take_eq_nil_iff, List.drop_eq_nil_iff, not_or]
      omega
    rw [List.getLast?_eq_some_getLast some_page]
    rfl
  · intro behind
    rw [last, List.drop_eq_nil_of_le (by simpa using behind)]
    rfl

theorem getAllLoop_finished {p : Pager} (finished : p.finished = true) (pageSize : Word32)
    (fuel : Nat) (s : Server) : getAllLoop pageSize fuel p s = some (p, s) := by
  cases fuel <;> simp [getAllLoop, finished]

theorem getAllLoop_next {p p' : Pager} {s t : Server} {pageSize : Word32} (fuel : Nat)
    (running : p.finished = false) (turn : p.next pageSize s = some (p', t)) :
    getAllLoop pageSize (fuel + 1) p s = getAllLoop pageSize fuel p' t := by
  simp [getAllLoop, running, turn]

theorem getAllLoop_completes {l : List RecordT} (blocks : (l.map RecordT.addr).Nodup)
    (plain : ∀ i, PageEnd bufferMax l.length i →
      (l.map RecordT.sessionId)[i]? ≠ some uintMax) (pageSize : Word32)
    (fuel q : Nat) (p : Pager) (s : Server) (running : p.finished = false)
    (here : At l q (s.enter p.sessionStart)) (enough : l.length - q < fuel) :
    ∃ p' t, getAllLoop pageSize fuel p s = some (p', t) ∧
      p'.ids = p.ids ++ (l.map RecordT.sessionId).drop q := by
  induction fuel generalizing q p s with
  | zero => omega
  | succ fuel ih =>
    obtain ⟨p', t, turn, after, ids, finished, key, _⟩ := next_at blocks here pageSize
    rw [getAllLoop_next fuel running turn]
    rcases Nat.lt_or_ge q l.length with inside | behind
    · have start : bufferMax ∣ q := here.aligned.resolve_right (by omega)
      have ends := pageEnd_of_start (by decide) start inside
      have other : p'.sessionStart ≠ uintMax := by
        intro same
        exact plain _ ends ((key inside).trans (congrArg some same))
      have more : p'.finished = false := by
        rw [← Bool.not_eq_true, finished]
        omega
      have size : bufferMax = 64 := rfl
      obtain ⟨p'', u, run, all⟩ := ih (q + bufferMax) p' t more (at_continue after other) (by omega)
      refine ⟨p'', u, run, ?_⟩
      rw [all, ids, List.append_assoc, ← List.drop_drop, List.take_append_drop]
    · refine ⟨p', t, getAllLoop_finished (finished.mpr behind) pageSize fuel t, ?_⟩
      have nothing : (l.map RecordT.sessionId).drop q = [] :=
        List.drop_eq_nil_of_le (by simpa using behind)
      rw [ids, nothing, List.take_nil]

theorem getAllLoop_diverges {l : List RecordT} (blocks : (l.map RecordT.addr).Nodup) {i : Nat}
    (ends : PageEnd bufferMax l.length i)
    (sentinel : (l.map RecordT.sessionId)[i]? = some uintMax) (pageSize : Word32)
    (fuel q : Nat) (p : Pager) (s : Server) (running : p.finished = false)
    (here : At l q (s.enter p.sessionStart)) (ahead : q ≤ i) :
    getAllLoop pageSize fuel p s = none := by
  induction fuel generalizing q p s with
  | zero => simp [getAllLoop, running]
  | succ fuel ih =>
    obtain ⟨p', t, turn, after, _, finished, key, _⟩ := next_at blocks here pageSize
    have inside : q < l.length := Nat.lt_of_le_of_lt ahead ends.1
    have start : bufferMax ∣ q := here.aligned.resolve_right (by omega)
    have more : p'.finished = false := by
      rw [← Bool.not_eq_true, finished]
      omega
    rw [getAllLoop_next fuel running turn]
    by_cases again : p'.sessionStart = uintMax
    · exact ih 0 p' t more (again ▸ at_begin after.table) (Nat.zero_le i)
    · refine ih (q + bufferMax) p' t more (at_continue after again) ?_
      by_contra reached
      have stop := pageEnd_unique start ends ahead (Nat.lt_of_not_le reached)
      have last := key inside
      rw [stop, sentinel] at last
      exact again (Option.some.inj last).symm

/-- The loop stops only where no session that ends a page has the sentinel for its id, and
then it has listed every session. -/
theorem getAllLoop_begin (s : Server) (blocks : (s.sessions.map RecordT.addr).Nodup)
    (pageSize : Word32) :
    ((∃ fuel p t, getAllLoop pageSize fuel .begin s = some (p, t)) →
      ∀ i, PageEnd bufferMax s.ids.length i → s.ids[i]? ≠ some uintMax) ∧
    ((∀ i, PageEnd bufferMax s.ids.length i → s.ids[i]? ≠ some uintMax) →
      ∃ fuel p t, getAllLoop pageSize fuel .begin s = some (p, t) ∧ p.ids = s.ids) := by
  have here : At s.sessions 0 (s.enter Pager.begin.sessionStart) := at_begin rfl
  rw [s.length_ids]
  constructor
  · rintro ⟨fuel, p, t, run⟩ i ends sentinel
    rw [getAllLoop_diverges blocks ends sentinel pageSize fuel 0 .begin s rfl here
      (Nat.zero_le i)] at run
    cases run
  · intro plain
    obtain ⟨p, t, run, ids⟩ := getAllLoop_completes blocks plain pageSize
      (s.sessions.length + 1) 0 .begin s rfl here (by omega)
    exact ⟨_, p, t, run, ids⟩

/-- Over any table and leftover cursor the loop stops with every session listed once, in
order, exactly when no session that ends a page has the sentinel for its id. -/
theorem enumeration_complete (s : Server) (blocks : (s.sessions.map RecordT.addr).Nodup)
    (pageSize : Word32) :
    (∃ fuel p t, getAllLoop pageSize fuel .begin s = some (p, t) ∧ p.ids = s.ids) ↔
      ∀ i, PageEnd bufferMax s.ids.length i → s.ids[i]? ≠ some uintMax := by
  obtain ⟨stops, lists⟩ := getAllLoop_begin s blocks pageSize
  constructor
  · rintro ⟨fuel, p, t, run, _⟩
    exact stops ⟨fuel, p, t, run⟩
  · exact lists

theorem plain_of_absent {ids : List Word64} (absent : uintMax ∉ ids) (i : Nat) :
    ids[i]? ≠ some uintMax :=
  fun sentinel => absent (List.mem_of_getElem? sentinel)

/-- Two pages, with the cursor left inside the first one. -/
theorem enumeration_complete_pages :
    ∃ fuel p t, getAllLoop 64#32 fuel .begin (tableOf (idsFrom 100#64 65) (some 40)) = some (p, t) ∧
      p.ids = idsFrom 100#64 65 := by
  have keyed := tableOf_keyed (idsFrom_nodup 100#64 (by decide : 65 ≤ hashtableSize + 1)) (some 40)
  have plain : ∀ i, PageEnd bufferMax (tableOf (idsFrom 100#64 65) (some 40)).ids.length i →
      (tableOf (idsFrom 100#64 65) (some 40)).ids[i]? ≠ some uintMax := by
    rw [tableOf_ids]
    exact fun i _ => plain_of_absent (by decide) i
  obtain ⟨fuel, p, t, run, ids⟩ := (enumeration_complete _ keyed.blocks 64#32).mpr plain
  exact ⟨fuel, p, t, run, ids.trans (tableOf_ids _ _)⟩

def leftTable (id : Word64) : Server := { singleTable id with start := some 0 }

/-- A single session with the sentinel for its id is listed again and again. -/
theorem enumeration_endless :
    ¬ ∃ fuel p t, getAllLoop 64#32 fuel .begin (leftTable 4294967295#64) = some (p, t) := by
  rintro ⟨fuel, p, t, run⟩
  have ends : PageEnd bufferMax (leftTable 4294967295#64).sessions.length 0 :=
    ⟨Nat.zero_lt_one, .inr rfl⟩
  have endless := getAllLoop_diverges (l := (leftTable 4294967295#64).sessions) (by decide) ends
    rfl 64#32 fuel 0 .begin (leftTable 4294967295#64) rfl (at_begin rfl) (Nat.le_refl 0)
  rw [endless] at run
  cases run

end SessionOffload
