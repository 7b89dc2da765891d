import SessionOffload.Enumeration
import SessionOffload.KeyedMap
import SessionOffload.Lib.Loop

/-! opof_delete_all_sessions of opof_run_tests.c. The table is paged through while the
sessions of each page are deleted one by one; a call that comes back unavailable is made again,
and one status variable is set by every call. -/
namespace SessionOffload
open Paging Loop SessionTableClient

/-- What the transport does to the calls of a run, by their numbers: a call that fails has a
status and does not reach the server. `stack` is what the handler's uninitialised struct
holds. -/
structure Transport where
  getAll : Nat → Option Int
  del : Nat → Option Int
  stack : Nat → SessionResponseT

/-- The variables of the function, with the server, the number of get-all calls and the
delete calls with their answers. -/
structure Deleting where
  sessionStart : Word64
  responses : List SessionResponseT
  nsessions : Nat
  status : Int
  server : Server
  getAlls : Nat
  deletes : List (Word64 × Int)

def Deleting.begin (s : Server) : Deleting := ⟨uintMax, [], 1, SessionStatus.ok.code, s, 0, []⟩

def Deleting.running (d : Deleting) : Bool := decide (0 < d.nsessions)

def Deleting.unavailable (d : Deleting) : Bool := d.status == SessionStatus.unavailable.code

/-- A failed call leaves the empty reply, and with it no sessions and the key 0. -/
def getAllCall (transport : Transport) (pageSize : Word32) (d : Deleting) : Option Deleting :=
  match transport.getAll d.getAlls with
  | some status => some { d with
      sessionStart := SessionResponses.empty.nextkey
      nsessions := 0
      responses := []
      status := status
      getAlls := d.getAlls + 1 }
  | none => do
    let page ← opofGetAllSessions d.sessionStart pageSize d.server
    some { d with
      sessionStart := page.sessionStartId
      nsessions := page.sessionCount
      responses := page.responses
      status := page.status
      server := page.server
      getAlls := d.getAlls + 1 }

def delCall (transport : Transport) (sessionId : Word64) (d : Deleting) : Option Deleting :=
  match transport.del d.deletes.length with
  | some status => some { d with
      status := status
      deletes := d.deletes ++ [(sessionId, status)] }
  | none =>
    let (status, _, server) :=
      opofDelSession sessionId (transport.stack d.deletes.length) d.server
    some { d with
      status := status
      server := server
      deletes := d.deletes ++ [(sessionId, status)] }

/-- The loop over the page; `sessionId` is an int. -/
def delLoop (transport : Transport) (retryAttempts : Nat) :
    List SessionResponseT → Deleting → Option Deleting
  | [], d => some d
  | response :: rest, d => do
    let sessionId := narrow response.sessionId
    let d ← attempt Deleting.unavailable (delCall transport sessionId) retryAttempts d
    delLoop transport retryAttempts rest d

def deleteAllTurn (transport : Transport) (retryAttempts : Nat) (pageSize : Word32)
    (d : Deleting) : Option Deleting := do
  let d ← attempt Deleting.unavailable (getAllCall transport pageSize) retryAttempts d
  delLoop transport retryAttempts d.responses d

/-- Returns `status` of the last state; none where the loop has not ended after so many turns,
or has met undefined behaviour. -/
def opofDeleteAllSessions (transport : Transport) (retryAttempts : Nat) (pageSize : Word32)
    (fuel : Nat) (s : Server) : Option Deleting :=
  run Deleting.running (deleteAllTurn transport retryAttempts pageSize) fuel (.begin s)

/-- The calls made to delete one session, from the `i`-th on: whether the last one reached the
server, and their answers. -/
def tries (del : Nat → Option Int) (id : Word64) : Nat → Nat → Bool × List (Word64 × Int)
  | more, i =>
    match del i with
    | none => (true, [(id, SessionStatus.ok.code)])
    | some status =>
      if status = SessionStatus.unavailable.code then
        match more with
        | 0 => (false, [(id, status)])
        | more + 1 => ((tries del id more (i + 1)).1, (id, status) :: (tries del id more (i + 1)).2)
      else (false, [(id, status)])

def sweep (del : Nat → Option Int) (retryAttempts : Nat) :
    List RecordT → Nat → List RecordT × List (Word64 × Int)
  | [], _ => ([], [])
  | r :: rest, i =>
    let (gone, calls) := tries del r.sessionId retryAttempts i
    let (left, later) := sweep del retryAttempts rest (i + calls.length)
    (if gone then left else r :: left, calls ++ later)

theorem sweep_append (del : Nat → Option Int) (retryAttempts : Nat) (rs ss : List RecordT)
    (i : Nat) :
    let first := sweep del retryAttempts rs i
    let second := sweep del retryAttempts ss (i + first.2.length)
    sweep del retryAttempts (rs ++ ss) i = (first.1 ++ second.1, first.2 ++ second.2) := by
  induction rs generalizing i with
  | nil => simp [sweep]
  | cons r rs ih =>
    simp only [List.cons_append, sweep]
    rw [ih]
    simp only [List.length_append, Nat.add_assoc, List.append_assoc]
    cases (tries del r.sessionId retryAttempts i).1 <;> simp

theorem sweep_sublist (del : Nat → Option Int) (retryAttempts : Nat) (l : List RecordT) (i : Nat) :
    (sweep del retryAttempts l i).1.Sublist l := by
  induction l generalizing i with
  | nil => exact List.Sublist.refl _
  | cons r l ih =>
    simp only [sweep]
    cases (tries del r.sessionId retryAttempts i).1 with
    | true => exact (ih _).trans (List.sublist_cons_self r l)
    | false => exact (ih _).cons_cons r

theorem filter_here {pre post : List RecordT} {r : RecordT}
    (distinct : ((pre ++ r :: post).map RecordT.sessionId).Nodup) :
    (pre ++ r :: post).filter (fun q => q.sessionId != r.sessionId) = pre ++ post := by
  rw [List.map_append, List.map_cons] at distinct
  obtain ⟨_, tail, apart⟩ := List.nodup_append.mp distinct
  have before : r.sessionId ∉ pre.map RecordT.sessionId :=
    fun member => apart _ member _ List.mem_cons_self rfl
  have after := (List.nodup_cons.mp tail).1
  rw [List.filter_append, List.filter_cons_of_neg (by simp), filter_absent before,
    filter_absent after]

theorem tries_through {del : Nat → Option Int} {i : Nat} (through : del i = none) (id : Word64)
    (more : Nat) : tries del id more i = (true, [(id, SessionStatus.ok.code)]) := by
  cases more <;> simp [tries, through]

theorem tries_last {del : Nat → Option Int} {i : Nat} {status : Int}
    (fails : del i = some status) (id : Word64) {more : Nat}
    (last : status ≠ SessionStatus.unavailable.code ∨ more = 0) :
    tries del id more i = (false, [(id, status)]) := by
  rcases last with other | rfl
  · cases more <;> simp [tries, fails, other]
  · simp [tries, fails]

theorem tries_again {del : Nat → Option Int} {i : Nat}
    (fails : del i = some SessionStatus.unavailable.code) (id : Word64) (more : Nat) :
    tries del id (more + 1) i = ((tries del id more (i + 1)).1,
      (id, SessionStatus.unavailable.code) :: (tries del id more (i + 1)).2) := by
  rw [tries]
  simp only [fails, if_pos]

def Deleting.after (d : Deleting) (status : Int) (sessions : List RecordT)
    (calls : List (Word64 × Int)) : Deleting :=
  { d with
    status := status
    server := { d.server with sessions := sessions }
    deletes := d.deletes ++ calls }

theorem after_after (d : Deleting) (status status' : Int) (sessions sessions' : List RecordT)
    (calls calls' : List (Word64 × Int)) :
    (d.after status sessions calls).after status' sessions' calls' =
      d.after status' sessions' (calls ++ calls') := by
  simp only [Deleting.after, List.append_assoc]

theorem delCall_through {transport : Transport} {d : Deleting} {pre post : List RecordT}
    {r : RecordT} (through : transport.del d.deletes.length = none) (keyed : d.server.Keyed)
    (table : d.server.sessions = pre ++ r :: post) (plain : narrow r.sessionId = r.sessionId) :
    delCall transport r.sessionId d = some (d.after SessionStatus.ok.code (pre ++ post)
      [(r.sessionId, SessionStatus.ok.code)]) := by
  have present : narrow r.sessionId ∈ d.server.ids := by
    rw [plain, Server.ids, table]
    exact List.mem_map_of_mem (List.mem_append_right _ List.mem_cons_self)
  obtain ⟨resp, q, run, left⟩ :=
    opofDelSession_present keyed present (transport.stack d.deletes.length)
  have distinct := keyed.distinct
  rw [Server.ids, table] at distinct
  rw [plain, table, filter_here distinct] at left
  have deleted : d.server.hashDel q = { d.server with sessions := pre ++ post } := by
    rw [← left]
    rfl
  rw [deleted] at run
  simp only [delCall, through, run, Deleting.after]

theorem delCall_fails {transport : Transport} {d : Deleting} {status : Int}
    (fails : transport.del d.deletes.length = some status) (id : Word64) :
    delCall transport id d = some (d.after status d.server.sessions [(id, status)]) := by
  simp only [delCall, fails, Deleting.after]

theorem attempt_tries (transport : Transport) (more : Nat) {d : Deleting}
    {pre post : List RecordT} {r : RecordT} (keyed : d.server.Keyed)
    (table : d.server.sessions = pre ++ r :: post) (plain : narrow r.sessionId = r.sessionId) :
    let out := tries transport.del r.sessionId more d.deletes.length
    ∃ status, attempt Deleting.unavailable (delCall transport r.sessionId) more d =
      some (d.after status (pre ++ (if out.1 then post else r :: post)) out.2) := by
  induction more generalizing d with
  | zero =>
    cases call : transport.del d.deletes.length with
    | none =>
      rw [tries_through call]
      exact ⟨_, delCall_through call keyed table plain⟩
    | some status =>
      have turn := delCall_fails call r.sessionId
      rw [table] at turn
      rw [tries_last call _ (.inr rfl)]
      exact ⟨status, turn⟩
  | succ more ih =>
    cases call : transport.del d.deletes.length with
    | none =>
      rw [tries_through call]
      exact ⟨_, attempt_once (delCall_through call keyed table plain) rfl _⟩
    | some status =>
      have turn := delCall_fails call r.sessionId
      by_cases again : status = SessionStatus.unavailable.code
      · subst again
        rw [attempt_again turn rfl, tries_again call]
        obtain ⟨last, rest⟩ := ih (d := d.after SessionStatus.unavailable.code d.server.sessions
          [(r.sessionId, SessionStatus.unavailable.code)]) keyed table
        rw [rest, after_after]
        simp [Deleting.after]
      · rw [table] at turn
        rw [attempt_once turn (by simp [Deleting.unavailable, Deleting.after, again]),
          tries_last call _ (.inl again)]
        exact ⟨status, rfl⟩

theorem delLoop_sweep (transport : Transport) (retryAttempts : Nat) {kept page rest : List RecordT}
    {responses : List SessionResponseT} {d : Deleting} (keyed : d.server.Keyed)
    (table : d.server.sessions = kept ++ (page ++ rest))
    (plain : ∀ r ∈ page, narrow r.sessionId = r.sessionId)
    (named : responses.map SessionResponseT.sessionId = page.map RecordT.sessionId) :
    let out := sweep transport.del retryAttempts page d.deletes.length
    ∃ status, delLoop transport retryAttempts responses d =
      some (d.after status (kept ++ (out.1 ++ rest)) out.2) := by
  induction page generalizing kept responses d with
  | nil =>
    rw [List.map_nil, List.map_eq_nil_iff] at named
    subst named
    refine ⟨d.status, ?_⟩
    have same : d = d.after d.status (kept ++ ([] ++ rest)) [] := by
      rw [← table, Deleting.after, List.append_nil]
    exact congrArg some same
  | cons r page ih =>
    obtain ⟨first, later⟩ := List.forall_mem_cons.mp plain
    obtain ⟨response, responses, rfl⟩ : ∃ a l, responses = a :: l := by
      cases responses with
      | nil => cases named
      | cons a l => exact ⟨a, l, rfl⟩
    obtain ⟨here, named⟩ := List.cons.inj named
    obtain ⟨status, turn⟩ := attempt_tries transport retryAttempts keyed table first
    have sent : narrow response.sessionId = r.sessionId := by rw [here, first]
    simp only [delLoop, sent, turn, Option.bind_eq_bind, Option.bind_some, sweep]
    cases gone : (tries transport.del r.sessionId retryAttempts d.deletes.length).1 with
    | true =>
      have sub : (kept ++ (page ++ rest)).Sublist d.server.sessions := by
        rw [table]
        exact (List.sublist_cons_self r (page ++ rest)).append_left kept
      obtain ⟨last, loop⟩ := @ih kept responses (d.after status (kept ++ (page ++ rest))
        (tries transport.del r.sessionId retryAttempts d.deletes.length).2)
        (keyed.sublist sub) rfl later named
      refine ⟨last, loop.trans ?_⟩
      rw [after_after]
      simp [Deleting.after]
    | false =>
      have sub : (kept ++ r :: (page ++ rest)).Sublist d.server.sessions := by
        rw [table]
        exact List.Sublist.refl _
      have same : kept ++ r :: (page ++ rest) = (kept ++ [r]) ++ (page ++ rest) := by simp
      obtain ⟨last, loop⟩ := @ih (kept ++ [r]) responses (d.after status
        (kept ++ r :: (page ++ rest))
        (tries transport.del r.sessionId retryAttempts d.deletes.length).2)
        (keyed.sublist sub) same later named
      refine ⟨last, loop.trans ?_⟩
      rw [after_after]
      simp [Deleting.after]

structure Deleting.At (d : Deleting) (kept l : List RecordT) : Prop where
  keyed : d.server.Keyed
  table : d.server.sessions = kept ++ l
  valid : CursorValid (d.server.enter d.sessionStart)
  pending : (d.server.enter d.sessionStart).pending = l

theorem at_plain {d : Deleting} {kept l : List RecordT} (keyed : d.server.Keyed)
    (table : d.server.sessions = kept ++ l) (other : d.sessionStart ≠ uintMax)
    (cursor : CursorValid d.server ∧ d.server.pending = l) : d.At kept l := by
  have stay : d.server.enter d.sessionStart = d.server := if_neg other
  exact ⟨keyed, table, stay.symm ▸ cursor.1, stay.symm ▸ cursor.2⟩

theorem begin_sweep {s : Server} (keyed : s.Keyed) :
    (Deleting.begin s).At [] s.sessions := by
  have rewound : s.enter uintMax = s.rewind := if_pos rfl
  refine ⟨keyed, rfl, ?_, ?_⟩
  · exact rewound ▸ rewind_valid s
  · exact rewound ▸ rewind_pending s

def Deleting.paged (d : Deleting) (rs : List SessionResponseT) (key : Word64) (t : Server) :
    Deleting :=
  { d with
    sessionStart := key
    nsessions := rs.length
    responses := rs
    status := SessionStatus.ok.code
    server := t
    getAlls := d.getAlls + 1 }

theorem getAllCall_page {transport : Transport} {d : Deleting} {t : Server}
    {rs : List SessionResponseT} {key : Word64} (through : transport.getAll d.getAlls = none)
    (page : getAllSessionsPage bufferMax d.sessionStart d.server = some (rs, key, t))
    (pageSize : Word32) : getAllCall transport pageSize d = some (d.paged rs key t) := by
  simp only [getAllCall, through, opofGetAllSessions_page page, Option.bind_eq_bind,
    Option.bind_some, Page.sessionCount, Deleting.paged]

theorem turn_page {transport : Transport} {retryAttempts : Nat} {pageSize : Word32}
    {d : Deleting} {t : Server} {rs : List SessionResponseT} {key : Word64}
    (turn : getAllCall transport pageSize d = some (d.paged rs key t)) :
    deleteAllTurn transport retryAttempts pageSize d =
      delLoop transport retryAttempts rs (d.paged rs key t) := by
  have answered : (d.paged rs key t).unavailable = false := rfl
  simp only [deleteAllTurn, attempt_once turn answered, Option.bind_eq_bind, Option.bind_some]
  rfl

theorem plain_ne_uintMax {id : Word64} (plain : narrow id = id) : id ≠ uintMax := by
  rintro rfl
  exact absurd plain (by decide)

theorem turn_sweeps {transport : Transport} (delivered : ∀ n, transport.getAll n = none)
    (retryAttempts : Nat) (pageSize : Word32) {d : Deleting} {kept l : List RecordT}
    (here : d.At kept l) (plain : ∀ r ∈ l, narrow r.sessionId = r.sessionId) :
    let out := sweep transport.del retryAttempts (l.take bufferMax) d.deletes.length
    ∃ d', deleteAllTurn transport retryAttempts pageSize d = some d' ∧
      d'.deletes = d.deletes ++ out.2 ∧ d'.nsessions = (l.take bufferMax).length ∧
      d'.server.sessions = kept ++ (out.1 ++ l.drop bufferMax) ∧
      (l ≠ [] → d'.At (kept ++ out.1) (l.drop bufferMax)) := by
  have pos : 1 ≤ bufferMax := by decide
  obtain ⟨rs, key, t, page, same, _, valid, reported, left, last⟩ :=
    page_spec here.keyed.blocks bufferMax d.sessionStart here.valid
  rw [here.pending] at reported left last
  rw [take_served pos] at reported last
  rw [drop_served pos] at left
  have count : rs.length = (l.take bufferMax).length := by
    have lengths := congrArg List.length reported
    simpa using lengths
  have turn := @turn_page transport retryAttempts _ _ _ _ _
    (getAllCall_page (delivered d.getAlls) page pageSize)
  have table : t.sessions = kept ++ (l.take bufferMax ++ l.drop bufferMax) := by
    rw [same, here.table, List.take_append_drop]
  have keyed : t.Keyed := here.keyed.sublist (same ▸ List.Sublist.refl _)
  obtain ⟨status, loop⟩ := delLoop_sweep transport retryAttempts (d := d.paged rs key t) keyed
    table (fun r member => plain r (List.mem_of_mem_take member)) reported
  refine ⟨_, turn.trans loop, rfl, count, rfl, fun more => ?_⟩
  have page_sub := sweep_sublist transport.del retryAttempts (l.take bufferMax) d.deletes.length
  have after : Server.Keyed { t with sessions := kept ++
      ((sweep transport.del retryAttempts (l.take bufferMax) d.deletes.length).1 ++
        l.drop bufferMax) } := by
    apply keyed.sublist
    rw [table]
    exact (page_sub.append_right _).append_left kept
  have start := start_of_valid keyed.blocks valid
  rw [left] at start
  have cursor := cursor_before after.blocks (List.append_assoc _ _ _).symm start
  have other : key ≠ uintMax := by
    have some_ids : (l.take bufferMax).map RecordT.sessionId ≠ [] := by
      simp only [ne_eq, List.map_eq_nil_iff, List.take_eq_nil_iff, not_or]
      exact ⟨by decide, more⟩
    obtain ⟨r, member, named⟩ := List.mem_map.mp (getLastD_mem some_ids d.sessionStart)
    rw [last, ← named]
    exact plain_ne_uintMax (plain r (List.mem_of_mem_take member))
  exact at_plain after (List.append_assoc _ _ _).symm other cursor

theorem run_sweeps {transport : Transport} (delivered : ∀ n, transport.getAll n = none)
    (retryAttempts : Nat) (pageSize : Word32) (fuel : Nat) {d : Deleting}
    {kept l : List RecordT} (here : d.At kept l)
    (plain : ∀ r ∈ l, narrow r.sessionId = r.sessionId) (more : d.running = true)
    (enough : l.length < fuel) :
    let out := sweep transport.del retryAttempts l d.deletes.length
    ∃ d', run Deleting.running (deleteAllTurn transport retryAttempts pageSize) fuel d = some d' ∧
      d'.deletes = d.deletes ++ out.2 ∧ d'.server.sessions = kept ++ out.1 := by
  induction fuel generalizing d kept l with
  | zero => omega
  | succ fuel ih =>
    obtain ⟨d', turn, calls, count, table, next⟩ :=
      turn_sweeps delivered retryAttempts pageSize here plain
    rw [run_turn more turn]
    have size : bufferMax = 64 := rfl
    rw [List.length_take] at count
    rcases Nat.eq_zero_or_pos l.length with none | some_left
    · have nothing : l = [] := List.eq_nil_of_length_eq_zero none
      have stopped : d'.running = false := decide_eq_false (by omega)
      subst nothing
      rw [run_stopped stopped]
      exact ⟨d', rfl, calls, by simpa [sweep] using table⟩
    · have running : d'.running = true := decide_eq_true (by omega)
      have rest := next (List.ne_nil_of_length_pos some_left)
      obtain ⟨d'', ends, all, final⟩ := ih rest
        (fun r member => plain r (List.mem_of_mem_drop member)) running
        (by rw [List.length_drop]; omega)
      have both := sweep_append transport.del retryAttempts (l.take bufferMax) (l.drop bufferMax)
        d.deletes.length
      rw [List.take_append_drop] at both
      rw [calls, List.length_append] at all final
      refine ⟨d'', ends, ?_, ?_⟩
      · rw [all, both, List.append_assoc]
      · rw [final, both, List.append_assoc]

theorem narrow_narrow (id : Word64) : narrow (narrow id) = narrow id := by
  rw [narrow_fixed_iff]
  have low : (narrow id).toInt = (id.setWidth 32).toInt := by
    rw [narrow, BitVec.toInt_signExtend_of_le (by decide)]
  have upper := (id.setWidth 32).toInt_lt
  have lower := (id.setWidth 32).le_toInt
  rw [low]
  omega

theorem sweep_reliable {del : Nat → Option Int} (reliable : ∀ n, del n = none)
    (retryAttempts : Nat) (l : List RecordT) (i : Nat) :
    sweep del retryAttempts l i = ([], l.map (fun r => (r.sessionId, SessionStatus.ok.code))) := by
  induction l generalizing i with
  | nil => rfl
  | cons r l ih =>
    simp only [sweep, tries_through (reliable i), ih, if_true]
    rfl

/-- With ids that fit an int and no failures, every session is deleted by one call, and each
page request finds the cursor on a session of the table or behind them all. -/
theorem delete_all_empties (transport : Transport) (delivered : ∀ n, transport.getAll n = none)
    (reached : ∀ n, transport.del n = none) (retryAttempts : Nat) (pageSize : Word32)
    (s : Server) (keyed : s.Keyed) (small : ∀ id ∈ s.ids, id.toNat < 2147483648) :
    (∃ fuel d, opofDeleteAllSessions transport retryAttempts pageSize fuel s = some d ∧
      d.deletes = s.ids.map (fun id => (id, SessionStatus.ok.code)) ∧ d.server.sessions = []) ∧
    ∀ d, Reached Deleting.running (deleteAllTurn transport retryAttempts pageSize) (.begin s) d →
      d.running = true → CursorValid (d.server.enter d.sessionStart) := by
  have plain : ∀ r ∈ s.sessions, narrow r.sessionId = r.sessionId := by
    intro r member
    have bound := small r.sessionId (List.mem_map_of_mem member)
    have signed := BitVec.toInt_eq_toNat_cond r.sessionId
    rw [narrow_fixed_iff]
    split at signed <;> omega
  constructor
  · obtain ⟨d, ends, calls, table⟩ := run_sweeps delivered retryAttempts pageSize
      (s.sessions.length + 1) (begin_sweep keyed) plain rfl (Nat.lt_succ_self _)
    rw [sweep_reliable reached] at calls table
    refine ⟨_, d, ends, calls.trans ?_, table⟩
    simp [Deleting.begin, Server.ids, List.map_map, Function.comp_def]
  · intro d states running
    have invariant : d.running = true → ∃ kept l, d.At kept l ∧
        ∀ r ∈ l, narrow r.sessionId = r.sessionId := by
      induction states with
      | start => exact fun _ => ⟨[], s.sessions, begin_sweep keyed, plain⟩
      | @turn t u _ more step ih =>
        intro still
        obtain ⟨kept, l, here, fits⟩ := ih more more
        obtain ⟨u', turn, _, count, _, next⟩ :=
          turn_sweeps delivered retryAttempts pageSize here fits
        cases step.symm.trans turn
        have left : l ≠ [] := by
          rintro rfl
          rw [Deleting.running, count] at still
          cases still
        exact ⟨_, _, next left, fun r member => fits r (List.mem_of_mem_drop member)⟩
    obtain ⟨kept, l, here, _⟩ := invariant running
    exact here.valid

def reliableTransport : Transport := ⟨fun _ => none, fun _ => none, fun _ => zeroResponse⟩

/-- Two pages, with the cursor left inside the first one. -/
theorem delete_all_empties_pages : ∃ fuel d,
    opofDeleteAllSessions reliableTransport 100 64#32 fuel
      (tableOf (idsFrom 100#64 65) (some 40)) = some d ∧
    d.deletes = (idsFrom 100#64 65).map (fun id => (id, SessionStatus.ok.code)) ∧
    d.server.sessions = [] := by
  have keyed := tableOf_keyed (idsFrom_nodup 100#64 (by decide : 65 ≤ hashtableSize + 1)) (some 40)
  have small : ∀ id ∈ (tableOf (idsFrom 100#64 65) (some 40)).ids, id.toNat < 2147483648 := by
    rw [tableOf_ids]
    intro id member
    obtain ⟨i, less, rfl⟩ := List.mem_map.mp member
    have few := List.mem_range.mp less
    rw [BitVec.toNat_add, BitVec.toNat_ofNat]
    change (i % 2 ^ 64 + 100) % 2 ^ 64 < 2147483648
    omega
  obtain ⟨⟨fuel, d, ends, deletes, empty⟩, _⟩ := delete_all_empties reliableTransport
    (fun _ => rfl) (fun _ => rfl) 100 64#32 _ keyed small
  exact ⟨fuel, d, ends, by rw [deletes, tableOf_ids], empty⟩

/-- From the `i`-th call on, the session's `j`-th repetition is the first call that does not
come back unavailable, and it reaches the server. -/
structure GetsThrough (del : Nat → Option Int) (retryAttempts i j : Nat) : Prop where
  within : j ≤ retryAttempts
  repeated : ∀ m < j, del (i + m) = some SessionStatus.unavailable.code
  reached : del (i + j) = none

/-- The calls for each of `n` sessions, from the `i`-th call on, end with one that reaches the
server. -/
def AllGetThrough (del : Nat → Option Int) (retryAttempts : Nat) : Nat → Nat → Prop
  | 0, _ => True
  | n + 1, i => ∃ j, GetsThrough del retryAttempts i j ∧
      AllGetThrough del retryAttempts n (i + j + 1)

theorem tries_gets_through (del : Nat → Option Int) (id : Word64) {more i j : Nat}
    (through : GetsThrough del more i j) :
    (tries del id more i).1 = true ∧ (tries del id more i).2.length = j + 1 := by
  induction more generalizing i j with
  | zero =>
    cases Nat.le_zero.mp through.within
    have reached : del i = none := through.reached
    rw [tries_through reached]
    exact ⟨rfl, rfl⟩
  | succ more ih =>
    cases j with
    | zero =>
      have reached : del i = none := through.reached
      rw [tries_through reached]
      exact ⟨rfl, rfl⟩
    | succ j =>
      have later : GetsThrough del more (i + 1) j := by
        refine ⟨Nat.le_of_succ_le_succ through.within, fun m less => ?_, ?_⟩
        · rw [Nat.add_assoc, Nat.add_comm 1 m]
          exact through.repeated (m + 1) (Nat.succ_lt_succ less)
        · rw [Nat.add_assoc, Nat.add_comm 1 j]
          exact through.reached
      obtain ⟨gone, count⟩ := ih later
      have first : del i = some SessionStatus.unavailable.code :=
        through.repeated 0 (Nat.succ_pos j)
      rw [tries_again first]
      exact ⟨gone, congrArg (· + 1) count⟩

theorem tries_gone (del : Nat → Option Int) (id : Word64) {more i : Nat}
    (gone : (tries del id more i).1 = true) : ∃ j, GetsThrough del more i j := by
  induction more generalizing i with
  | zero =>
    cases call : del i with
    | none => exact ⟨0, Nat.le_refl 0, fun m less => absurd less (Nat.not_lt_zero m), call⟩
    | some status =>
      rw [tries_last call id (.inr rfl)] at gone
      cases gone
  | succ more ih =>
    cases call : del i with
    | none => exact ⟨0, Nat.zero_le _, fun m less => absurd less (Nat.not_lt_zero m), call⟩
    | some status =>
      by_cases again : status = SessionStatus.unavailable.code
      · subst again
        rw [tries_again call] at gone
        obtain ⟨j, within, repeated, reached⟩ := ih gone
        refine ⟨j + 1, Nat.succ_le_succ within, fun m less => ?_, ?_⟩
        · cases m with
          | zero => exact call
          | succ m =>
            have here := repeated m (Nat.lt_of_succ_lt_succ less)
            rwa [Nat.add_assoc, Nat.add_comm 1 m] at here
        · rwa [Nat.add_assoc, Nat.add_comm 1 j] at reached
      · rw [tries_last call id (.inl again)] at gone
        cases gone

theorem sweep_empty_iff (del : Nat → Option Int) (retryAttempts : Nat) (l : List RecordT)
    (i : Nat) :
    (sweep del retryAttempts l i).1 = [] ↔ AllGetThrough del retryAttempts l.length i := by
  induction l generalizing i with
  | nil => exact iff_of_true rfl trivial
  | cons r l ih =>
    simp only [sweep, List.length_cons, AllGetThrough]
    cases gone : (tries del r.sessionId retryAttempts i).1 with
    | true =>
      simp only [if_true]
      rw [ih]
      constructor
      · intro rest
        obtain ⟨j, through⟩ := tries_gone del r.sessionId gone
        have count := (tries_gets_through del r.sessionId through).2
        refine ⟨j, through, ?_⟩
        rwa [count] at rest
      · rintro ⟨j, through, rest⟩
        rw [(tries_gets_through del r.sessionId through).2]
        exact rest
    | false =>
      refine iff_of_false (by simp) ?_
      rintro ⟨j, through, _⟩
      rw [(tries_gets_through del r.sessionId through).1] at gone
      cases gone

theorem delCall_table {transport : Transport} {id : Word64} {d d' : Deleting}
    (keyed : d.server.Keyed) (call : delCall transport id d = some d') :
    d'.nsessions = d.nsessions ∧ (d'.server.sessions = d.server.sessions ∨
      d'.server.sessions = d.server.sessions.filter (fun r => r.sessionId != narrow id)) := by
  cases fails : transport.del d.deletes.length with
  | some status =>
    rw [delCall_fails fails] at call
    cases call
    exact ⟨rfl, .inl rfl⟩
  | none =>
    simp only [delCall, fails] at call
    cases call
    refine ⟨rfl, ?_⟩
    by_cases present : narrow id ∈ d.server.ids
    · obtain ⟨resp, r, run, left⟩ :=
        opofDelSession_present keyed present (transport.stack d.deletes.length)
      rw [run]
      exact .inr left
    · obtain ⟨resp, run⟩ := opofDelSession_absent present (transport.stack d.deletes.length)
      rw [run]
      exact .inl rfl

structure Kept (n : Nat) (x : Word64) (d : Deleting) : Prop where
  keyed : d.server.Keyed
  count : d.nsessions = n
  wide : narrow x ≠ x → x ∈ d.server.ids

theorem delCall_keeps {transport : Transport} {n : Nat} {x : Word64} (id : Word64)
    (d d' : Deleting) (kept : Kept n x d) (call : delCall transport id d = some d') :
    Kept n x d' := by
  obtain ⟨count, same | filtered⟩ := delCall_table kept.keyed call
  · refine ⟨kept.keyed.sublist (same ▸ List.Sublist.refl _), count.trans kept.count, ?_⟩
    rw [Server.ids, same]
    exact kept.wide
  · refine ⟨kept.keyed.sublist (filtered ▸ List.filter_sublist), count.trans kept.count,
      fun wide => ?_⟩
    have other : x ≠ narrow id := fun same => wide (same ▸ narrow_narrow id)
    rw [ids_filter (p := fun k => k != narrow id) filtered]
    exact List.mem_filter.mpr ⟨kept.wide wide, by simpa using other⟩

theorem delLoop_invariant {transport : Transport} {retryAttempts : Nat} (Inv : Deleting → Prop)
    (keeps : ∀ id d d', Inv d → delCall transport id d = some d' → Inv d')
    {responses : List SessionResponseT} {d d' : Deleting}
    (loop : delLoop transport retryAttempts responses d = some d') (start : Inv d) : Inv d' := by
  induction responses generalizing d with
  | nil =>
    cases loop
    exact start
  | cons response responses ih =>
    simp only [delLoop, Option.bind_eq_bind, Option.bind_eq_some_iff] at loop
    obtain ⟨u, calls, rest⟩ := loop
    exact ih rest (attempt_invariant Inv (keeps _) retryAttempts calls start)

theorem getAllCall_some {transport : Transport} (delivered : ∀ n, transport.getAll n = none)
    {pageSize : Word32} {d u : Deleting} (keyed : d.server.Keyed)
    (call : getAllCall transport pageSize d = some u) :
    ∃ rs key t, getAllCall transport pageSize d = some (d.paged rs key t) ∧
      t.sessions = d.server.sessions := by
  by_cases valid : CursorValid (d.server.enter d.sessionStart)
  · obtain ⟨rs, key, t, page, same, _⟩ := page_spec keyed.blocks bufferMax d.sessionStart valid
    exact ⟨rs, key, t, getAllCall_page (delivered _) page pageSize, same⟩
  · have undefined := page_dangling bufferMax d.sessionStart valid
    simp [getAllCall, delivered, opofGetAllSessions_undefined undefined] at call

/-- The last call of a turn without sessions is the get-all call, so the status is its own. A
session whose id does not fit an int stays. -/
theorem turn_keeps {transport : Transport} (delivered : ∀ n, transport.getAll n = none)
    {retryAttempts : Nat} {pageSize : Word32} {d d' : Deleting} {x : Word64}
    (keyed : d.server.Keyed) (wide : narrow x ≠ x → x ∈ d.server.ids)
    (turn : deleteAllTurn transport retryAttempts pageSize d = some d') :
    Kept d'.nsessions x d' ∧ (d'.nsessions = 0 → d'.status = SessionStatus.ok.code) := by
  have calls := turn
  simp only [deleteAllTurn, Option.bind_eq_bind, Option.bind_eq_some_iff] at calls
  obtain ⟨u, asked, _⟩ := calls
  have called : ∃ v, getAllCall transport pageSize d = some v := by
    cases call : getAllCall transport pageSize d with
    | some v => exact ⟨v, rfl⟩
    | none => cases retryAttempts <;> simp [attempt, call] at asked
  obtain ⟨v, call⟩ := called
  obtain ⟨rs, key, t, page, same⟩ := getAllCall_some delivered keyed call
  rw [turn_page page] at turn
  have start : Kept rs.length x (d.paged rs key t) := by
    refine ⟨keyed.sublist (same ▸ List.Sublist.refl _), rfl, ?_⟩
    have ids : t.ids = d.server.ids := by rw [Server.ids, same, Server.ids]
    exact fun far => ids ▸ wide far
  have kept := delLoop_invariant (Kept rs.length x) delCall_keeps turn start
  refine ⟨⟨kept.keyed, rfl, kept.wide⟩, fun none => ?_⟩
  rw [kept.count] at none
  cases List.eq_nil_of_length_eq_zero none
  cases turn
  rfl

structure Deletable (del : Nat → Option Int) (retryAttempts : Nat) (s : Server) : Prop where
  ids : ∀ id ∈ s.ids, -2147483648 ≤ id.toInt ∧ id.toInt < 2147483648
  calls : AllGetThrough del retryAttempts s.ids.length 0

theorem run_keeps {transport : Transport} (delivered : ∀ n, transport.getAll n = none)
    {retryAttempts : Nat} {pageSize : Word32} {s : Server} (keyed : s.Keyed) {x : Word64}
    (wide : narrow x ≠ x → x ∈ s.ids) {fuel : Nat} {d : Deleting}
    (ends : opofDeleteAllSessions transport retryAttempts pageSize fuel s = some d) :
    d.status = SessionStatus.ok.code ∧ (narrow x ≠ x → x ∈ d.server.ids) := by
  have start : Kept (Deleting.begin s).nsessions x (.begin s) ∧
      ((Deleting.begin s).nsessions = 0 → (Deleting.begin s).status = SessionStatus.ok.code) :=
    ⟨⟨keyed, rfl, wide⟩, fun _ => rfl⟩
  obtain ⟨⟨kept, answered⟩, stopped⟩ := run_invariant
    (fun d => Kept d.nsessions x d ∧ (d.nsessions = 0 → d.status = SessionStatus.ok.code))
    (fun u v inv turn => turn_keeps delivered inv.1.keyed inv.1.wide turn) fuel ends start
  have none : d.nsessions = 0 := Nat.eq_zero_of_not_pos (of_decide_eq_false stopped)
  exact ⟨answered none, kept.wide⟩

theorem run_swept {transport : Transport} (delivered : ∀ n, transport.getAll n = none)
    (retryAttempts : Nat) (pageSize : Word32) {s : Server} (keyed : s.Keyed)
    (ids : ∀ id ∈ s.ids, -2147483648 ≤ id.toInt ∧ id.toInt < 2147483648) :
    ∃ fuel d, opofDeleteAllSessions transport retryAttempts pageSize fuel s = some d ∧
      d.server.sessions = (sweep transport.del retryAttempts s.sessions 0).1 := by
  have plain : ∀ r ∈ s.sessions, narrow r.sessionId = r.sessionId :=
    fun r member => (narrow_fixed_iff _).mpr (ids _ (List.mem_map_of_mem member))
  obtain ⟨d, ends, _, table⟩ := run_sweeps delivered retryAttempts pageSize
    (s.sessions.length + 1) (begin_sweep keyed) plain rfl (Nat.lt_succ_self _)
  exact ⟨_, d, ends, table⟩

theorem run_empties_iff {transport : Transport} (delivered : ∀ n, transport.getAll n = none)
    {retryAttempts : Nat} {pageSize : Word32} {s : Server} (keyed : s.Keyed) {fuel : Nat}
    {d : Deleting} (ends : opofDeleteAllSessions transport retryAttempts pageSize fuel s = some d) :
    d.server.sessions = [] ↔ Deletable transport.del retryAttempts s := by
  by_cases ids : ∀ id ∈ s.ids, -2147483648 ≤ id.toInt ∧ id.toInt < 2147483648
  · obtain ⟨fuel', d', ends', table⟩ := run_swept delivered retryAttempts pageSize keyed ids
    cases run_unique ends ends'
    rw [table, sweep_empty_iff, ← Server.length_ids]
    exact ⟨fun calls => ⟨ids, calls⟩, Deletable.calls⟩
  · refine iff_of_false (fun empty => ?_) (fun deletable => ids deletable.ids)
    simp only [not_forall] at ids
    obtain ⟨x, member, far⟩ := ids
    rw [← narrow_fixed_iff] at far
    have left := (run_keeps delivered keyed (fun _ => member) ends).2 far
    rw [Server.ids, empty] at left
    cases left

/-- Whatever the delete calls come to, the function ends with the status of a get-all call, which
is SUCCESS. So where it returns, an empty table is what SUCCESS means exactly when a call for each
session gets through and every id fits an int. That is enough for it to return as well, and with
ids that fit it returns in any case. -/
theorem delete_all_success (transport : Transport) (delivered : ∀ n, transport.getAll n = none)
    (retryAttempts : Nat) (pageSize : Word32) (s : Server) (keyed : s.Keyed) :
    (∀ fuel d, opofDeleteAllSessions transport retryAttempts pageSize fuel s = some d →
      d.status = SessionStatus.ok.code ∧
        (d.server.sessions = [] ↔ Deletable transport.del retryAttempts s)) ∧
    (Deletable transport.del retryAttempts s → ∃ fuel d,
      opofDeleteAllSessions transport retryAttempts pageSize fuel s = some d ∧
        d.status = SessionStatus.ok.code ∧ d.server.sessions = []) ∧
    ((∀ id ∈ s.ids, -2147483648 ≤ id.toInt ∧ id.toInt < 2147483648) →
      (∃ fuel d, opofDeleteAllSessions transport retryAttempts pageSize fuel s = some d) ∧
      ((∀ fuel d, opofDeleteAllSessions transport retryAttempts pageSize fuel s = some d →
          d.status = SessionStatus.ok.code → d.server.sessions = []) ↔
        AllGetThrough transport.del retryAttempts s.ids.length 0)) := by
  have answered (fuel : Nat) (d : Deleting)
      (ends : opofDeleteAllSessions transport retryAttempts pageSize fuel s = some d) :
      d.status = SessionStatus.ok.code := by
    have zero : narrow 0#64 ≠ 0#64 → 0#64 ∈ s.ids := fun other => absurd rfl other
    exact (run_keeps delivered keyed zero ends).1
  refine ⟨fun fuel d ends => ⟨answered fuel d ends, run_empties_iff delivered keyed ends⟩,
    fun deletable => ?_, fun ids => ?_⟩
  · obtain ⟨fuel, d, ends, _⟩ := run_swept delivered retryAttempts pageSize keyed deletable.ids
    have empty := (run_empties_iff delivered keyed ends).mpr deletable
    exact ⟨fuel, d, ends, answered fuel d ends, empty⟩
  · obtain ⟨fuel, d, ends, _⟩ := run_swept delivered retryAttempts pageSize keyed ids
    refine ⟨⟨fuel, d, ends⟩, fun property => ?_, fun calls fuel' d' ends' _ => ?_⟩
    · have empty := property fuel d ends (answered fuel d ends)
      exact ((run_empties_iff delivered keyed ends).mp empty).calls
    · exact (run_empties_iff delivered keyed ends').mpr ⟨ids, calls⟩

/-- The delete calls with the numbers in `late` miss their deadline, those in `away` find no
server. -/
def troubledTransport (late away : List Nat) : Transport where
  getAll := fun _ => none
  del := fun n =>
    if n ∈ late then some SessionStatus.deadlineExceeded.code
    else if n ∈ away then some SessionStatus.unavailable.code
    else none
  stack := fun _ => zeroResponse

/-- The second of three sessions is asked to be deleted three times, the last time with success;
if its deadline passes instead, it stays. -/
theorem delete_all_success_three :
    (∃ fuel d, opofDeleteAllSessions (troubledTransport [] [1, 2]) 100 64#32 fuel
        (tableOf [7#64, 8#64, 9#64] none) = some d ∧
      d.status = SessionStatus.ok.code ∧ d.server.sessions = []) ∧
    ∃ fuel d, opofDeleteAllSessions (troubledTransport [1] []) 100 64#32 fuel
        (tableOf [7#64, 8#64, 9#64] none) = some d ∧
      d.status = SessionStatus.ok.code ∧ d.server.sessions ≠ [] := by
  have keyed : (tableOf [7#64, 8#64, 9#64] none).Keyed := tableOf_keyed (by decide) none
  have ids : ∀ id ∈ (tableOf [7#64, 8#64, 9#64] none).ids,
      -2147483648 ≤ id.toInt ∧ id.toInt < 2147483648 := by
    rw [tableOf_ids]
    simp only [List.forall_mem_cons, List.not_mem_nil, false_imp_iff, implies_true, and_true]
    decide
  constructor
  · refine (delete_all_success (troubledTransport [] [1, 2]) (fun _ => rfl) 100 64#32
      (tableOf [7#64, 8#64, 9#64] none) keyed).2.1 ⟨ids, ?_⟩
    exact (sweep_empty_iff _ 100 (tableOf [7#64, 8#64, 9#64] none).sessions 0).mp (by decide)
  · obtain ⟨returned, _, runs⟩ := delete_all_success (troubledTransport [1] []) (fun _ => rfl) 100
      64#32 (tableOf [7#64, 8#64, 9#64] none) keyed
    obtain ⟨fuel, d, ends⟩ := (runs ids).1
    refine ⟨fuel, d, ends, (returned fuel d ends).1, fun empty => ?_⟩
    have calls := ((returned fuel d ends).2.mp empty).calls
    have swept := (sweep_empty_iff _ 100 (tableOf [7#64, 8#64, 9#64] none).sessions 0).mpr calls
    exact absurd swept (by decide)

/-- The session stays in the table, and the function returns SUCCESS. -/
theorem delete_all_late : ∃ d,
    opofDeleteAllSessions (troubledTransport [0] []) 100 64#32 2 (leftTable 7#64) = some d ∧
    d.status = SessionStatus.ok.code ∧ d.server.ids = [7#64] :=
  ⟨_, rfl, rfl, rfl⟩

end SessionOffload
