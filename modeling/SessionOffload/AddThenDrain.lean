import SessionOffload.StoreDesk
import SessionOffload.ClosedStream
import SessionOffload.Lib.Loop

/-! opof_test1: one loop adds sessions in batches of the page size, a second one takes
closed sessions off the server until a call returns none. -/
namespace SessionOffload
open SessionTableClient SessionTableImpl Intake

/-- The variables of the add loop, with the requests of each batch and what it was answered. -/
structure Adding where
  maxSessions : Word32
  sessionId : Word32
  addResp : AddSessionResponseT
  server : Server
  log : List (List SessionRequestT × AddSessionResponseT)

/-- `while (max_sessions > 0)` of an int. -/
def Adding.running (w : Adding) : Bool := decide (0 < w.maxSessions.toInt)

/-- `sessionCount = max_sessions - pageSize` is an unsigned difference stored in an int. The
k-th batch finds `block k` in the blocks of its requests and `stack k` in the server's
struct; the test gives up when a call fails. -/
def addTurn (pageSize : Word32) (block stack : Nat → SessionRequestT) (w : Adding) :
    Option Adding := do
  let sessionCount := w.maxSessions - pageSize
  let bufferSize := if sessionCount.toInt < 0 then w.maxSessions else pageSize
  let request := createSessionRequest (block w.log.length) bufferSize.toNat
    (w.sessionId.signExtend 64)
  let (status, addResp, server) ←
    opofAddSession request w.addResp (stack w.log.length) w.server
  if status ≠ SessionStatus.ok.code then none
  else some {
    maxSessions := sessionCount
    sessionId := w.sessionId + bufferSize
    addResp := addResp
    server := server
    log := w.log ++ [(request, addResp)] }

def Adding.begin (maxSessions : Word32) (addResp : AddSessionResponseT) (s : Server) : Adding :=
  ⟨maxSessions, 0#32, addResp, s, []⟩

def answeredOk (batch : List SessionRequestT) (resp : AddSessionResponseT) : List Word64 :=
  let listed := (resp.sessionErrors.toList.take resp.numberErrors).map AddSessionErrors.sessionId
  (batch.map SessionRequestT.sessId).filter (fun id => !listed.contains id)

theorem answeredOk_unlisted (batch : List SessionRequestT) (resp : AddSessionResponseT) :
    answeredOk batch resp = (batch.map SessionRequestT.sessId).filter fun id =>
      id ∉ (resp.sessionErrors.toList.take resp.numberErrors).map AddSessionErrors.sessionId := by
  simp [answeredOk]

def Adding.offered (w : Adding) : List Word64 :=
  w.log.flatMap (fun l => l.1.map SessionRequestT.sessId)

def Adding.accepted (w : Adding) : List Word64 := w.log.flatMap (fun l => answeredOk l.1 l.2)

structure Draining where
  closedSessions : Nat
  server : Server
  pages : List (List SessionResponseT)

def Draining.begin (s : Server) : Draining := ⟨1, s, []⟩

def Draining.running (d : Draining) : Bool := decide (0 < d.closedSessions)

def drainTurn (pageSize : Word32) (d : Draining) : Option Draining := do
  let page ← opofGetClosedSessions pageSize d.server
  if 0 < page.sessionCount ∧ page.status = SessionStatus.notFound.code ∧
      page.status ≠ SessionStatus.ok.code then none
  else some ⟨page.sessionCount, page.server, d.pages ++ [page.responses]⟩

def Draining.reported (d : Draining) : List Word64 :=
  d.pages.flatten.map SessionResponseT.sessionId

theorem idsFrom_append (first : Word64) (m n : Nat) :
    idsFrom first (m + n) = idsFrom first m ++ idsFrom (BitVec.ofNat 64 m + first) n := by
  simp only [idsFrom, List.range_add, List.map_append, List.map_map]
  congr 1
  apply List.map_congr_left
  intro i _
  simp only [Function.comp_apply, BitVec.ofNat_add]
  ac_rfl

theorem rejections_subset (batch : List SessionRequestT) (statuses : List SessionStatus) :
    ∀ id ∈ (rejections batch statuses).map SessionResponseError.sessionId,
      id ∈ batch.map SessionRequestT.sessId := by
  intro id listed
  obtain ⟨e, he, rfl⟩ := List.mem_map.mp listed
  obtain ⟨⟨q, status⟩, paired, rejected⟩ := List.mem_filterMap.mp he
  have member := List.mem_map_of_mem (f := SessionRequestT.sessId) (List.of_mem_zip paired).1
  by_cases accepted : status = .ok
  · simp [accepted] at rejected
  · simp only [accepted, if_false, Option.some.injEq] at rejected
    exact rejected ▸ member

theorem unlisted_accepted (batch : List SessionRequestT) (statuses : List SessionStatus)
    (all : statuses.length = batch.length)
    (distinct : (batch.map SessionRequestT.sessId).Nodup) :
    (batch.map SessionRequestT.sessId).filter
        (fun id => id ∉ (rejections batch statuses).map SessionResponseError.sessionId) =
      (acceptances batch statuses).map SessionRequestT.sessId := by
  induction batch generalizing statuses with
  | nil => rfl
  | cons q batch ih =>
    cases statuses with
    | nil => cases all
    | cons status statuses =>
      obtain ⟨fresh, rest⟩ := List.nodup_cons.mp distinct
      have later := ih statuses (Nat.succ.inj all) rest
      rw [rejections_cons, acceptances_cons, List.map_append, List.map_append, ← later]
      by_cases accepted : status = .ok
      · have first : q.sessId ∉ (rejections batch statuses).map SessionResponseError.sessionId :=
          fun listed => fresh (rejections_subset batch statuses _ listed)
        have none : rejections [q] [status] = [] := by simp [rejections, accepted]
        have one : acceptances [q] [status] = [q] := by simp [acceptances, accepted]
        rw [none, one, List.map_cons, List.filter_cons_of_pos (by simpa using first)]
        rfl
      · have one : rejections [q] [status] = [⟨q.sessId, status.code⟩] := by
          simp [rejections, accepted]
        have none : acceptances [q] [status] = [] := by simp [acceptances, accepted]
        simp only [one, none, List.map_cons, List.map_nil, List.nil_append, List.singleton_append]
        rw [List.filter_cons_of_neg (by simp)]
        apply List.filter_congr
        intro id member
        have other : id ≠ q.sessId := fun same => fresh (same ▸ member)
        simp [other]

theorem carried_ids {batch : List SessionRequestT} {records : List RecordT}
    (rows : List.Forall₂ Carries batch records) :
    records.map RecordT.sessionId = batch.map SessionRequestT.sessId := by
  induction rows with
  | nil => rfl
  | cons carried _ ih => rw [List.map_cons, List.map_cons, carried.sessionId, ih]

theorem add_batch {batch : List SessionRequestT} (few : batch.length ≤ bufferMax)
    (distinct : (batch.map SessionRequestT.sessId).Nodup) (resp : AddSessionResponseT)
    (stack : SessionRequestT) {s : Server} (inv : s.Inv) :
    ∃ resp' t, opofAddSession batch resp stack s = some (SessionStatus.ok.code, resp', t) ∧
      t.Inv ∧ t.ids = s.ids ++ answeredOk batch resp' := by
  obtain ⟨t, served, keeps, _⟩ := addSession_offers batch stack s
  obtain ⟨u, records, served', all, table, rows⟩ := addSession_served batch stack s
  have same : t = u := by
    have equal := served.symm.trans served'
    exact congrArg (fun r => r.2.2) (Option.some.inj equal)
  subst same
  obtain ⟨resp', run, _, entries⟩ := opofAddSession_of_served served
    (Nat.le_trans (rejections_length batch _) few) resp
  refine ⟨resp', t, run, keeps inv, ?_⟩
  have named (errors : List SessionResponseError) :
      (errors.map errorEntry).map AddSessionErrors.sessionId =
        errors.map SessionResponseError.sessionId := by
    rw [List.map_map]
    rfl
  rw [Server.ids, table, List.map_append, carried_ids rows, answeredOk_unlisted, entries, named,
    unlisted_accepted batch _ all distinct]
  rfl

/-- What the add loop has done with `n` sessions to add: the ids offered so far are those
below `sessionId`, and the table holds the accepted ones. -/
structure Adding.At (n pageSize : Word32) (w : Adding) : Prop where
  inv : w.server.Inv
  offered : w.offered = idsFrom 0#64 w.sessionId.toNat
  table : w.server.ids = w.accepted
  few : ∀ l ∈ w.log, l.1.length ≤ pageSize.toNat
  left : 0 < w.maxSessions.toInt → w.maxSessions.toInt = n.toInt - w.sessionId.toNat
  done : w.maxSessions.toInt ≤ 0 → (w.sessionId.toNat : Int) = n.toInt

theorem begin_at {n : Word32} (natural : 0 ≤ n.toInt) (pageSize : Word32)
    (resp : AddSessionResponseT) {s : Server} (empty : s.sessions = []) :
    (Adding.begin n resp s).At n pageSize where
  inv := by
    have none (r : RecordT) : r ∉ s.sessions := by simp [empty]
    exact ⟨by simp [Adding.begin, Server.ids, empty], by simp [Adding.begin, empty],
      fun r hr => (none r hr).elim, fun r hr => (none r hr).elim, by simp [Adding.begin, empty]⟩
  offered := rfl
  table := by simp [Adding.begin, Server.ids, empty, Adding.accepted]
  few := by simp [Adding.begin]
  left := fun _ => by simp [Adding.begin]
  done := fun low => by
    have zero : n.toInt ≤ 0 := low
    change ((0 : Nat) : Int) = n.toInt
    omega

theorem signExtend_natural {w : Word32} (natural : w.toNat < 2147483648) :
    w.signExtend 64 = BitVec.ofNat 64 w.toNat := by
  have low : w.msb = false := by
    rw [BitVec.msb_eq_decide]
    exact decide_eq_false (by omega)
  rw [BitVec.signExtend_eq_setWidth_of_msb_false low, BitVec.ofNat_toNat]

section
variable {n pageSize : Word32} (page : 1 ≤ pageSize.toNat ∧ pageSize.toNat ≤ bufferMax)
include page

theorem count_difference {m : Word32} (pos : 0 < m.toInt) :
    (m - pageSize).toInt = m.toInt - pageSize.toNat := by
  have size : bufferMax = 64 := rfl
  have signed := BitVec.toInt_eq_toNat_cond pageSize
  have upper := BitVec.toInt_lt (x := m)
  rw [if_pos (by omega)] at signed
  rw [BitVec.toInt_sub, signed, Int.bmod_eq_of_le] <;> omega

theorem turn_size {m bufferSize : Word32} (pos : 0 < m.toInt)
    (buffer : (if (m - pageSize).toInt < 0 then m else pageSize) = bufferSize) :
    bufferSize.toNat ≤ pageSize.toNat ∧ (bufferSize.toNat : Int) ≤ m.toInt ∧
      ((m - pageSize).toInt ≤ 0 → (bufferSize.toNat : Int) = m.toInt) ∧
      (0 < (m - pageSize).toInt → bufferSize.toNat = pageSize.toNat) := by
  have diff := count_difference page pos
  have natural : m.toInt = m.toNat := by
    have signed := BitVec.toInt_eq_toNat_cond m
    split at signed
    · exact signed
    · omega
  subst buffer
  split
  · exact ⟨by omega, by omega, fun _ => by omega, fun _ => by omega⟩
  · exact ⟨by omega, by omega, fun _ => by omega, fun _ => rfl⟩

theorem addTurn_at (block stack : Nat → SessionRequestT) {w : Adding} (here : w.At n pageSize)
    (running : w.running = true) :
    ∃ u, addTurn pageSize block stack w = some u ∧ u.At n pageSize ∧
      u.maxSessions.toInt.toNat < w.maxSessions.toInt.toNat := by
  have size : bufferMax = 64 := rfl
  have pos : 0 < w.maxSessions.toInt := of_decide_eq_true running
  have left := here.left pos
  have diff := count_difference page pos
  have top := BitVec.toInt_lt (x := n)
  generalize buffer : (if (w.maxSessions - pageSize).toInt < 0 then w.maxSessions else pageSize) =
    bufferSize
  obtain ⟨few, within, last, full⟩ := turn_size page pos buffer
  have next : (w.sessionId + bufferSize).toNat = w.sessionId.toNat + bufferSize.toNat := by
    rw [BitVec.toNat_add, Nat.mod_eq_of_lt]
    omega
  have first : w.sessionId.signExtend 64 = BitVec.ofNat 64 w.sessionId.toNat + 0#64 := by
    rw [signExtend_natural (by omega), BitVec.add_zero]
  have named := createSessionRequest_ids (block w.log.length) bufferSize.toNat
    (w.sessionId.signExtend 64)
  have long : (createSessionRequest (block w.log.length) bufferSize.toNat
      (w.sessionId.signExtend 64)).length = bufferSize.toNat := by
    simp [createSessionRequest]
  generalize built : createSessionRequest (block w.log.length) bufferSize.toNat
    (w.sessionId.signExtend 64) = request at named long
  have limit : hashtableSize = 1000 := rfl
  have short : request.length ≤ bufferMax := by omega
  obtain ⟨resp, t, run, inv, table⟩ := add_batch short
    (by rw [named]; exact idsFrom_nodup _ (by omega)) w.addResp (stack w.log.length) here.inv
  refine ⟨⟨w.maxSessions - pageSize, w.sessionId + bufferSize, resp, t,
    w.log ++ [(request, resp)]⟩, ?_, ⟨inv, ?_, ?_, ?_, ?_, ?_⟩, ?_⟩
  · simp only [addTurn, buffer, built, run, Option.bind_eq_bind, Option.bind_some, ne_eq,
      not_true_eq_false, if_false]
  · have before := here.offered
    rw [Adding.offered] at before ⊢
    rw [List.flatMap_append, before, next, idsFrom_append, ← first, ← named]
    simp
  · rw [table, here.table, Adding.accepted, Adding.accepted, List.flatMap_append]
    simp
  · intro l hl
    rcases List.mem_append.mp hl with earlier | now
    · exact here.few l earlier
    · rw [List.mem_singleton.mp now, long]
      exact few
  · intro more
    have same := full more
    rw [diff, left, next, same]
    omega
  · intro spent
    have rest := last spent
    rw [next]
    omega
  · rw [diff]
    omega

theorem drain_page {s : Server} (inv : s.Inv) :
    ∃ q, opofGetClosedSessions pageSize s = some q ∧ q.server.Inv ∧
      q.responses.map SessionResponseT.sessionId = s.ids.take pageSize.toNat ∧
      q.server.ids = s.ids.drop pageSize.toNat ∧
      (0 < q.sessionCount → q.status = SessionStatus.ok.code) := by
  obtain ⟨status, messages, t, run, refused⟩ := getClosedSessions_defined inv page
  obtain ⟨after, named, left, _⟩ := getClosedSessions_spec inv run
  rw [closedCount_of_pos inv page.1, ← s.length_ids] at named left
  refine ⟨⟨status.errorCode.code, 0#64, messages.map convertSessionResponse2c, t⟩, ?_, after,
    ?_, ?_, ?_⟩
  · have request : ({ pageSize := pageSize, page := 0#32, startSession := 0#64 } :
        SessionRequestArgs) = pageRequest pageSize := rfl
    simp only [opofGetClosedSessions, SessionTableClient.getClosedSessions, request, run,
      Option.bind_eq_bind, Option.bind_some]
  · rw [List.take_eq_take_min, ← named, List.map_map]
    rfl
  · rw [List.drop_eq_drop_min]
    exact left
  · intro some
    rw [refused (by rintro rfl; cases some)]
    rfl

structure Draining.At (pageSize : Word32) (all : List Word64) (d : Draining) : Prop where
  inv : d.server.Inv
  split : d.reported ++ d.server.ids = all
  few : ∀ rs ∈ d.pages, rs.length ≤ pageSize.toNat
  stopped : d.closedSessions = 0 → d.server.ids = []

theorem drainTurn_at {all : List Word64} {d : Draining} (here : d.At pageSize all)
    (running : d.running = true) :
    ∃ e, drainTurn pageSize d = some e ∧ e.At pageSize all ∧
      e.server.ids.length + min 1 e.closedSessions <
        d.server.ids.length + min 1 d.closedSessions := by
  have more : 0 < d.closedSessions := of_decide_eq_true running
  obtain ⟨q, run, inv, named, left, ok⟩ := drain_page page here.inv
  have count := congrArg List.length named
  have rest := congrArg List.length left
  rw [List.length_map, List.length_take] at count
  rw [List.length_drop] at rest
  have answered : ¬ (0 < q.sessionCount ∧ q.status = SessionStatus.notFound.code ∧
      q.status ≠ SessionStatus.ok.code) := fun bad => bad.2.2 (ok bad.1)
  refine ⟨⟨q.sessionCount, q.server, d.pages ++ [q.responses]⟩, ?_, ⟨inv, ?_, ?_, ?_⟩, ?_⟩
  · simp only [drainTurn, run, Option.bind_eq_bind, Option.bind_some, if_neg answered]
  · have before := here.split
    rw [Draining.reported] at before ⊢
    rw [List.flatten_append, List.map_append, List.flatten_singleton, named, left,
      List.append_assoc, List.take_append_drop, before]
  · intro rs member
    rcases List.mem_append.mp member with earlier | now
    · exact here.few rs earlier
    · rw [List.mem_singleton.mp now, count]
      exact Nat.min_le_left _ _
  · intro none
    have nothing : q.responses.length = 0 := none
    apply List.eq_nil_of_length_eq_zero
    rw [rest]
    omega
  · change q.server.ids.length + min 1 q.responses.length < _
    omega

end

/-- For every number of sessions of an int and every page size from 1 to 64: both loops
end, the first one having offered each id once, in batches of at most a page, and the
second one having been given exactly the accepted ids, in the order of the table, at most
a page a call, with nothing left in the table. -/
theorem add_then_drain (block stack : Nat → SessionRequestT) (resp : AddSessionResponseT)
    (s : Server) (empty : s.sessions = []) (n pageSize : Word32) (natural : 0 ≤ n.toInt)
    (page : 1 ≤ pageSize.toNat ∧ pageSize.toNat ≤ bufferMax) :
    ∃ fuel w, Loop.run Adding.running (addTurn pageSize block stack) fuel (.begin n resp s) =
        some w ∧
      w.offered = idsFrom 0#64 n.toNat ∧ (∀ l ∈ w.log, l.1.length ≤ pageSize.toNat) ∧
      w.server.ids = w.accepted ∧
    ∃ fuel d, Loop.run Draining.running (drainTurn pageSize) fuel (.begin w.server) = some d ∧
      d.reported = w.accepted ∧ (∀ rs ∈ d.pages, rs.length ≤ pageSize.toNat) ∧
      d.server.sessions = [] := by
  obtain ⟨w, added, here, stopped⟩ := @Loop.run_terminates _ Adding.running
    (addTurn pageSize block stack) (Adding.At n pageSize) (fun w => w.maxSessions.toInt.toNat)
    (fun w here running => addTurn_at page block stack here running) _ (.begin n resp s)
    (begin_at natural pageSize resp empty) (Nat.le_refl _)
  have spent : w.maxSessions.toInt ≤ 0 := Int.not_lt.mp (of_decide_eq_false stopped)
  have whole : w.sessionId.toNat = n.toNat := by
    have done := here.done spent
    have signed := BitVec.toInt_eq_toNat_cond n
    have width := n.isLt
    split at signed <;> omega
  obtain ⟨d, drained, there, ended⟩ := @Loop.run_terminates _ Draining.running
    (drainTurn pageSize) (Draining.At pageSize w.accepted)
    (fun d => d.server.ids.length + min 1 d.closedSessions)
    (fun d there running => drainTurn_at page there running) _ (.begin w.server)
    ⟨here.inv, here.table, by simp [Draining.begin], fun none => by cases none⟩ (Nat.le_refl _)
  have none : d.server.ids = [] :=
    there.stopped (Nat.eq_zero_of_not_pos (of_decide_eq_false ended))
  have all := there.split
  rw [none, List.append_nil] at all
  exact ⟨_, w, added, by rw [here.offered, whole], here.few, here.table, _, d, drained, all,
    there.few, List.map_eq_nil_iff.mp none⟩

theorem add_then_drain_three :
    ∃ fuel w, Loop.run Adding.running (addTurn 2#32 (fun _ => zeroRequest) (fun _ => zeroRequest))
        fuel (.begin 3#32 zeroAddResponse (Server.init (fun _ => 0))) = some w ∧
      w.offered = [0#64, 1#64, 2#64] := by
  obtain ⟨fuel, w, added, offered, _⟩ := add_then_drain (fun _ => zeroRequest)
    (fun _ => zeroRequest) zeroAddResponse (Server.init (fun _ => 0)) rfl 3#32 2#32 (by decide)
    (by decide)
  exact ⟨fuel, w, added, offered⟩

end SessionOffload
