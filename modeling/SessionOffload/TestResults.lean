import Mathlib.Algebra.Group.Nat.Defs
import SessionOffload.TestSuite

/-! What the tests come to on a server whose sessions have ids that fit an int: each phase of
a test ends, and the tables in between are known. -/
namespace SessionOffload
open Loop SessionTableClient Intake

/-- The calls of opof_delete_all_sessions that list the sessions are not lost, and one of the
calls to delete a session gets through. -/
structure Setting.Reliable (m : Setting) : Prop where
  delivered : ∀ n, m.transport.getAll n = none
  reached : ∀ count, AllGetThrough m.transport.del m.retryAttempts count 0

structure Server.Ready (s : Server) : Prop where
  keyed : s.Keyed
  fits : ∀ id ∈ s.ids, -2147483648 ≤ id.toInt ∧ id.toInt < 2147483648

theorem ready_of_empty {s : Server} (empty : s.sessions = []) : s.Ready :=
  ⟨⟨by simp [Server.ids, empty], by simp [empty]⟩, by simp [Server.ids, empty]⟩

theorem inv_of_empty {s : Server} (empty : s.sessions = []) : s.Inv where
  distinct := by simp [Server.ids, empty]
  blocks := by simp [empty]
  allocated := by simp [empty]
  closed := by simp [empty]
  bounded := by simp [empty]

theorem cleanUp_ends {m : Setting} (reliable : m.Reliable) (pageSize : Word32) {s : Server}
    (ready : s.Ready) :
    ∃ t, Yields (fun fuel => cleanUp m pageSize fuel s) t ∧ t.sessions = [] := by
  obtain ⟨fuel, d, ends, _⟩ :=
    run_swept reliable.delivered m.retryAttempts pageSize ready.keyed ready.fits
  have empty := (run_empties_iff reliable.delivered ready.keyed ends).mpr
    ⟨ready.fits, reliable.reached _⟩
  have status := (run_keeps (x := 0#64) reliable.delivered ready.keyed
    (fun other => absurd rfl other) ends).1
  refine ⟨d.server, ?_, empty⟩
  have succeeded : ¬ d.status = failure := by
    rw [status]
    decide
  refine Yields.bind (Yields.run ends) (Yields.of_some ?_)
  exact if_neg succeeded

def Adding.errors (w : Adding) : List AddSessionErrors := w.log.flatMap fun l => l.2.listed

structure Adding.Pass (s : Server) (n pageSize : Word32) (w : Adding) : Prop where
  inv : w.server.Inv
  grown : ∃ more, w.server.sessions = s.sessions ++ more
  table : w.server.ids = storeDesk.offerAll (idsFrom 0#64 w.sessionId.toNat) s.ids
  errors : w.errors = refusedEntries (idsFrom 0#64 w.sessionId.toNat) s.ids
  few : ∀ l ∈ w.log, l.1.length ≤ pageSize.toNat
  left : 0 < w.maxSessions.toInt → w.maxSessions.toInt = n.toInt - w.sessionId.toNat
  done : w.maxSessions.toInt ≤ 0 → (w.sessionId.toNat : Int) = n.toInt

theorem begin_pass {n : Word32} (natural : 0 ≤ n.toInt) (pageSize : Word32)
    (resp : AddSessionResponseT) {s : Server} (inv : s.Inv) :
    (Adding.begin n resp s).Pass s n pageSize where
  inv := inv
  grown := ⟨[], (List.append_nil _).symm⟩
  table := rfl
  errors := rfl
  few := by simp [Adding.begin]
  left := fun _ => by simp [Adding.begin]
  done := fun low => by
    have zero : n.toInt ≤ 0 := low
    change ((0 : Nat) : Int) = n.toInt
    omega

def Numbers (create : SessionRequestT → Nat → Word64 → List SessionRequestT) : Prop :=
  ∀ block size first, (create block size first).map SessionRequestT.sessId = idsFrom first size

theorem createSessionRequest6_ids (block : SessionRequestT) (size : Nat) (first : Word64) :
    (createSessionRequest6 block size first).map SessionRequestT.sessId = idsFrom first size := by
  simp [createSessionRequest6, idsFrom, testRequest6]

section
variable {n pageSize : Word32} (page : 1 ≤ pageSize.toNat ∧ pageSize.toNat ≤ bufferMax)
variable {create : SessionRequestT → Nat → Word64 → List SessionRequestT}
  (numbers : Numbers create)
variable {gaveUp : Int → Bool} (patient : gaveUp SessionStatus.ok.code = false)
include page numbers patient

theorem batchTurn_pass {s : Server} (block stack : Nat → SessionRequestT) {w : Adding}
    (here : w.Pass s n pageSize) (running : w.running = true) :
    ∃ u, batchTurn create gaveUp pageSize block stack w = some u ∧ u.Pass s n pageSize ∧
      u.maxSessions.toInt.toNat < w.maxSessions.toInt.toNat := by
  have size : bufferMax = 64 := rfl
  have pos : 0 < w.maxSessions.toInt := of_decide_eq_true running
  have left := here.left pos
  have diff := count_difference page pos
  have top := BitVec.toInt_lt (x := n)
  generalize buffer : (if (w.maxSessions - pageSize).toInt < 0 then w.maxSessions else pageSize) =
    bufferSize
  obtain ⟨few, within, last, full⟩ := turn_size page pos buffer
  have next : (w.sessionId + bufferSize).toNat = w.sessionId.toNat + bufferSize.toNat := by
    rw [BitVec.toNat_add, Nat.mod_eq_of_lt]
    omega
  have first : w.sessionId.signExtend 64 = BitVec.ofNat 64 w.sessionId.toNat + 0#64 := by
    rw [signExtend_natural (by omega), BitVec.add_zero]
  have named := numbers (block w.log.length) bufferSize.toNat (w.sessionId.signExtend 64)
  generalize built : create (block w.log.length) bufferSize.toNat
    (w.sessionId.signExtend 64) = request at named
  have long : request.length = bufferSize.toNat := by
    have lengths := congrArg List.length named
    simpa [idsFrom] using lengths
  have short : request.length ≤ bufferMax := by omega
  obtain ⟨resp, t, run, keeps, offered, ⟨more, grown⟩, listed⟩ :=
    add_call short w.addResp (stack w.log.length) w.server
  rw [named, first, here.table] at offered listed
  refine ⟨⟨w.maxSessions - pageSize, w.sessionId + bufferSize, resp, t,
    w.log ++ [(request, resp)]⟩, ?_, ⟨keeps here.inv, ?_, ?_, ?_, ?_, ?_, ?_⟩, ?_⟩
  · simp only [batchTurn, buffer, built, run, Option.bind_eq_bind, Option.bind_some, patient,
      Bool.false_eq_true, if_false]
  · obtain ⟨before, grew⟩ := here.grown
    exact ⟨before ++ more, by rw [grown, grew, List.append_assoc]⟩
  · change t.ids = _
    rw [offered, next, idsFrom_append, offerAll_append]
  · have before := here.errors
    rw [Adding.errors] at before ⊢
    rw [List.flatMap_append, before, next, idsFrom_append, refusedEntries_append, ← listed]
    simp
  · intro l hl
    rcases List.mem_append.mp hl with earlier | now
    · exact here.few l earlier
    · rw [List.mem_singleton.mp now, long]
      exact few
  · intro more
    have same := full more
    change (w.maxSessions - pageSize).toInt = _
    rw [diff, left, next, same]
    omega
  · intro spent
    have rest := last spent
    change ((w.sessionId + bufferSize).toNat : Int) = _
    rw [next]
    omega
  · change (w.maxSessions - pageSize).toInt.toNat < _
    rw [diff]
    omega

/-- An add loop ends with what one call for all its ids would come to, whatever the page size
cuts them into. -/
theorem adding_ends (block stack : Nat → SessionRequestT) (resp : AddSessionResponseT)
    {s : Server} (inv : s.Inv) (natural : 0 ≤ n.toInt) :
    ∃ w, Yields (fun fuel => run Adding.running (batchTurn create gaveUp pageSize block stack) fuel
        (.begin n resp s)) w ∧
      w.server.Inv ∧ (∃ more, w.server.sessions = s.sessions ++ more) ∧
      w.server.ids = storeDesk.offerAll (idsFrom 0#64 n.toNat) s.ids ∧
      w.errors = refusedEntries (idsFrom 0#64 n.toNat) s.ids ∧
      ∀ l ∈ w.log, l.1.length ≤ pageSize.toNat := by
  obtain ⟨w, added, here, stopped⟩ := @run_terminates _ Adding.running
    (batchTurn create gaveUp pageSize block stack) (Adding.Pass s n pageSize)
    (fun w => w.maxSessions.toInt.toNat)
    (fun w here running => batchTurn_pass page numbers patient block stack here running) _
    (.begin n resp s) (begin_pass natural pageSize resp inv) (Nat.le_refl _)
  have spent : w.maxSessions.toInt ≤ 0 := Int.not_lt.mp (of_decide_eq_false stopped)
  have whole : w.sessionId.toNat = n.toNat := by
    have done := here.done spent
    have signed := BitVec.toInt_eq_toNat_cond n
    have width := n.isLt
    split at signed <;> omega
  exact ⟨w, .run added, here.inv, here.grown, whole ▸ here.table, whole ▸ here.errors, here.few⟩

end

theorem idsFrom_zero (n : Nat) : idsFrom 0#64 n = (List.range n).map (BitVec.ofNat 64) := by
  simp [idsFrom]

theorem idsFrom_distinct {n : Nat} (small : n ≤ 2 ^ 64) : (idsFrom 0#64 n).Nodup := by
  rw [idsFrom_zero]
  apply List.Nodup.map_on _ List.nodup_range
  intro i hi j hj same
  have bi := List.mem_range.mp hi
  have bj := List.mem_range.mp hj
  have values := congrArg BitVec.toNat same
  rwa [BitVec.toNat_ofNat, BitVec.toNat_ofNat, Nat.mod_eq_of_lt (by omega),
    Nat.mod_eq_of_lt (by omega)] at values

theorem natural_lt {n : Word32} (natural : 0 ≤ n.toInt) : n.toNat < 2147483648 := by
  have signed := BitVec.toInt_eq_toNat_cond n
  have width := n.isLt
  split at signed <;> omega

theorem natural_count {n : Word32} (natural : 0 ≤ n.toInt) : n.toInt.toNat = n.toNat := by
  have signed := BitVec.toInt_eq_toNat_cond n
  have width := n.isLt
  split at signed <;> omega

def admitted (n : Nat) : List Word64 := (idsFrom 0#64 n).take (hashtableSize + 1)

theorem admitted_range (n : Nat) :
    admitted n = (List.range (min (hashtableSize + 1) n)).map (BitVec.ofNat 64) := by
  rw [admitted, idsFrom_zero, ← List.map_take, List.take_range]

theorem admitted_small {n : Nat} {id : Word64} (member : id ∈ admitted n) :
    ∃ i < n, id = BitVec.ofNat 64 i := by
  rw [admitted_range] at member
  obtain ⟨i, inside, rfl⟩ := List.mem_map.mp member
  have below := List.mem_range.mp inside
  exact ⟨i, by omega, rfl⟩

theorem mem_admitted {n i : Nat} (small : i < 2 ^ 64) :
    BitVec.ofNat 64 i ∈ admitted n ↔ i < n ∧ i < hashtableSize + 1 := by
  have limit : hashtableSize = 1000 := rfl
  rw [admitted_range]
  constructor
  · intro member
    obtain ⟨j, inside, same⟩ := List.mem_map.mp member
    have below := List.mem_range.mp inside
    have values := congrArg BitVec.toNat same
    rw [BitVec.toNat_ofNat, BitVec.toNat_ofNat, Nat.mod_eq_of_lt (by omega),
      Nat.mod_eq_of_lt small] at values
    omega
  · intro inside
    exact List.mem_map_of_mem (List.mem_range.mpr (by omega))

theorem small_fits {i : Nat} (small : i < 2147483648) :
    -2147483648 ≤ (BitVec.ofNat 64 i).toInt ∧ (BitVec.ofNat 64 i).toInt < 2147483648 := by
  have value : (BitVec.ofNat 64 i).toNat = i := Nat.mod_eq_of_lt (by omega)
  have signed := BitVec.toInt_eq_toNat_cond (BitVec.ofNat 64 i)
  rw [value] at signed
  split at signed <;> omega

theorem ready_of_admitted {s : Server} (inv : s.Inv) {n : Nat} (small : n ≤ 2147483648)
    (table : s.ids = admitted n) : s.Ready := by
  refine ⟨inv.keyed, fun id member => ?_⟩
  rw [table] at member
  obtain ⟨i, inside, rfl⟩ := admitted_small member
  exact small_fits (by omega)

theorem filling_ends {n pageSize : Word32}
    (page : 1 ≤ pageSize.toNat ∧ pageSize.toNat ≤ bufferMax)
    {create : SessionRequestT → Nat → Word64 → List SessionRequestT} (numbers : Numbers create)
    {gaveUp : Int → Bool} (patient : gaveUp SessionStatus.ok.code = false)
    (block stack : Nat → SessionRequestT) (resp : AddSessionResponseT) {s : Server}
    (empty : s.sessions = []) (natural : 0 ≤ n.toInt) :
    ∃ w, Yields (fun fuel => run Adding.running (batchTurn create gaveUp pageSize block stack) fuel
        (.begin n resp s)) w ∧
      w.server.Inv ∧ w.server.ids = admitted n.toNat ∧
      w.errors = ((idsFrom 0#64 n.toNat).drop (hashtableSize + 1)).map
        (⟨·, SessionStatus.resourceExhausted.code⟩) := by
  obtain ⟨w, added, inv, _, table, errors, _⟩ :=
    adding_ends page numbers patient block stack resp (inv_of_empty empty) natural
  have none : s.ids = [] := by rw [Server.ids, empty, List.map_nil]
  have small := natural_lt natural
  have fresh : ([] ++ idsFrom 0#64 n.toNat).Nodup := idsFrom_distinct (by omega)
  obtain ⟨offered, listed⟩ := fresh_offered fresh
  rw [none, offered] at table
  rw [none, listed] at errors
  exact ⟨w, added, inv, table, errors⟩

theorem closeTurn_agrees (pageSize : Word32) {d e : Draining}
    (turn : drainTurn pageSize d = some e) : closeTurn pageSize d = some e := by
  simp only [drainTurn, Option.bind_eq_bind, Option.bind_eq_some_iff] at turn
  obtain ⟨q, page, turn⟩ := turn
  split at turn
  · cases turn
  · simp only [closeTurn, page, Option.bind_eq_bind, Option.bind_some, turn]

theorem closing_ends {pageSize : Word32} (page : 1 ≤ pageSize.toNat ∧ pageSize.toNat ≤ bufferMax)
    {turn : Draining → Option Draining}
    (agrees : ∀ {d e}, drainTurn pageSize d = some e → turn d = some e) {s : Server}
    (inv : s.Inv) :
    ∃ d, Yields (fun fuel => run Draining.running turn fuel (.begin s)) d ∧ d.reported = s.ids ∧
      (∀ rs ∈ d.pages, rs.length ≤ pageSize.toNat) ∧ d.server.sessions = [] := by
  obtain ⟨d, drained, there, ended⟩ := @run_terminates _ Draining.running turn
    (Draining.At pageSize s.ids) (fun d => d.server.ids.length + min 1 d.closedSessions)
    (fun d there running => by
      obtain ⟨e, step, after, less⟩ := drainTurn_at page there running
      exact ⟨e, agrees step, after, less⟩) _ (.begin s)
    ⟨inv, rfl, by simp [Draining.begin], fun none => by cases none⟩ (Nat.le_refl _)
  have none : d.server.ids = [] :=
    there.stopped (Nat.eq_zero_of_not_pos (of_decide_eq_false ended))
  have all := there.split
  rw [none, List.append_nil] at all
  exact ⟨d, .run drained, all, there.few, List.map_eq_nil_iff.mp none⟩

theorem next_table {p p' : Pager} {s t : Server} {pageSize : Word32} (keyed : s.Keyed)
    (turn : p.next pageSize s = some (p', t)) : t.sessions = s.sessions := by
  by_cases valid : CursorValid (s.enter p.sessionStart)
  · obtain ⟨rs, key, u, page, same, _⟩ := page_spec keyed.blocks bufferMax p.sessionStart valid
    cases (next_run page pageSize).symm.trans turn
    exact same
  · have undefined := page_dangling bufferMax p.sessionStart valid
    simp [Pager.next, opofGetAllSessions_undefined undefined] at turn

theorem getAllLoop_more {pageSize : Word32} {fuel : Nat} {p : Pager} {s : Server}
    {r : Pager × Server} (result : getAllLoop pageSize fuel p s = some r) (keyed : s.Keyed) :
    r.2.sessions = s.sessions ∧ ∀ fuel', fuel ≤ fuel' → getAllLoop pageSize fuel' p s = some r := by
  cases finished : p.finished with
  | true =>
    rw [getAllLoop_finished finished] at result
    cases result
    exact ⟨rfl, fun fuel' _ => getAllLoop_finished finished pageSize fuel' s⟩
  | false =>
    induction fuel generalizing p s with
    | zero => simp [getAllLoop, finished] at result
    | succ fuel ih =>
      simp only [getAllLoop, finished, Bool.false_eq_true, if_false, Option.bind_eq_bind,
        Option.bind_eq_some_iff] at result
      obtain ⟨⟨p', t⟩, turn, result⟩ := result
      have same := next_table keyed turn
      have after : t.Keyed := keyed.sublist (same ▸ List.Sublist.refl _)
      have rest : r.2.sessions = t.sessions ∧
          ∀ fuel', fuel ≤ fuel' → getAllLoop pageSize fuel' p' t = some r := by
        cases stop : p'.finished with
        | true =>
          rw [getAllLoop_finished stop] at result
          cases result
          exact ⟨rfl, fun fuel' _ => getAllLoop_finished stop pageSize fuel' t⟩
        | false => exact ih result after stop
      refine ⟨rest.1.trans same, fun fuel' enough => ?_⟩
      obtain ⟨more, rfl⟩ := Nat.exists_eq_add_of_le' (Nat.lt_of_lt_of_le (Nat.succ_pos fuel) enough)
      rw [getAllLoop_next more finished turn]
      exact rest.2 more (by omega)

theorem listing_ends (pageSize : Word32) {s : Server} (keyed : s.Keyed)
    (plain : uintMax ∉ s.ids) :
    ∃ r, Yields (fun fuel => getAllLoop pageSize fuel .begin s) r ∧ r.1.ids = s.ids ∧
      r.2.sessions = s.sessions := by
  obtain ⟨fuel, p, t, ends, listed⟩ := (getAllLoop_begin s keyed.blocks pageSize).2
    fun i _ sentinel => plain (List.mem_of_getElem? sentinel)
  obtain ⟨same, more⟩ := getAllLoop_more ends keyed
  exact ⟨(p, t), ⟨fuel, more⟩, listed, same⟩

theorem admitted_drop {n i : Nat} (inside : i < n) (room : i < hashtableSize + 1) :
    (admitted n).drop i = BitVec.ofNat 64 i :: (admitted n).drop (i + 1) := by
  have short : i < (admitted n).length := by
    simp only [admitted, idsFrom, List.length_take, List.length_map, List.length_range]
    omega
  rw [List.drop_eq_getElem_cons short]
  simp [admitted, idsFrom]

theorem admitted_end {n i : Nat} (crowded : hashtableSize + 1 ≤ i) : (admitted n).drop i = [] := by
  apply List.drop_eq_nil_of_le
  rw [admitted, List.length_take]
  omega

theorem small_narrow {i : Nat} (small : i < 2147483648) :
    narrow (BitVec.ofNat 64 i) = BitVec.ofNat 64 i :=
  (narrow_fixed_iff _).mpr (small_fits small)

/-- The answer of a call about session `i` where the sessions below the capacity are known. -/
def AnswerFor (i : Nat) (a : Int × SessionResponseT) : Prop :=
  if i < hashtableSize + 1 then
    a.1 = SessionStatus.ok.code ∧ a.2.sessionId = BitVec.ofNat 64 i
  else a.1 = SessionStatus.notFound.code

theorem answered_append {i : Nat} {answers : List (Int × SessionResponseT)}
    {a : Int × SessionResponseT} (before : List.Forall₂ AnswerFor (List.range i) answers)
    (told : AnswerFor i a) : List.Forall₂ AnswerFor (List.range (i + 1)) (answers ++ [a]) := by
  rw [List.range_succ]
  exact List.rel_append before (.cons told .nil)

theorem answered_found {i : Nat} (room : i < hashtableSize + 1) {status : Int}
    {resp : SessionResponseT} (ok : status = SessionStatus.ok.code)
    (named : resp.sessionId = BitVec.ofNat 64 i) : AnswerFor i (status, resp) := by
  rw [AnswerFor, if_pos room]
  exact ⟨ok, named⟩

theorem answered_missing {i : Nat} (crowded : ¬ i < hashtableSize + 1) (resp : SessionResponseT) :
    AnswerFor i (SessionStatus.notFound.code, resp) := by
  rw [AnswerFor, if_neg crowded]

theorem notFound_patient : isFailure SessionStatus.notFound.code = false := by decide

theorem ok_patient : isFailure SessionStatus.ok.code = false := by decide

theorem notOk_patient : notOk SessionStatus.ok.code = false := by decide

theorem getTurn_answered (m : Setting) {n i : Nat} (small : n ≤ 2147483648) (inside : i < n)
    {r : Asking} (table : r.server.ids = admitted n)
    (before : List.Forall₂ AnswerFor (List.range i) r.answers) :
    ∃ q, getTurn m r i = some q ∧ q.server = r.server ∧
      List.Forall₂ AnswerFor (List.range (i + 1)) q.answers := by
  have plain := small_narrow (Nat.lt_of_lt_of_le inside small)
  by_cases room : i < hashtableSize + 1
  · have present : narrow (BitVec.ofNat 64 i) ∈ r.server.ids := by
      rw [plain, table]
      exact (mem_admitted (by omega)).mpr ⟨inside, room⟩
    obtain ⟨resp, run, named⟩ := opofGetSession_present present (m.answer i)
    refine ⟨⟨r.answers ++ [(SessionStatus.ok.code, resp)], r.server⟩, ?_, rfl, ?_⟩
    · simp [getTurn, run, ok_patient]
    · exact answered_append before (answered_found room rfl (named.trans plain))
  · have absent : narrow (BitVec.ofNat 64 i) ∉ r.server.ids := by
      rw [plain, table, mem_admitted (by omega)]
      exact fun member => room member.2
    obtain ⟨resp, run⟩ := opofGetSession_absent absent (m.answer i)
    refine ⟨⟨r.answers ++ [(SessionStatus.notFound.code, resp)], r.server⟩, ?_, rfl, ?_⟩
    · simp [getTurn, run, notFound_patient]
    · exact answered_append before (answered_missing room resp)

theorem delTurn_answered (m : Setting) {n i : Nat} (small : n ≤ 2147483648) (inside : i < n)
    {r : Asking} (keyed : r.server.Keyed) (table : r.server.ids = (admitted n).drop i)
    (before : List.Forall₂ AnswerFor (List.range i) r.answers) :
    ∃ q, delTurn m r i = some q ∧ q.server.Keyed ∧ q.server.ids = (admitted n).drop (i + 1) ∧
      List.Forall₂ AnswerFor (List.range (i + 1)) q.answers := by
  have plain := small_narrow (Nat.lt_of_lt_of_le inside small)
  by_cases room : i < hashtableSize + 1
  · rw [admitted_drop inside room] at table
    have present : narrow (BitVec.ofNat 64 i) ∈ r.server.ids := by
      rw [plain, table]
      exact List.mem_cons_self
    obtain ⟨resp, q, run, named, _, _, left⟩ := del_present keyed present (m.answer i)
    have ids := ids_filter (p := fun k => k != narrow (BitVec.ofNat 64 i)) left
    have distinct := keyed.distinct
    rw [table] at distinct
    have fresh := (List.nodup_cons.mp distinct).1
    have rest : (r.server.hashDel q).ids = (admitted n).drop (i + 1) := by
      rw [ids, plain, table, List.filter_cons_of_neg (by simp)]
      apply List.filter_eq_self.mpr
      intro k member
      have other : k ≠ BitVec.ofNat 64 i := fun same => fresh (same ▸ member)
      simpa using other
    refine ⟨⟨r.answers ++ [(SessionStatus.ok.code, resp)], r.server.hashDel q⟩, ?_,
      keyed.sublist (left ▸ List.filter_sublist), rest, ?_⟩
    · simp only [delTurn, opofDelSession, deleteSessionClient, SessionTableImpl.deleteSession, run]
      rfl
    · exact answered_append before (answered_found room rfl (named.trans plain))
  · have none : r.server.ids = [] := by rw [table, admitted_end (by omega)]
    have absent : narrow (BitVec.ofNat 64 i) ∉ r.server.ids := by simp [none]
    obtain ⟨resp, run⟩ := opofDelSession_absent absent (m.answer i)
    refine ⟨⟨r.answers ++ [(SessionStatus.notFound.code, resp)], r.server⟩, ?_, keyed, ?_, ?_⟩
    · simp [delTurn, run, notFound_patient]
    · rw [none, admitted_end (by omega)]
    · exact answered_append before (answered_missing room resp)

section
variable {m : Setting} (reliable : m.Reliable) {s : Server} (ready : s.Ready)
variable {n pageSize : Word32} (natural : 0 ≤ n.toInt)
  (page : 1 ≤ pageSize.toNat ∧ pageSize.toNat ≤ bufferMax)
include reliable ready natural page

theorem prepared {create : SessionRequestT → Nat → Word64 → List SessionRequestT}
    (numbers : Numbers create) {gaveUp : Int → Bool}
    (patient : gaveUp SessionStatus.ok.code = false) :
    ∃ t w, Yields (fun fuel => cleanUp m pageSize fuel s) t ∧
      Yields (fun fuel => run Adding.running (batchTurn create gaveUp pageSize m.block m.stack) fuel
        (.begin n m.addResp t)) w ∧
      w.server.Inv ∧ w.server.ids = admitted n.toNat ∧
      w.errors = ((idsFrom 0#64 n.toNat).drop (hashtableSize + 1)).map
        (⟨·, SessionStatus.resourceExhausted.code⟩) := by
  obtain ⟨t, cleaned, empty⟩ := cleanUp_ends reliable pageSize ready
  obtain ⟨w, filled⟩ :=
    filling_ends page numbers patient m.block m.stack m.addResp empty natural
  exact ⟨t, w, cleaned, filled⟩

theorem addAndClose_ends {create : SessionRequestT → Nat → Word64 → List SessionRequestT}
    (numbers : Numbers create) {gaveUp : Int → Bool}
    (patient : gaveUp SessionStatus.ok.code = false) :
    ∃ r, Yields (addAndClose create gaveUp m n pageSize s) r ∧
      r.2.reported = admitted n.toNat ∧ r.2.server.sessions = [] := by
  obtain ⟨t, w, cleaned, added, inv, table, _⟩ :=
    prepared reliable ready natural page numbers patient
  obtain ⟨d, closed, reported, _, empty⟩ :=
    closing_ends page (closeTurn_agrees pageSize) inv
  refine ⟨(w, d), ?_, reported.trans table, empty⟩
  exact cleaned.bind (added.bind (closed.bind (.of_some rfl)))

theorem opofTest1_ends : ∃ r, Yields (opofTest1 m n pageSize s) r ∧
    r.2.reported = admitted n.toNat ∧ r.2.server.sessions = [] := by
  obtain ⟨t, w, cleaned, added, inv, table, _⟩ :=
    prepared reliable ready natural page createSessionRequest_ids notOk_patient
  rw [← addTurn_eq] at added
  obtain ⟨d, closed, reported, _, empty⟩ :=
    @closing_ends _ page (drainTurn pageSize) id _ inv
  refine ⟨(w, d), ?_, reported.trans table, empty⟩
  exact cleaned.bind (added.bind (closed.bind (.of_some rfl)))

theorem opofTest2_ends : ∃ r, Yields (opofTest2 m n pageSize s) r ∧
    r.2.1.ids = admitted n.toNat ∧ r.2.2.Ready ∧ r.2.2.ids = admitted n.toNat := by
  obtain ⟨t, w, cleaned, added, inv, table, _⟩ :=
    prepared reliable ready natural page createSessionRequest_ids notOk_patient
  rw [← addTurn_eq] at added
  have small := natural_lt natural
  have filled := ready_of_admitted inv (by omega) table
  have plain : uintMax ∉ w.server.ids := fun member =>
    absurd (filled.fits _ member).2 (by decide)
  obtain ⟨⟨p, u⟩, listed, ids, same⟩ := listing_ends pageSize inv.keyed plain
  have kept : u.ids = w.server.ids := by rw [Server.ids, same, Server.ids]
  refine ⟨(w, p, u), ?_, ids.trans table, ⟨?_, ?_⟩, kept.trans table⟩
  · exact cleaned.bind (added.bind (listed.bind (.of_some rfl)))
  · exact inv.keyed.sublist (same ▸ List.Sublist.refl _)
  · rw [kept]
    exact filled.fits

theorem opofTest3_ends : ∃ r, Yields (opofTest3 m n pageSize s) r ∧
    List.Forall₂ AnswerFor (List.range n.toNat) r.2.answers ∧ r.2.server.Ready ∧
    r.2.server.ids = admitted n.toNat := by
  obtain ⟨t, w, cleaned, added, inv, table, _⟩ :=
    prepared reliable ready natural page createSessionRequest_ids ok_patient
  have small := natural_lt natural
  obtain ⟨r, asked, server, told⟩ := foldlM_range (f := getTurn m)
    (fun i r => r.server = w.server ∧ List.Forall₂ AnswerFor (List.range i) r.answers) n.toNat
    (fun i r inside here => by
      obtain ⟨q, turn, same, told⟩ :=
        getTurn_answered m (by omega) inside (here.1 ▸ table) here.2
      exact ⟨q, turn, same.trans here.1, told⟩) (s := ⟨[], w.server⟩) ⟨rfl, .nil⟩
  refine ⟨(w, r), ?_, told, ?_, ?_⟩
  · refine cleaned.bind (added.bind (.of_some ?_))
    rw [natural_count natural, asked]
    rfl
  · rw [server]
    exact ready_of_admitted inv (by omega) table
  · rw [server]
    exact table

theorem opofTest4_ends : ∃ r, Yields (opofTest4 m n pageSize s) r ∧
    List.Forall₂ AnswerFor (List.range n.toNat) r.2.answers ∧ r.2.server.sessions = [] := by
  obtain ⟨t, w, cleaned, added, inv, table, _⟩ :=
    prepared reliable ready natural page createSessionRequest_ids ok_patient
  have small := natural_lt natural
  obtain ⟨r, asked, _, left, told⟩ := foldlM_range (f := delTurn m)
    (fun i r => r.server.Keyed ∧ r.server.ids = (admitted n.toNat).drop i ∧
      List.Forall₂ AnswerFor (List.range i) r.answers) n.toNat
    (fun i r inside here => delTurn_answered m (by omega) inside here.1 here.2.1 here.2.2)
    (s := ⟨[], w.server⟩) ⟨inv.keyed, table, .nil⟩
  have none : r.server.ids = [] := by
    rw [left]
    apply List.drop_eq_nil_of_le
    rw [admitted_range, List.length_map, List.length_range]
    exact Nat.min_le_right _ _
  refine ⟨(w, r), ?_, told, List.map_eq_nil_iff.mp none⟩
  refine cleaned.bind (added.bind (.of_some ?_))
  rw [natural_count natural, asked]
  rfl

theorem opofTest6_ends : ∃ r, Yields (opofTest6 m n pageSize s) r ∧
    r.1.errors = ((idsFrom 0#64 n.toNat).drop (hashtableSize + 1)).map
      (⟨·, SessionStatus.resourceExhausted.code⟩) ∧
    r.2.1.errors = (idsFrom 0#64 n.toNat).map (⟨·, (if hashtableSize < n.toNat then
      SessionStatus.resourceExhausted else .alreadyExists).code⟩) ∧
    r.2.1.server.sessions = r.1.server.sessions ∧
    r.2.2.reported = admitted n.toNat ∧ r.2.2.server.sessions = [] := by
  obtain ⟨t, w, cleaned, added, inv, table, errors⟩ :=
    prepared reliable ready natural page createSessionRequest_ids notOk_patient
  obtain ⟨v, again, keeps, ⟨more, grown⟩, offered, listed, _⟩ :=
    adding_ends page createSessionRequest_ids notOk_patient
      (fun k => m.block (w.log.length + k)) (fun k => m.stack (w.log.length + k)) w.addResp inv
      natural
  rw [← addTurn_eq] at added again
  have count : (admitted n.toNat).length = min (hashtableSize + 1) n.toNat := by
    simp [admitted_range]
  have crowded : hashtableSize < (admitted n.toNat).length ↔ hashtableSize < n.toNat := by
    rw [count]
    omega
  have settled : hashtableSize < (admitted n.toNat).length ∨
      ∀ id ∈ idsFrom 0#64 n.toNat, id ∈ admitted n.toNat := by
    by_cases full : hashtableSize < n.toNat
    · exact .inl (crowded.mpr full)
    · have whole : admitted n.toNat = idsFrom 0#64 n.toNat := by
        apply List.take_of_length_le
        simp only [idsFrom, List.length_map, List.length_range]
        omega
      exact .inr fun id member => whole ▸ member
  obtain ⟨same, refused⟩ := settled_offered settled
  rw [table] at offered listed
  rw [same] at offered
  rw [refused] at listed
  simp only [crowded] at listed
  have nothing : more = [] := by
    have lengths := congrArg List.length (offered.trans table.symm)
    rw [Server.ids, Server.ids, grown, List.length_map, List.length_map,
      List.length_append] at lengths
    exact List.eq_nil_of_length_eq_zero (by omega)
  rw [nothing, List.append_nil] at grown
  obtain ⟨d, closed, reported, _, empty⟩ :=
    closing_ends page (closeTurn_agrees pageSize) keeps
  refine ⟨(w, v, d), ?_, errors, listed, grown, reported.trans offered, empty⟩
  exact cleaned.bind (added.bind (again.bind (closed.bind (.of_some rfl))))

theorem opofTest7_ends (room : n.toInt ≠ 2147483647) :
    ∃ r, Yields (opofTest7 m n pageSize s) r ∧
      r.2.1 = SessionStatus.notFound.code ∧ r.2.2.1 = SessionStatus.notFound.code ∧
      r.2.2.2 = r.1.server ∧ r.2.2.2.Ready ∧ r.2.2.2.ids = admitted n.toNat := by
  obtain ⟨t, w, cleaned, added, inv, table, _⟩ :=
    prepared reliable ready natural page createSessionRequest_ids ok_patient
  have small := natural_lt natural
  have signed := natural_count natural
  have next : (n + 1#32).toNat = n.toNat + 1 := by
    rw [BitVec.toNat_add, BitVec.toNat_ofNat]
    omega
  have missing : (n + 1#32).signExtend 64 = BitVec.ofNat 64 (n.toNat + 1) := by
    rw [signExtend_natural (by omega), next]
  have absent : narrow ((n + 1#32).signExtend 64) ∉ w.server.ids := by
    rw [missing, small_narrow (by omega), table, mem_admitted (by omega)]
    omega
  obtain ⟨got, asked⟩ := opofGetSession_absent absent (m.answer 0)
  obtain ⟨gone, deleted⟩ := opofDelSession_absent absent (m.answer 1)
  refine ⟨(w, SessionStatus.notFound.code, SessionStatus.notFound.code, w.server), ?_, rfl, rfl,
    rfl, ready_of_admitted inv (by omega) table, table⟩
  refine cleaned.bind (added.bind (.of_some ?_))
  rw [if_neg room]
  simp [asked, deleted, notFound_patient]

end

end SessionOffload
