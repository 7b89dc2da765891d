import SessionOffload.SessionClient
import SessionOffload.TestUtil

/-! A batch on its way from the client's array to the store, through one reused message
object on the client and one reused struct on the server, and what comes back. -/
namespace SessionOffload
open SessionTableImpl SessionTableClient

/-- The struct the store is given agrees with the client's, in the addresses as far as
the family in use goes. -/
structure SameRequest (sent received : SessionRequestT) : Prop where
  sessId : received.sessId = sent.sessId
  interfaces : received.inlif = sent.inlif ∧ received.outlif = sent.outlif
  ports : received.srcPort = sent.srcPort ∧ received.dstPort = sent.dstPort
  kind : received.proto = sent.proto ∧ received.ipver = sent.ipver ∧
    received.actType = sent.actType ∧ received.cacheTimeout = sent.cacheTimeout
  v4 : sent.ipver ≠ ipv6 → received.srcIP = sent.srcIP ∧ received.dstIP = sent.dstIP ∧
    received.nextHop = sent.nextHop
  v6 : sent.ipver = ipv6 → received.srcIPV6 = sent.srcIPV6 ∧ received.dstIPV6 = sent.dstIPV6 ∧
    received.nextHopV6 = sent.nextHopV6

theorem memcpy_toList (v : In6Addr) : memcpyS6Addr v.toList = some v := by
  have long : 16 ≤ v.toList.length := by simp
  rw [memcpyS6Addr, dif_pos long]
  congr 1
  ext i hi
  simp

/-- Decoding what was encoded, whatever the message and the struct held before. -/
theorem request_roundtrip (q : SessionRequestT) (request : SessionRequest)
    (requestC : SessionRequestT) :
    ∃ p, convertSessionRequest2c (convertSessionRequest2cpp q request) requestC = some p ∧
      SameRequest q p := by
  have port (w : Word16) : (w.setWidth 32).setWidth 16 = w := by simp
  by_cases six : q.ipver = ipv6
  · simp only [convertSessionRequest2cpp, convertSessionRequest2c, six, if_true, memcpy_toList,
      Option.bind_eq_bind, Option.bind_some]
    refine ⟨_, rfl, rfl, ⟨rfl, rfl⟩, ⟨port _, port _⟩, ⟨rfl, six.symm, rfl, rfl⟩, ?_, ?_⟩
    · exact fun four => (four six).elim
    · exact fun _ => ⟨rfl, rfl, rfl⟩
  · simp only [convertSessionRequest2cpp, convertSessionRequest2c, six, if_false,
      Option.bind_eq_bind, Option.bind_some]
    refine ⟨_, rfl, rfl, ⟨rfl, rfl⟩, ⟨port _, port _⟩, ⟨rfl, rfl, rfl, rfl⟩, ?_, ?_⟩
    · exact fun _ => ⟨rfl, rfl, rfl⟩
    · exact fun same => (six same).elim

theorem encode_sessId (q : SessionRequestT) (request : SessionRequest) :
    (convertSessionRequest2cpp q request).sessionId = q.sessId := by
  unfold convertSessionRequest2cpp
  split <;> rfl

def addStatuses (cancelled : Nat → Bool) :
    Nat → List SessionRequest → SessionRequestT → Server → List SessionStatus
  | _, [], _, _ => []
  | i, request :: rest, requestC, s =>
    match convertSessionRequest2c request requestC with
    | none => []
    | some requestC =>
      if cancelled i then []
      else
        let (status, s) := opofAddSessionServer requestC s
        status :: addStatuses cancelled (i + 1) rest requestC s

def processed (cancelled : Nat → Bool) : Nat → Nat → Nat
  | _, 0 => 0
  | i, n + 1 => if cancelled i then 0 else processed cancelled (i + 1) n + 1

theorem processed_all (i n : Nat) : processed (fun _ => false) i n = n := by
  induction n generalizing i with
  | zero => rfl
  | succ n ih => simp [processed, ih]

def rejections (batch : List SessionRequestT) (statuses : List SessionStatus) :
    List SessionResponseError :=
  (batch.zip statuses).filterMap fun (q, status) =>
    if status = .ok then none else some ⟨q.sessId, status.code⟩

def acceptances (batch : List SessionRequestT) (statuses : List SessionStatus) :
    List SessionRequestT :=
  (batch.zip statuses).filterMap fun (q, status) => if status = .ok then some q else none

theorem rejections_cons (q : SessionRequestT) (batch : List SessionRequestT)
    (status : SessionStatus) (statuses : List SessionStatus) :
    rejections (q :: batch) (status :: statuses) =
      rejections [q] [status] ++ rejections batch statuses := by
  by_cases accepted : status = .ok <;> simp [rejections, accepted]

theorem acceptances_cons (q : SessionRequestT) (batch : List SessionRequestT)
    (status : SessionStatus) (statuses : List SessionStatus) :
    acceptances (q :: batch) (status :: statuses) =
      acceptances [q] [status] ++ acceptances batch statuses := by
  by_cases accepted : status = .ok <;> simp [acceptances, accepted]

structure Carries (q : SessionRequestT) (r : RecordT) : Prop where
  sessionId : r.sessionId = q.sessId
  interfaces : r.inLif = q.inlif ∧ r.outLif = q.outlif
  ports : r.sourcePort = q.srcPort.setWidth 32 ∧ r.dstPort = q.dstPort.setWidth 32
  kind : r.protocolId = q.proto ∧ r.ipVersion = q.ipver
  v4 : q.ipver ≠ ipv6 → r.sourceIp = q.srcIP ∧ r.dstIp = q.dstIP

theorem newRecord_carries {q p : SessionRequestT} (same : SameRequest q p) (addr : Nat)
    (counters : Counters) : Carries q (newRecord addr p counters) where
  sessionId := same.sessId
  interfaces := same.interfaces
  ports := by simp [newRecord, same.ports]
  kind := ⟨same.kind.1, same.kind.2.1⟩
  v4 := fun four => ⟨(same.v4 four).1, (same.v4 four).2.1⟩

theorem add_records {q p : SessionRequestT} (same : SameRequest q p) (s : Server) :
    ∃ records, (opofAddSessionServer p s).2.sessions = s.sessions ++ records ∧
      List.Forall₂ Carries (acceptances [q] [(opofAddSessionServer p s).1]) records := by
  rcases add_cases p s with ⟨_, run⟩ | ⟨_, _, run⟩ | ⟨_, _, run⟩
  · exact ⟨[], by simp [run, Server.leaked], by simp [run, acceptances]⟩
  · exact ⟨[], by simp [run, Server.leaked], by simp [run, acceptances]⟩
  · refine ⟨_, by rw [run]; rfl, ?_⟩
    simp only [run, acceptances, List.zip_cons_cons, List.zip_nil_right, List.filterMap_cons,
      if_true, List.filterMap_nil]
    exact .cons (newRecord_carries same s.heap (drawCounters s.rand)) .nil

theorem addSessionLoop_spec (cancelled : Nat → Bool) (batch : List SessionRequestT) (i : Nat)
    (request : SessionRequest) (requestC : SessionRequestT) (response : AddSessionResponse)
    (s : Server) :
    let statuses := addStatuses cancelled i (writeRequests batch request) requestC s
    ∃ t records, addSessionLoop cancelled i (writeRequests batch request) requestC response s =
        some (if statuses.length = batch.length then .OK else abandoned,
          ⟨response.responseError ++ rejections batch statuses⟩, t) ∧
      statuses.length = processed cancelled i batch.length ∧
      t.sessions = s.sessions ++ records ∧
      List.Forall₂ Carries (acceptances batch statuses) records := by
  induction batch generalizing i request requestC response s with
  | nil => exact ⟨s, [], by simp [writeRequests, addSessionLoop, addStatuses, rejections],
      rfl, by simp, .nil⟩
  | cons q batch ih =>
    obtain ⟨p, decoded, same⟩ := request_roundtrip q request requestC
    simp only [writeRequests, addSessionLoop, addStatuses, decoded, Option.bind_eq_bind,
      Option.bind_some, processed, List.length_cons]
    by_cases stop : cancelled i
    · refine ⟨s, [], ?_⟩
      simp [stop, rejections, acceptances]
    · obtain ⟨first, grown, carried⟩ := add_records same s
      have reported : (if (opofAddSessionServer p s).1 ≠ .ok then
          { response with responseError := response.responseError ++
            [⟨(convertSessionRequest2cpp q request).sessionId,
              (opofAddSessionServer p s).1.code⟩] }
          else response) =
          ⟨response.responseError ++ rejections [q] [(opofAddSessionServer p s).1]⟩ := by
        by_cases accepted : (opofAddSessionServer p s).1 = .ok
        · simp [accepted, rejections]
        · simp [accepted, rejections, encode_sessId]
      obtain ⟨t, records, run, count, table, rows⟩ := ih (i + 1)
        (convertSessionRequest2cpp q request) p
        ⟨response.responseError ++ rejections [q] [(opofAddSessionServer p s).1]⟩
        (opofAddSessionServer p s).2
      simp only [stop, if_false, Bool.false_eq_true, reported, run, List.length_cons,
        Nat.add_right_cancel_iff]
      refine ⟨t, first ++ records, ?_, count, ?_, ?_⟩
      · rw [rejections_cons q batch, List.append_assoc]
      · rw [table, grown, List.append_assoc]
      · rw [acceptances_cons q batch]
        exact List.rel_append carried rows

theorem rejections_length (batch : List SessionRequestT) (statuses : List SessionStatus) :
    (rejections batch statuses).length ≤ batch.length := by
  apply Nat.le_trans (List.length_filterMap_le _ _)
  rw [List.length_zip]
  exact Nat.min_le_left _ _

def errorEntry (e : SessionResponseError) : AddSessionErrors := ⟨e.sessionId, e.errorStatus⟩

theorem copyResponseErrors_spec (errors : List SessionResponseError) (i : Nat)
    (sessionErrors : Vector AddSessionErrors bufferMax) (fits : i + errors.length ≤ bufferMax) :
    ∃ filled, copyResponseErrors errors i sessionErrors = some filled ∧
      filled.toList.take (i + errors.length) =
        sessionErrors.toList.take i ++ errors.map errorEntry := by
  induction errors generalizing i sessionErrors with
  | nil => exact ⟨sessionErrors, rfl, by simp⟩
  | cons e rest ih =>
    rw [List.length_cons] at fits
    have inside : i < bufferMax := by omega
    obtain ⟨filled, run, entries⟩ := ih (i + 1) (sessionErrors.set i (errorEntry e) inside)
      (by omega)
    refine ⟨filled, ?_, ?_⟩
    · rw [copyResponseErrors, dif_pos inside]
      exact run
    · have position : i + (e :: rest).length = i + 1 + rest.length := by
        rw [List.length_cons]
        omega
      rw [position, entries]
      have here : (sessionErrors.set i (errorEntry e) inside).toList.take (i + 1) =
          sessionErrors.toList.take i ++ [errorEntry e] := by
        have short : i < sessionErrors.toList.length := by simpa using inside
        rw [Vector.toList_set, List.set_eq_take_append_cons_drop, if_pos short,
          List.take_append, List.take_take, List.length_take]
        simp [Nat.min_eq_left (Nat.le_of_lt inside)]
      rw [here, List.append_assoc]
      rfl

theorem convertAddSessionResponse2c_spec (responseC : AddSessionResponseT)
    (response : AddSessionResponse) (few : response.responseError.length ≤ bufferMax) :
    ∃ resp, convertAddSessionResponse2c responseC response = some resp ∧
      resp.numberErrors = response.responseError.length ∧
      resp.sessionErrors.toList.take resp.numberErrors =
        response.responseError.map errorEntry := by
  unfold convertAddSessionResponse2c
  split
  · obtain ⟨filled, run, entries⟩ := copyResponseErrors_spec response.responseError 0
      responseC.sessionErrors (by omega)
    refine ⟨_, by rw [run]; rfl, rfl, ?_⟩
    simpa using entries
  · rename_i none
    have empty : response.responseError = [] := List.eq_nil_of_length_eq_zero (by omega)
    exact ⟨_, rfl, by simp [empty], by simp [empty]⟩

theorem opofAddSession_of_served {batch : List SessionRequestT} {stack : SessionRequestT}
    {s t : Server} {response : AddSessionResponse}
    (served : addSession (fun _ => false) (writeRequests batch .empty) stack s =
      some (.OK, response, t))
    (few : response.responseError.length ≤ bufferMax) (resp : AddSessionResponseT) :
    ∃ resp', opofAddSession batch resp stack s = some (0, resp', t) ∧
      resp'.numberErrors = response.responseError.length ∧
      resp'.sessionErrors.toList.take resp'.numberErrors =
        response.responseError.map errorEntry := by
  obtain ⟨resp', converted, number, entries⟩ := convertAddSessionResponse2c_spec resp response few
  refine ⟨resp', ?_, number, entries⟩
  simp only [opofAddSession, addSessionClient, served, Option.bind_eq_bind, Option.bind_some,
    converted]
  rfl

theorem addSession_served (batch : List SessionRequestT) (stack : SessionRequestT) (s : Server) :
    let statuses := addStatuses (fun _ => false) 0 (writeRequests batch .empty) stack s
    ∃ t records, addSession (fun _ => false) (writeRequests batch .empty) stack s =
        some (.OK, ⟨rejections batch statuses⟩, t) ∧
      statuses.length = batch.length ∧
      t.sessions = s.sessions ++ records ∧
      List.Forall₂ Carries (acceptances batch statuses) records := by
  obtain ⟨t, records, run, count, table, rows⟩ := addSessionLoop_spec (fun _ => false) batch 0
    .empty stack ⟨[]⟩ s
  have all := count.trans (processed_all 0 batch.length)
  rw [if_pos all] at run
  exact ⟨t, records, run, all, table, rows⟩

/-- A batch of at most 64 requests over any table: every position is answered by the
store, the caller is told the rejected ones with their statuses, and the table grows by
the sessions of the accepted ones, both in batch order. -/
theorem add_session_reports (batch : List SessionRequestT) (resp : AddSessionResponseT)
    (stack : SessionRequestT) (s : Server) (few : batch.length ≤ bufferMax) :
    let statuses := addStatuses (fun _ => false) 0 (writeRequests batch .empty) stack s
    ∃ resp' t records, opofAddSession batch resp stack s = some (0, resp', t) ∧
      statuses.length = batch.length ∧
      resp'.numberErrors = (rejections batch statuses).length ∧
      resp'.sessionErrors.toList.take resp'.numberErrors =
        (rejections batch statuses).map errorEntry ∧
      t.sessions = s.sessions ++ records ∧
      List.Forall₂ Carries (acceptances batch statuses) records := by
  intro statuses
  obtain ⟨t, records, served, all, table, rows⟩ := addSession_served batch stack s
  obtain ⟨resp', run, number, entries⟩ := opofAddSession_of_served served
    (Nat.le_trans (rejections_length batch statuses) few) resp
  exact ⟨resp', t, records, run, all, number, entries, table, rows⟩

theorem add_session_reports_twice :
    ∃ resp' t records, opofAddSession [testRequest zeroRequest 7#64, testRequest zeroRequest 7#64]
        zeroAddResponse zeroRequest (Server.init (fun _ => 0)) =
          some (0, resp', t) ∧
      resp'.numberErrors = 1 ∧ resp'.sessionErrors.toList.take 1 = [⟨7#64, 6⟩] ∧
      t.sessions = records ∧ records.length = 1 := by
  obtain ⟨resp', t, records, run, _, number, entries, table, rows⟩ := add_session_reports
    [testRequest zeroRequest 7#64, testRequest zeroRequest 7#64]
    zeroAddResponse zeroRequest (Server.init (fun _ => 0))
    (by decide)
  have one : resp'.numberErrors = 1 := number.trans rfl
  rw [one] at entries
  exact ⟨resp', t, records, run, one, entries, table, rows.length_eq.symm⟩

end SessionOffload
