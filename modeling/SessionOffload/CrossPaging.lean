import SessionOffload.Enumeration
import SessionOffload.Agreement

/-! Listing all sessions: the page loop of the C test program and the one call of the Python
clients, each against the C++ server and against the Python simulator. -/
namespace SessionOffload
open Paging SessionTableServicer

/-- session_getOffloadedSessions with paramPageSize and paramPage zero. -/
def wholeTable : SessionRequestArgs := { pageSize := 0#32, page := 0#32, startSession := 0#64 }

def SessionTableServicer.TimedSessionResponses.ids (r : TimedSessionResponses) : List Word64 :=
  r.sessionInfo.map (fun r => r.sessionId)

/-- SessionTableClient::getAllSessions talking to the simulator. A failed call leaves the
response message empty. -/
def nosPage (pageSize : Word32) (sessionStart : Word64) (s : SessionTableServicer) :
    Word64 × List SessionResponseT :=
  match s.getAllSessions { pageSize := pageSize, page := 0#32, startSession := sessionStart } with
  | some response => (response.nextkey,
      response.sessionInfo.map (fun r => convertSessionResponse2c r.toSessionResponse))
  | none => (0#64, [])

def Pager.nosNext (pageSize : Word32) (s : SessionTableServicer) (p : Pager) : Option Pager :=
  let (nextkey, page) := nosPage pageSize p.sessionStart s
  some ⟨nextkey, p.responses ++ page, page.length == 0⟩

def Pager.running (p : Pager) : Bool := !p.finished

def LoopListsServer (pageSize : Word32) (s : Server) : Prop :=
  ∃ fuel p t, getAllLoop pageSize fuel .begin s = some (p, t) ∧ p.ids.Perm s.ids

def LoopListsSimulator (pageSize : Word32) (s : SessionTableServicer) : Prop :=
  ∃ fuel p, Loop.run Pager.running (Pager.nosNext pageSize s) fuel .begin = some p ∧
    p.ids.Perm s.clientIds

def CallListsServer (s : Server) : Prop :=
  ∃ responses t, SessionTableImpl.getAllSessions false wholeTable .empty s =
    some (.OK, responses, t) ∧ (responses.sessionInfo.map SessionResponse.sessionId).Perm s.ids

def CallListsSimulator (s : SessionTableServicer) : Prop :=
  ∃ responses, s.getAllSessions wholeTable = some responses ∧ responses.ids.Perm s.clientIds

/-- No session that ends a page has the sentinel for its id. -/
def PlainKeys (s : Server) : Prop :=
  ∀ i, PageEnd bufferMax s.ids.length i → s.ids[i]? ≠ some uintMax

/-- Earlier requests left the cursor before the first record, or there is none to stand
before, and one page holds the table. -/
def Rewound (s : Server) : Prop :=
  CursorValid s ∧ s.pending = s.sessions ∧ s.sessions.length ≤ bufferMax

theorem loopListsServer_iff (pageSize : Word32) (s : Server)
    (blocks : (s.sessions.map RecordT.addr).Nodup) :
    LoopListsServer pageSize s ↔ PlainKeys s := by
  obtain ⟨stops, lists⟩ := getAllLoop_begin s blocks pageSize
  constructor
  · rintro ⟨fuel, p, t, run, _⟩
    exact stops ⟨fuel, p, t, run⟩
  · intro plain
    obtain ⟨fuel, p, t, run, same⟩ := lists plain
    exact ⟨fuel, p, t, run, same ▸ List.Perm.refl _⟩

def entryResponse (e : Nat × OffloadSession) : Option TimedSessionResponse :=
  e.2.response e.2.clientSessionId

section Simulator
variable {s : SessionTableServicer}

theorem getAllSessions_whole {request : SessionRequestArgs}
    (off : request.pageSize = 0#32 ∨ request.page = 0#32) :
    s.getAllSessions request =
      (s.offloadSessionTable.entries.mapM entryResponse).map (⟨·, 23333#64⟩) := by
  have bounds : pageBounds request s.offloadSessionTable.entries.length =
      (0, (s.offloadSessionTable.entries.length : Int) - 1) := by
    rw [pageBounds, if_neg]
    rintro ⟨size, page⟩
    exact off.elim size page
  have indices : ((s.offloadSessionTable.entries.length : Int) - 1 + 1 - 0).toNat =
      s.offloadSessionTable.entries.length := by omega
  have stretch := mapM_indices entryResponse s.offloadSessionTable.entries 0
    s.offloadSessionTable.entries.length (by omega)
  rw [List.drop_zero, List.take_length] at stretch
  simp only [getAllSessions, bounds, indices, Int.toNat_zero]
  change ((List.range' 0 _).mapM fun x =>
    s.offloadSessionTable.entries[x]?.bind entryResponse).bind _ = _
  rw [stretch]
  cases s.offloadSessionTable.entries.mapM entryResponse <;> rfl

theorem entries_reported {rs : List TimedSessionResponse}
    (built : s.offloadSessionTable.entries.mapM entryResponse = some rs) :
    rs.map (fun r => r.sessionId) = s.clientIds := by
  have each := mapM_some_iff.mp built
  rw [clientIds, Dict.values, List.map_map]
  clear built
  generalize s.offloadSessionTable.entries = entries at each ⊢
  induction each with
  | nil => rfl
  | cons first _ ih =>
    rw [List.map_cons, List.map_cons, ih]
    exact congrArg (· :: _) (response_spec first).2.sessionId

theorem callListsSimulator_iff (s : SessionTableServicer) :
    CallListsSimulator s ↔ ∀ e ∈ s.offloadSessionTable.values, e.Fits := by
  have whole := @getAllSessions_whole s wholeTable (.inl rfl)
  have defined := @mapM_defined_iff _ _ entryResponse s.offloadSessionTable.entries
  constructor
  · rintro ⟨responses, run, _⟩ e member
    obtain ⟨slot, here⟩ := Dict.mem_values.mp member
    rw [whole] at run
    obtain ⟨rs, built, _⟩ := Option.map_eq_some_iff.mp run
    obtain ⟨r, answer⟩ := defined.mp ⟨rs, built⟩ (slot, e) here
    exact (response_spec answer).1
  · intro fits
    obtain ⟨rs, built⟩ := defined.mpr fun e member =>
      response_built (fits e.2 (Dict.mem_values.mpr ⟨e.1, member⟩)) _
    refine ⟨⟨rs, 23333#64⟩, by rw [whole, built]; rfl, ?_⟩
    rw [TimedSessionResponses.ids, entries_reported built]

/-- Every page request is answered alike: with the whole table, or with nothing where that
cannot be built. -/
theorem nosPage_always (pageSize : Word32) (s : SessionTableServicer) :
    ∃ nextkey page, (∀ start, nosPage pageSize start s = (nextkey, page)) ∧
      (page = [] ∨ page.map SessionResponseT.sessionId = s.clientIds) := by
  cases built : s.offloadSessionTable.entries.mapM entryResponse with
  | none =>
    refine ⟨0#64, [], fun start => ?_, .inl rfl⟩
    rw [nosPage, getAllSessions_whole (.inr rfl), built]
    rfl
  | some rs =>
    have ids := entries_reported built
    refine ⟨23333#64, rs.map (fun r => convertSessionResponse2c r.toSessionResponse),
      fun start => ?_, .inr ?_⟩
    · rw [nosPage, getAllSessions_whole (.inr rfl), built]
      rfl
    · rw [List.map_map, ← ids]
      rfl

section
variable {pageSize : Word32} {nextkey : Word64} {page : List SessionResponseT}

theorem nosLoop_empty (always : ∀ start, nosPage pageSize start s = (nextkey, []))
    (fuel : Nat) :
    Loop.run Pager.running (Pager.nosNext pageSize s) (fuel + 1) .begin =
      some ⟨nextkey, [], true⟩ := by
  have turn : Pager.nosNext pageSize s .begin = some ⟨nextkey, [], true⟩ := by
    simp only [Pager.nosNext, always]
    rfl
  rw [Loop.run_turn rfl turn]
  exact Loop.run_stopped rfl fuel

theorem nosLoop_endless (always : ∀ start, nosPage pageSize start s = (nextkey, page))
    (some : page ≠ []) (fuel : Nat) :
    Loop.run Pager.running (Pager.nosNext pageSize s) fuel .begin = none := by
  have more : page.length ≠ 0 := fun zero => some (List.eq_nil_of_length_eq_zero zero)
  apply Loop.run_diverges (fun p => p.finished = false)
  · intro p unfinished
    rw [Pager.running, unfinished]
    rfl
  · intro p q _ turn
    simp only [Pager.nosNext, always] at turn
    cases Option.some.inj turn
    exact beq_false_of_ne more
  · rfl

end

theorem loopListsSimulator_iff (pageSize : Word32) (s : SessionTableServicer) :
    LoopListsSimulator pageSize s ↔ s.offloadSessionTable.entries = [] := by
  have empty : s.clientIds = [] ↔ s.offloadSessionTable.entries = [] := by
    simp only [clientIds, Dict.values, List.map_eq_nil_iff]
  obtain ⟨nextkey, page, always, whole⟩ := nosPage_always pageSize s
  rw [← empty]
  constructor
  · rintro ⟨fuel, p, run, listed⟩
    by_cases some : page = []
    · subst some
      cases fuel with
      | zero => cases run
      | succ fuel =>
        rw [nosLoop_empty always] at run
        cases Option.some.inj run
        exact listed.symm.eq_nil
    · rw [nosLoop_endless always some] at run
      cases run
  · intro none
    have nothing : page = [] := by
      rcases whole with nothing | ids
      · exact nothing
      · rw [none] at ids
        exact List.map_eq_nil_iff.mp ids
    subst nothing
    refine ⟨1, _, nosLoop_empty always 0, ?_⟩
    rw [none]
    exact List.Perm.refl _

end Simulator

theorem callListsServer_iff (s : Server) (blocks : (s.sessions.map RecordT.addr).Nodup) :
    CallListsServer s ↔ Rewound s := by
  have entered := enter_zero s
  by_cases valid : CursorValid s
  · obtain ⟨rs, key, t, run, _, _, _, ids, _⟩ :=
      page_spec blocks bufferMax 0#64 (entered.symm ▸ valid)
    rw [entered, take_served (by decide)] at ids
    have answer : SessionTableImpl.getAllSessions false wholeTable .empty s =
        some (.OK, ⟨rs.map convertSessionResponse2cpp, key⟩, t) := by
      simp only [SessionTableImpl.getAllSessions, opofGetAllSessionsServer, wholeTable, run]
      rfl
    have listed : (rs.map convertSessionResponse2cpp).map SessionResponse.sessionId =
        (s.pending.take bufferMax).map RecordT.sessionId := by
      rw [← ids, List.map_map]
      rfl
    have suffix := (pending_suffix s).length_le
    constructor
    · rintro ⟨responses, t', answer', once⟩
      rw [answer] at answer'
      cases Option.some.inj answer'
      have long := once.length_eq
      change ((rs.map convertSessionResponse2cpp).map SessionResponse.sessionId).length = _ at long
      rw [listed, List.length_map, List.length_take, Server.ids, List.length_map] at long
      refine ⟨valid, (pending_suffix s).eq_of_length (by omega), by omega⟩
    · rintro ⟨_, whole, small⟩
      refine ⟨_, t, answer, ?_⟩
      change ((rs.map convertSessionResponse2cpp).map SessionResponse.sessionId).Perm s.ids
      rw [listed, whole, List.take_of_length_le small]
      exact List.Perm.refl _
  · constructor
    · rintro ⟨responses, t, answer, _⟩
      have dangling := page_dangling bufferMax 0#64 (entered.symm ▸ valid)
      simp only [SessionTableImpl.getAllSessions, opofGetAllSessionsServer, wholeTable,
        dangling] at answer
      cases answer
    · exact fun rewound => absurd rewound.1 valid

/-- When each of the four pairs of a listing procedure and a server obtains every session of
the server's table once, for any tables and any leftover cursor. -/
theorem listings_agree (s : Server) (blocks : (s.sessions.map RecordT.addr).Nodup)
    (t : SessionTableServicer) (pageSize : Word32) :
    (LoopListsServer pageSize s ↔ PlainKeys s) ∧
    (LoopListsSimulator pageSize t ↔ t.offloadSessionTable.entries = []) ∧
    (CallListsServer s ↔ Rewound s) ∧
    (CallListsSimulator t ↔ ∀ e ∈ t.offloadSessionTable.values, e.Fits) :=
  ⟨loopListsServer_iff pageSize s blocks, loopListsSimulator_iff pageSize t,
    callListsServer_iff s blocks, callListsSimulator_iff t⟩

/-- Three sessions on each server, with the cursor of the store on the first one. -/
theorem listings_agree_three : LoopListsServer 64#32 (tableOf [7#64, 8#64, 9#64] (some 0)) ∧
    ¬ LoopListsSimulator 64#32 threeSessions ∧
    CallListsServer (tableOf [7#64, 8#64, 9#64] (some 0)) ∧ CallListsSimulator threeSessions := by
  have keyed : (tableOf [7#64, 8#64, 9#64] (some 0)).Keyed := tableOf_keyed (by decide) (some 0)
  obtain ⟨loop, loopNos, call, callNos⟩ := listings_agree _ keyed.blocks threeSessions 64#32
  refine ⟨loop.mpr ?_, mt loopNos.mp (List.cons_ne_nil _ _), call.mpr ⟨?_, rfl, by decide⟩,
    callNos.mpr (by decide)⟩
  · rw [PlainKeys, tableOf_ids]
    exact fun i _ => plain_of_absent (by decide) i
  · intro a start
    cases Option.some.inj start
    exact ⟨_, List.mem_cons_self, rfl⟩

/-- One added session: the loop does not end against the simulator, and the call of the
Python clients gets nothing from the C++ server. -/
theorem listings_differ : ∃ t ls, Transition.Path NosStep .simulator ls t ∧
    ¬ LoopListsSimulator 64#32 t ∧ ¬ CallListsServer (singleTable 7#64) := by
  refine ⟨_, [(.add dawn .empty, .add (some []))], .single rfl, ?_, ?_⟩
  · rw [loopListsSimulator_iff]
    exact List.cons_ne_nil _ _
  · rw [callListsServer_iff _ (by decide)]
    rintro ⟨_, pending, _⟩
    cases pending

end SessionOffload
