import SessionOffload.ClosedStream
import SessionOffload.DeleteAll

/-! How far the client library writes into the arrays it is given. None of its loops tests an
index; each goes as far as the server's answer does. -/
namespace SessionOffload
open Paging Intake SessionTableImpl SessionTableClient

/-- A page has every session the cursor stands before, up to the server's own page size, and
the page size of the request has no part in it. -/
theorem getAll_writes (s : Server) (keyed : s.Keyed) (key : Word64) (pageSize : Word32) (p : Nat) :
    (∃ page, opofGetAllSessions key pageSize s = some page ∧ page.sessionCount ≤ p) ↔
      CursorValid (s.enter key) ∧ (bufferMax ≤ p ∨ (s.enter key).pending.length ≤ p) := by
  by_cases valid : CursorValid (s.enter key)
  · have pos : 1 ≤ bufferMax := by decide
    obtain ⟨rs, key', t, page, _, _, _, reported, _⟩ := page_spec keyed.blocks bufferMax key valid
    rw [take_served pos] at reported
    have count := congrArg List.length reported
    rw [List.length_map, List.length_map, List.length_take] at count
    have written : (∃ page, opofGetAllSessions key pageSize s = some page ∧
        page.sessionCount ≤ p) ↔ rs.length ≤ p := by
      rw [opofGetAllSessions_page page]
      constructor
      · rintro ⟨_, same, few⟩
        cases same
        exact few
      · exact fun few => ⟨_, rfl, few⟩
    rw [written, count, min_le_iff]
    exact (and_iff_right valid).symm
  · rw [opofGetAllSessions_undefined (page_dangling bufferMax key valid)]
    refine iff_of_false ?_ (fun h => valid h.1)
    rintro ⟨page, impossible, _⟩
    cases impossible

theorem closed_beyond {s : Server} (inv : s.Inv) {pageSize : Word32}
    (beyond : bufferMax < closedCount pageSize s.sessions.length) :
    getClosedSessions false (pageRequest pageSize) s = none := by
  obtain ⟨_, stores, _⟩ := closed_spec inv pageSize
  have answer : getClosedSessions false (pageRequest pageSize) s =
      answerOf (opofGetClosedSessionsServer pageSize s) := rfl
  have outside : ¬ (closedStores (opofGetClosedSessionsServer pageSize s) ++
      closedReads (opofGetClosedSessionsServer pageSize s)).all (· < bufferMax) = true := by
    rw [closedStores, stores, List.all_eq_true]
    intro all
    have last := all bufferMax (List.mem_append_left _ (List.mem_range.mpr beyond))
    exact Nat.lt_irrefl _ (of_decide_eq_true last)
  rw [answer, answerOf, if_neg outside]

theorem opofGetClosedSessions_answer (pageSize : Word32) (s : Server) :
    opofGetClosedSessions pageSize s =
      (getClosedSessions false (pageRequest pageSize) s).map fun answer =>
        ⟨answer.1.errorCode.code, 0#64, answer.2.1.map convertSessionResponse2c, answer.2.2⟩ := by
  have request : SessionRequestArgs.mk pageSize 0#32 0#64 = pageRequest pageSize := rfl
  unfold opofGetClosedSessions SessionTableClient.getClosedSessions
  rw [request]
  cases getClosedSessions false (pageRequest pageSize) s <;> rfl

theorem closed_writes {s : Server} (inv : s.Inv) {pageSize : Word32}
    (positive : 1 ≤ pageSize.toNat) :
    (∃ page, opofGetClosedSessions pageSize s = some page ∧
      page.sessionCount ≤ pageSize.toNat) ↔
      pageSize.toNat ≤ bufferMax ∨ s.sessions.length ≤ bufferMax := by
  have size := closedCount_of_pos inv positive
  rw [← min_le_iff, ← size, opofGetClosedSessions_answer]
  constructor
  · rintro ⟨page, run, _⟩
    by_contra beyond
    rw [closed_beyond inv (Nat.lt_of_not_le beyond)] at run
    cases run
  · intro few
    obtain ⟨status, messages, t, run, _⟩ := getClosedSessions_inside inv few
    obtain ⟨_, listed, _⟩ := getClosedSessions_spec inv run
    have count := congrArg List.length listed
    rw [List.length_map, List.length_take] at count
    rw [run]
    refine ⟨_, rfl, ?_⟩
    rw [Page.sessionCount, List.length_map]
    exact count.trans_le (by omega)

theorem copyResponseErrors_iff (errors : List SessionResponseError) (i : Nat)
    (sessionErrors : Vector AddSessionErrors bufferMax) (start : i ≤ bufferMax) :
    (∃ filled, copyResponseErrors errors i sessionErrors = some filled) ↔
      i + errors.length ≤ bufferMax := by
  induction errors generalizing i sessionErrors with
  | nil => exact iff_of_true ⟨sessionErrors, rfl⟩ start
  | cons e rest ih =>
    rw [List.length_cons]
    by_cases inside : i < bufferMax
    · rw [copyResponseErrors, dif_pos inside, ih (i + 1) _ inside]
      omega
    · rw [copyResponseErrors, dif_neg inside]
      refine iff_of_false ?_ (by omega)
      rintro ⟨filled, impossible⟩
      cases impossible

theorem rejections_count (batch : List SessionRequestT) (statuses : List SessionStatus)
    (all : statuses.length = batch.length) :
    (rejections batch statuses).length = (accepting statuses).count false := by
  induction batch generalizing statuses with
  | nil =>
    cases List.eq_nil_of_length_eq_zero all
    rfl
  | cons q batch ih =>
    cases statuses with
    | nil => cases all
    | cons status statuses =>
      have rest := ih statuses (Nat.succ.inj all)
      rw [rejections_cons, List.length_append, rest]
      by_cases accepted : status = .ok <;> simp [rejections, accepting, accepted]
      omega

/-- The requests of a batch that the store refuses: those that find their id in the table, or
the table over its limit. -/
def refusals (batch : List SessionRequestT) (s : Server) : Nat :=
  (storeDesk.marks (batch.map SessionRequestT.sessId) s.ids).count false

theorem convert_iff (resp : AddSessionResponseT) (response : AddSessionResponse) :
    (∃ resp', convertAddSessionResponse2c resp response = some resp') ↔
      response.responseError.length ≤ bufferMax := by
  have copied := copyResponseErrors_iff response.responseError 0 resp.sessionErrors (Nat.zero_le _)
  rw [Nat.zero_add] at copied
  rw [← copied]
  unfold convertAddSessionResponse2c
  split
  · constructor
    · rintro ⟨resp', run⟩
      obtain ⟨filled, copy, _⟩ := Option.bind_eq_some_iff.mp run
      exact ⟨filled, copy⟩
    · rintro ⟨filled, copy⟩
      rw [copy]
      exact ⟨_, rfl⟩
  · next none =>
    rw [List.eq_nil_of_length_eq_zero (Nat.eq_zero_of_not_pos none)]
    exact iff_of_true ⟨_, rfl⟩ ⟨_, rfl⟩

theorem add_writes (batch : List SessionRequestT) (resp : AddSessionResponseT)
    (stack : SessionRequestT) (s : Server) :
    (∃ out, opofAddSession batch resp stack s = some out) ↔ refusals batch s ≤ bufferMax := by
  obtain ⟨t, served, _, _, marks⟩ := addSession_offers batch stack s
  obtain ⟨_, _, _, all, _⟩ := addSession_served batch stack s
  have count := rejections_count batch _ all
  rw [marks] at count
  rw [refusals, ← count, ← convert_iff resp]
  simp only [opofAddSession, addSessionClient, served, Option.bind_eq_bind, Option.bind_some]
  constructor
  · rintro ⟨out, run⟩
    obtain ⟨resp', converted, _⟩ := Option.bind_eq_some_iff.mp run
    exact ⟨resp', converted⟩
  · rintro ⟨resp', converted⟩
    rw [converted]
    exact ⟨_, rfl⟩

/-- Over any table: a listing stays inside an array of the page size exactly when the server's
page or what is left to list does, the closed sessions do exactly when the handler's array has
room for them, and the errors of a batch do exactly when at most 64 are refused. -/
theorem client_bounds (s : Server) (inv : s.Inv) (pageSize : Word32)
    (positive : 1 ≤ pageSize.toNat) (key : Word64) (batch : List SessionRequestT)
    (resp : AddSessionResponseT) (stack : SessionRequestT) :
    ((∃ page, opofGetAllSessions key pageSize s = some page ∧
        page.sessionCount ≤ pageSize.toNat) ↔
      CursorValid (s.enter key) ∧
        (bufferMax ≤ pageSize.toNat ∨ (s.enter key).pending.length ≤ pageSize.toNat)) ∧
    ((∃ page, opofGetClosedSessions pageSize s = some page ∧
        page.sessionCount ≤ pageSize.toNat) ↔
      pageSize.toNat ≤ bufferMax ∨ s.sessions.length ≤ bufferMax) ∧
    ((∃ out, opofAddSession batch resp stack s = some out) ↔ refusals batch s ≤ bufferMax) :=
  ⟨getAll_writes s inv.keyed key pageSize pageSize.toNat, closed_writes inv positive,
    add_writes batch resp stack s⟩

/-- Three sessions and arrays of two: they are listed beyond the end, and handed over as closed
within it. Of three requests the two for known sessions are refused. -/
theorem client_bounds_three :
    (¬ ∃ page, opofGetAllSessions uintMax 2#32 (tableOf [7#64, 8#64, 9#64] none) = some page ∧
        page.sessionCount ≤ 2) ∧
    (∃ page, opofGetClosedSessions 2#32 (tableOf [7#64, 8#64, 9#64] none) = some page ∧
        page.sessionCount ≤ 2) ∧
    ∃ out, opofAddSession ([8#64, 9#64, 10#64].map (testRequest zeroRequest)) zeroAddResponse
      zeroRequest (tableOf [7#64, 8#64, 9#64] none) = some out := by
  obtain ⟨listing, closed, added⟩ := client_bounds (tableOf [7#64, 8#64, 9#64] none)
    (tableOf_inv (by decide) (by decide) none) 2#32 (by decide) uintMax
    ([8#64, 9#64, 10#64].map (testRequest zeroRequest)) zeroAddResponse zeroRequest
  refine ⟨fun within => ?_, closed.mpr (.inl (by decide)), added.mpr (by decide)⟩
  exact absurd (listing.mp within).2 (by decide)

/-- Two sessions are written where the caller asked for one at most. -/
theorem getAll_beyond : ∃ page,
    opofGetAllSessions uintMax 1#32
      (opofAddSessionServer (testRequest zeroRequest 8#64) (singleTable 7#64)).2 = some page ∧
    page.sessionCount = 2 :=
  ⟨_, rfl, rfl⟩

end SessionOffload
