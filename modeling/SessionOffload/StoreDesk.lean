import SessionOffload.WireBatch
import SessionOffload.Lib.Intake

/-! The store seen by the ids offered to it: a desk that refuses an id that is in the
table, and every id once it has seen the table full. -/
namespace SessionOffload
open SessionTableImpl SessionTableClient Intake

/-- The store as its callers see it: room is tested before the id is looked up. -/
def storeDesk : Desk Word64 (List Word64) where
  admits id ids := decide (ids.length ≤ hashtableSize ∧ id ∉ ids)
  insert id ids := ids ++ [id]
  once := by simp
  final := by
    intro j k ids refused
    simp only [decide_eq_false_iff_not, not_and, not_not, List.length_append,
      List.length_singleton, List.mem_append] at refused ⊢
    exact fun room => .inl (refused (by omega))

theorem add_offers (q : SessionRequestT) (s : Server) :
    decide ((opofAddSessionServer q s).1 = .ok) = storeDesk.admits q.sessId s.ids ∧
      (opofAddSessionServer q s).2.ids = storeDesk.offer q.sessId s.ids := by
  rcases add_cases q s with ⟨full, run⟩ | ⟨room, present, run⟩ | ⟨room, absent, run⟩
  · have crowded : ¬ s.ids.length ≤ hashtableSize := by
      rw [s.length_ids]
      omega
    simp [run, storeDesk, Desk.offer, crowded]
  · simp [run, storeDesk, Desk.offer, present]
  · have free : s.ids.length ≤ hashtableSize := by rwa [s.length_ids]
    simp [run, storeDesk, Desk.offer, absent, free]

theorem offerAll_picked (ids table : List Word64) :
    storeDesk.offerAll ids table = table ++ picked ids (storeDesk.marks ids table) := by
  induction ids generalizing table with
  | nil => simp [Desk.offerAll, picked]
  | cons id ids ih =>
    rw [Desk.offerAll, ih, Desk.marks, picked_cons, Desk.offer]
    split <;> simp [storeDesk]

def accepting (statuses : List SessionStatus) : List Bool :=
  statuses.map (fun status => decide (status = .ok))

theorem addSessionLoop_offers (cancelled : Nat → Bool) (batch : List SessionRequestT) (i : Nat)
    (request : SessionRequest) (requestC : SessionRequestT) (response : AddSessionResponse)
    (s : Server) :
    let ids := (batch.map SessionRequestT.sessId).take (processed cancelled i batch.length)
    ∃ status resp t, addSessionLoop cancelled i (writeRequests batch request) requestC response s =
        some (status, resp, t) ∧ (s.Inv → t.Inv) ∧
      t.ids = storeDesk.offerAll ids s.ids ∧
      accepting (addStatuses cancelled i (writeRequests batch request) requestC s) =
        storeDesk.marks ids s.ids := by
  induction batch generalizing i request requestC response s with
  | nil => exact ⟨_, _, s, rfl, fun inv => inv, rfl, rfl⟩
  | cons q batch ih =>
    obtain ⟨p, decoded, same⟩ := request_roundtrip q request requestC
    simp only [writeRequests, addSessionLoop, addStatuses, decoded, Option.bind_eq_bind,
      Option.bind_some, processed, List.length_cons]
    by_cases stop : cancelled i
    · simp [stop, Desk.offerAll, Desk.marks, accepting]
    · obtain ⟨mark, next⟩ := add_offers p s
      rw [same.sessId] at mark next
      obtain ⟨status, resp, t, run, keeps, table, marks⟩ := ih (i + 1)
        (convertSessionRequest2cpp q request) p
        (if (opofAddSessionServer p s).1 ≠ .ok then
          { response with responseError := response.responseError ++
            [⟨(convertSessionRequest2cpp q request).sessionId,
              (opofAddSessionServer p s).1.code⟩] }
          else response) (opofAddSessionServer p s).2
      simp only [stop, if_false, Bool.false_eq_true, List.map_cons, List.take_succ_cons,
        Desk.offerAll, Desk.marks, ← next, ← mark]
      refine ⟨status, resp, t, run, fun inv => keeps (add_inv p s inv), table, ?_⟩
      rw [← marks]
      rfl

theorem addSession_offers (batch : List SessionRequestT) (stack : SessionRequestT) (s : Server) :
    let ids := batch.map SessionRequestT.sessId
    let statuses := addStatuses (fun _ => false) 0 (writeRequests batch .empty) stack s
    ∃ t, addSession (fun _ => false) (writeRequests batch .empty) stack s =
        some (.OK, ⟨rejections batch statuses⟩, t) ∧ (s.Inv → t.Inv) ∧
      t.ids = storeDesk.offerAll ids s.ids ∧ accepting statuses = storeDesk.marks ids s.ids := by
  intro ids statuses
  obtain ⟨t, _, served, _⟩ := addSession_served batch stack s
  obtain ⟨status, resp, u, run, keeps, table, marks⟩ := addSessionLoop_offers (fun _ => false)
    batch 0 .empty stack ⟨[]⟩ s
  have same : t = u := by
    have equal := served.symm.trans run
    exact congrArg (fun r => r.2.2) (Option.some.inj equal)
  have whole : (batch.map SessionRequestT.sessId).take (processed (fun _ => false) 0 batch.length) =
      ids := by
    rw [processed_all, ← List.length_map (f := SessionRequestT.sessId), List.take_length]
  rw [whole] at table marks
  exact ⟨t, served, same ▸ keeps, same ▸ table, marks⟩

end SessionOffload
