import SessionOffload.StoreDesk

/-! Sending a batch again after a call that was cut short. The store is a desk for
session ids, and what earlier calls got through to it is refused without effect. -/
namespace SessionOffload
open SessionTableImpl SessionTableClient Intake

/-- One call of addSession for a batch: how many of its messages arrive, and when the
server sees that the call is cancelled. -/
structure Attempt where
  delivered : Nat
  cancelled : Nat → Bool
  requestC : SessionRequestT

/-- Calls that are cut short, and a last one that is not; with the statuses the store
returned in each. -/
def retries (messages : List SessionRequest) (requestC : SessionRequestT) :
    List Attempt → Server → Option (List (List SessionStatus) × Server)
  | [], s => do
    let (_, _, t) ← addSession (fun _ => false) messages requestC s
    some ([addStatuses (fun _ => false) 0 messages requestC s], t)
  | a :: attempts, s => do
    let (_, _, t) ← addSession a.cancelled (messages.take a.delivered) a.requestC s
    let (statuses, u) ← retries messages requestC attempts t
    some (addStatuses a.cancelled 0 (messages.take a.delivered) a.requestC s :: statuses, u)

def accepted (statuses : List SessionStatus) : List Nat := statuses.findIdxs (· = .ok)

theorem places_accepting (statuses : List SessionStatus) :
    places (accepting statuses) = accepted statuses := by
  rw [places, accepting, List.findIdxs_map]
  rfl

theorem writeRequests_take (batch : List SessionRequestT) (request : SessionRequest) (n : Nat) :
    (writeRequests batch request).take n = writeRequests (batch.take n) request := by
  induction batch generalizing request n with
  | nil => simp [writeRequests]
  | cons q batch ih =>
    cases n with
    | zero => rfl
    | succ n => simp [writeRequests, ih]

def Attempt.reach (a : Attempt) (batch : List SessionRequestT) : Nat :=
  min (processed a.cancelled 0 (batch.take a.delivered).length) a.delivered

theorem retries_offer (batch : List SessionRequestT) (requestC : SessionRequestT)
    (attempts : List Attempt) (s : Server) :
    let ids := batch.map SessionRequestT.sessId
    let tries := storeDesk.attempts ids (attempts.map (fun a => a.reach batch)) s.ids
    ∃ tried u, retries (writeRequests batch .empty) requestC attempts s = some (tried, u) ∧
      u.ids = tries.2 ∧ tried.map accepting = tries.1 := by
  induction attempts generalizing s with
  | nil =>
    obtain ⟨t, run, _, table, marks⟩ := addSession_offers batch requestC s
    refine ⟨[addStatuses (fun _ => false) 0 (writeRequests batch .empty) requestC s], t, ?_,
      table, ?_⟩
    · rw [retries, run]
      rfl
    · simp [marks, Desk.attempts]
  | cons a attempts ih =>
    obtain ⟨status, resp, t, run, _, table, marks⟩ := addSessionLoop_offers a.cancelled
      (batch.take a.delivered) 0 .empty a.requestC ⟨[]⟩ s
    rw [List.map_take, List.take_take] at table marks
    obtain ⟨tried, u, rest, last, later⟩ := ih t
    refine ⟨addStatuses a.cancelled 0 (writeRequests (batch.take a.delivered) .empty)
      a.requestC s :: tried, u, ?_, ?_, ?_⟩
    · rw [retries, writeRequests_take, addSession, run]
      simp only [Option.bind_eq_bind, Option.bind_some, rest]
    · rw [last, table]
      rfl
    · rw [List.map_cons, later, marks, table]
      rfl

/-- However many calls are cut short wherever, the last one leaves the table a single call
leaves; the positions installed over all calls are those of the single call, in its order,
and no session is installed from two of them. -/
theorem retry_safe (batch : List SessionRequestT) (attempts : List Attempt)
    (stack stack' : SessionRequestT) (s : Server) :
    let messages := writeRequests batch .empty
    let single := addStatuses (fun _ => false) 0 messages stack s
    let installed := (accepted single).filterMap ((batch.map SessionRequestT.sessId)[·]?)
    ∃ resp t tried u,
      addSession (fun _ => false) messages stack s = some (.OK, resp, t) ∧
      retries messages stack' attempts s = some (tried, u) ∧
      u.ids = t.ids ∧ t.ids = s.ids ++ installed ∧ installed.Nodup ∧
      tried.flatMap accepted = accepted single := by
  intro messages single installed
  obtain ⟨t, run, _, table, marks⟩ := addSession_offers batch stack s
  obtain ⟨tried, u, retried, last, later⟩ := retries_offer batch stack' attempts s
  obtain ⟨same, once⟩ := attempts_once storeDesk (batch.map SessionRequestT.sessId)
    (attempts.map (fun a => a.reach batch)) s.ids
  have chosen : installed = picked (batch.map SessionRequestT.sessId)
      (storeDesk.marks (batch.map SessionRequestT.sessId) s.ids) := by
    rw [← marks, picked, places_accepting]
  refine ⟨_, t, tried, u, run, retried, ?_, ?_, ?_, ?_⟩
  · rw [last, same, table]
  · rw [table, offerAll_picked, chosen]
  · rw [chosen]
    exact picked_nodup storeDesk _ _
  · have all : tried.flatMap accepted = (tried.map accepting).flatMap places := by
      rw [List.flatMap_map]
      exact congrArg (fun f => tried.flatMap f) (funext fun x => (places_accepting x).symm)
    rw [all, later, once, ← marks, places_accepting]

end SessionOffload
