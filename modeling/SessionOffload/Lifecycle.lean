import SessionOffload.TestUtil

/-! The store as a registry of session ids: every run of the faithful store is a run of
the abstract roll, and the lifecycle of each session is read off there. -/
namespace SessionOffload
open Transition Registry

def eventOf : Call × Reply → Event Word64
  | (.add q, .add .ok) => .gain q.sessId
  | (.del id _, .del .ok _) => .lose [id]
  | (.getClosed _, .getClosed rs) => .lose (rs.map SessionResponseT.sessionId)
  | _ => .keep

structure Refines (s : Server) (r : Roll Word64) : Prop where
  inv : s.Inv
  same : r.keys = s.ids

theorem init_refines (rand : Nat → Nat) : Refines (Server.init rand) .empty :=
  ⟨Server.init_inv rand, rfl⟩

theorem drop_eq_filter {α : Type*} [DecidableEq α] (k : Nat) {l : List α} (distinct : l.Nodup) :
    l.drop k = l.filter (fun x => x ∉ l.take k) := by
  have apart : (l.take k ++ l.drop k).Nodup := by rwa [List.take_append_drop]
  have gone : (l.take k).filter (fun x => x ∉ l.take k) = [] := by simp
  have kept : (l.drop k).filter (fun x => x ∉ l.take k) = l.drop k := by
    apply List.filter_eq_self.mpr
    intro x hx
    exact decide_eq_true (fun hk => (List.nodup_append.mp apart).2.2 x hk x hx rfl)
  calc l.drop k = (l.take k ++ l.drop k).filter (fun x => x ∉ l.take k) := by
        rw [List.filter_append, gone, kept, List.nil_append]
    _ = l.filter (fun x => x ∉ l.take k) := by rw [List.take_append_drop]

theorem step_refines {s t : Server} {r : Roll Word64} {l : Call × Reply}
    (related : Refines s r) (step : Step s l t) :
    ∃ u, Registry.Step r (eventOf l) u ∧ Refines t u := by
  have inv := step_inv related.inv step
  have stays (table : t.sessions = s.sessions) : Refines t r :=
    ⟨inv, by rw [related.same, Server.ids, Server.ids, table]⟩
  cases step_effect related.inv step with
  | exhausted q full table => exact ⟨r, .keep r, stays table⟩
  | known q room present table => exact ⟨r, .keep r, stays table⟩
  | installed q room absent table =>
    refine ⟨r.insert q.sessId (related.same ▸ absent), .gain r _ _, inv, ?_⟩
    simp [related.same, Server.ids, table, newRecord]
  | found id response resp present named same => exact ⟨r, .keep r, stays (by rw [same])⟩
  | missed id response absent same => exact ⟨r, .keep r, stays (by rw [same])⟩
  | deleted id response resp present named table =>
    refine ⟨r.remove [id], .lose r [id] (List.pairwise_singleton _ _) ?_, inv, ?_⟩
    · intro k hk
      rw [List.mem_singleton.mp hk, related.same]
      exact present
    · have kept := ids_filter (p := fun k => k != id) table
      rw [kept, Roll.remove_keys, related.same]
      exact List.filter_congr (fun k _ => by by_cases same : k = id <;> simp [same])
  | unknown id response absent same => exact ⟨r, .keep r, stays (by rw [same])⟩
  | closed pageSize rs reported table =>
    refine ⟨r.remove (rs.map SessionResponseT.sessionId), .lose r _ ?_ ?_, inv, ?_⟩
    · rw [reported]
      exact related.inv.distinct.sublist (List.take_sublist _ _)
    · intro k hk
      rw [reported] at hk
      rw [related.same]
      exact List.mem_of_mem_take hk
    · have dropped : t.ids = s.ids.drop (closedCount pageSize s.sessions.length) := by
        simp only [Server.ids, table, List.map_drop]
      rw [Roll.remove_keys, related.same, reported, dropped, drop_eq_filter _ related.inv.distinct]
  | page key nextkey rs valid table => exact ⟨r, .keep r, stays table⟩

theorem path_refines {s : Server} {rand : Nat → Nat} {es : List (Call × Reply)}
    (path : Path Step (Server.init rand) es s) :
    ∃ r, Path Registry.Step .empty (es.map eventOf) r ∧ Refines s r :=
  path.simulate eventOf Refines (fun _ _ _ _ related step => step_refines related step)
    .empty (init_refines rand)

theorem get_ok_iff (s : Server) (id : Word64) (response : SessionResponseT) :
    (opofGetSessionServer id response s).1 = .ok ↔ id ∈ s.ids := by
  by_cases present : id ∈ s.ids
  · obtain ⟨resp, run, _⟩ := get_present present response
    simp [run, present]
  · simp [get_absent present response, present]

/-- In every run the successful adds and the removals of a session take turns, starting
with an add; the session is in the table, and a get finds it, exactly when the last of
them was an add; no id is in the table twice; and a get-closed call with a page size
from 1 on takes the first sessions of the table and leaves the others in order. -/
theorem session_lifecycle (rand : Nat → Nat) (es : List (Call × Reply)) (s : Server)
    (path : Path Step (Server.init rand) es s) :
    s.ids.Nodup ∧
    (∀ id, Alternates false (history id (es.map eventOf)) ∧
      ((history id (es.map eventOf)).getLast? = some true ↔ id ∈ s.ids) ∧
      ∀ response, (opofGetSessionServer id response s).1 = .ok ↔
        (history id (es.map eventOf)).getLast? = some true) ∧
    (∀ pageSize : Word32, 1 ≤ pageSize.toNat →
      let scan := opofGetClosedSessionsServer pageSize s
      let k := min pageSize.toNat s.sessions.length
      scan.stores.map (fun e => e.2.sessionId) = s.ids.take k ∧ scan.i = k ∧
        scan.server.sessions = s.sessions.drop k) := by
  obtain ⟨r, rolled, inv, same⟩ := path_refines path
  refine ⟨inv.distinct, ?_, ?_⟩
  · intro id
    obtain ⟨turns, last⟩ := history_from_empty rolled id
    rw [same] at last
    exact ⟨turns, last, fun response => (get_ok_iff s id response).trans last.symm⟩
  · intro pageSize pos
    obtain ⟨table, _, reported, count, _⟩ := closed_spec inv pageSize
    rw [closedCount_of_pos inv pos] at table reported count
    exact ⟨reported, count, table⟩

/-- The first two of three sessions are reported as closed, then one of them is added again and the
third one deleted. -/
theorem session_lifecycle_again :
    ∃ es s, Path Step (Server.init (fun _ => 0)) es s ∧ s.ids = [7#64] ∧ s.ids.Nodup ∧
      history 7#64 (es.map eventOf) = [true, false, true] ∧
      Alternates false (history 7#64 (es.map eventOf)) ∧
      (history 9#64 (es.map eventOf)).getLast? ≠ some true := by
  let q := testRequest zeroRequest
  have run : ∃ es s, Path Step (Server.init (fun _ => 0)) es s ∧ s.ids = [7#64] ∧
      history 7#64 (es.map eventOf) = [true, false, true] :=
    ⟨[(.add (q 7#64), .add .ok), (.add (q 8#64), .add .ok), (.add (q 9#64), .add .ok),
        (.getClosed 2#32, .getClosed _), (.add (q 7#64), .add .ok),
        (.del 9#64 zeroResponse, .del .ok _)], _,
      .cons rfl (.cons rfl (.cons rfl (.cons rfl (.cons rfl (.single rfl))))), rfl, rfl⟩
  obtain ⟨es, s, path, ids, taken⟩ := run
  have kept := session_lifecycle (fun _ => 0) es s path
  refine ⟨es, s, path, ids, kept.1, taken, (kept.2.1 7#64).1, mt (kept.2.1 9#64).2.1.mp ?_⟩
  rw [ids]
  decide

end SessionOffload
