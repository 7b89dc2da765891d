import SessionOffload.StoreSpec

/-! Runs of the store: the five calls of opof_serverlib.h in any order and from any
number of clients, each executed atomically. -/
namespace SessionOffload
open Transition Paging

inductive Call where
  | add (parameters : SessionRequestT)
  | get (sessionId : Word64) (response : SessionResponseT)
  | del (sessionId : Word64) (response : SessionResponseT)
  | getClosed (pageSize : Word32)
  | getAll (startSession : Word64)

inductive Reply where
  | add (status : SessionStatus)
  | get (status : SessionStatus) (response : SessionResponseT)
  | del (status : SessionStatus) (response : SessionResponseT)
  | getClosed (responses : List SessionResponseT)
  | getAll (responses : List SessionResponseT) (nextkey : Word64)

/-- The page size of a get-all request is the one its handler passes. -/
def serve (s : Server) : Call → Option (Server × Reply)
  | .add q =>
    let (status, t) := opofAddSessionServer q s
    some (t, .add status)
  | .get id response =>
    let (status, response) := opofGetSessionServer id response s
    some (s, .get status response)
  | .del id response =>
    let (status, response, t) := opofDelSessionServer id response s
    some (t, .del status response)
  | .getClosed pageSize =>
    let scan := opofGetClosedSessionsServer pageSize s
    some (scan.server, .getClosed (scan.stores.map Prod.snd))
  | .getAll startSession => do
    let (responses, nextkey, t) ← opofGetAllSessionsServer bufferMax startSession 0 s
    some (t, .getAll responses nextkey)

abbrev Step : Server → Call × Reply → Server → Prop := serves serve

def pageCount (s : Server) (key : Word64) : Nat :=
  served bufferMax (s.enter key).pending.length

inductive Effect (s t : Server) : Call × Reply → Prop where
  | exhausted (q : SessionRequestT) (full : hashtableSize < s.sessions.length)
      (table : t.sessions = s.sessions) (cursor : t.start = s.start) :
      Effect s t (.add q, .add .resourceExhausted)
  | known (q : SessionRequestT) (room : s.sessions.length ≤ hashtableSize)
      (present : q.sessId ∈ s.ids) (table : t.sessions = s.sessions)
      (cursor : t.start = s.start) : Effect s t (.add q, .add .alreadyExists)
  | installed (q : SessionRequestT) (room : s.sessions.length ≤ hashtableSize)
      (absent : q.sessId ∉ s.ids)
      (table : t.sessions = s.sessions ++ [newRecord s.heap q (drawCounters s.rand)])
      (cursor : t.start = s.start) : Effect s t (.add q, .add .ok)
  | found (id : Word64) (response resp : SessionResponseT) (present : id ∈ s.ids)
      (named : resp.sessionId = id) (same : t = s) :
      Effect s t (.get id response, .get .ok resp)
  | missed (id : Word64) (response : SessionResponseT) (absent : id ∉ s.ids) (same : t = s) :
      Effect s t (.get id response, .get .notFound response)
  | deleted (id : Word64) (response resp : SessionResponseT) (present : id ∈ s.ids)
      (named : resp.sessionId = id)
      (table : t.sessions = s.sessions.filter (fun q => q.sessionId != id))
      (cursor : t.start = s.start) : Effect s t (.del id response, .del .ok resp)
  | unknown (id : Word64) (response : SessionResponseT) (absent : id ∉ s.ids) (same : t = s) :
      Effect s t (.del id response, .del .notFound response)
  | closed (pageSize : Word32) (rs : List SessionResponseT)
      (reported : rs.map SessionResponseT.sessionId =
        s.ids.take (closedCount pageSize s.sessions.length))
      (table : t.sessions = s.sessions.drop (closedCount pageSize s.sessions.length))
      (cursor : t.start = s.start) : Effect s t (.getClosed pageSize, .getClosed rs)
  | page (key nextkey : Word64) (rs : List SessionResponseT)
      (valid : CursorValid (s.enter key)) (table : t.sessions = s.sessions)
      (after : CursorValid t)
      (reported : rs.map SessionResponseT.sessionId =
        ((s.enter key).pending.take (pageCount s key)).map RecordT.sessionId)
      (left : t.pending = (s.enter key).pending.drop (pageCount s key))
      (last : nextkey =
        (((s.enter key).pending.take (pageCount s key)).map RecordT.sessionId).getLastD key) :
      Effect s t (.getAll key, .getAll rs nextkey)

theorem step_effect {s t : Server} {l : Call × Reply} (inv : s.Inv) (step : Step s l t) :
    Effect s t l := by
  obtain ⟨call, reply⟩ := l
  change serve s call = some (t, reply) at step
  cases call with
  | add q =>
    rcases add_cases q s with ⟨full, run⟩ | ⟨room, present, run⟩ | ⟨room, absent, run⟩
    · simp only [serve, run] at step
      cases Option.some.inj step
      exact .exhausted q full rfl rfl
    · simp only [serve, run] at step
      cases Option.some.inj step
      exact .known q room present rfl rfl
    · simp only [serve, run] at step
      cases Option.some.inj step
      exact .installed q room absent rfl rfl
  | get id response =>
    by_cases present : id ∈ s.ids
    · obtain ⟨resp, run, named⟩ := get_present present response
      simp only [serve, run] at step
      cases Option.some.inj step
      exact .found id response resp present named rfl
    · simp only [serve, get_absent present] at step
      cases Option.some.inj step
      exact .missed id response present rfl
  | del id response =>
    by_cases present : id ∈ s.ids
    · obtain ⟨resp, r, run, named, _, _, table⟩ := del_present inv.keyed present response
      simp only [serve, run] at step
      cases Option.some.inj step
      exact .deleted id response resp present named table rfl
    · simp only [serve, del_absent present] at step
      cases Option.some.inj step
      exact .unknown id response present rfl
  | getClosed pageSize =>
    obtain ⟨table, _, reported, _, cursor, _⟩ := closed_spec inv pageSize
    simp only [serve] at step
    cases Option.some.inj step
    exact .closed pageSize _ (List.map_map.trans reported) table cursor
  | getAll key =>
    by_cases valid : CursorValid (s.enter key)
    · obtain ⟨rs, key', u, run, table, _, after, reported, left, last⟩ :=
        page_spec inv.blocks bufferMax key valid
      simp only [serve, opofGetAllSessionsServer, run] at step
      cases Option.some.inj step
      exact .page key key' rs valid table after reported left last
    · simp [serve, opofGetAllSessionsServer, page_dangling bufferMax key valid] at step

theorem step_inv {s t : Server} {l : Call × Reply} (inv : s.Inv) (step : Step s l t) :
    t.Inv := by
  obtain ⟨call, reply⟩ := l
  change serve s call = some (t, reply) at step
  cases call with
  | add q =>
    simp only [serve] at step
    cases Option.some.inj step
    exact add_inv q s inv
  | get id response =>
    simp only [serve] at step
    cases Option.some.inj step
    exact inv
  | del id response =>
    simp only [serve] at step
    cases Option.some.inj step
    by_cases present : id ∈ s.ids
    · obtain ⟨_, r, run, _⟩ := del_present inv.keyed present response
      rw [run]
      exact hashDel_inv inv r
    · rw [del_absent present]
      exact inv
  | getClosed pageSize =>
    simp only [serve] at step
    cases Option.some.inj step
    exact closed_inv inv pageSize
  | getAll key =>
    by_cases valid : CursorValid (s.enter key)
    · obtain ⟨rs, key', u, run, table, heap, _⟩ := page_spec inv.blocks bufferMax key valid
      simp only [serve, opofGetAllSessionsServer, run] at step
      cases Option.some.inj step
      exact page_inv inv table heap
    · simp [serve, opofGetAllSessionsServer, page_dangling bufferMax key valid] at step

theorem path_inv {s t : Server} {es : List (Call × Reply)} (inv : s.Inv)
    (path : Path Step s es t) : t.Inv :=
  path.invariant Server.Inv (fun _ _ _ h step => step_inv h step) inv

theorem fill_path (qs : List SessionRequestT) (s : Server) (inv : s.Inv)
    (distinct : (s.ids ++ qs.map SessionRequestT.sessId).Nodup)
    (room : s.sessions.length + qs.length ≤ hashtableSize + 1) :
    ∃ t, Path Step s (qs.map (fun q => (.add q, .add .ok))) t ∧ t.start = s.start ∧
      t.ids = s.ids ++ qs.map SessionRequestT.sessId := by
  induction qs generalizing s with
  | nil => exact ⟨s, .nil s, rfl, by simp⟩
  | cons q qs ih =>
    have fresh : q.sessId ∉ s.ids := by
      intro present
      have apart := (List.nodup_append.mp distinct).2.2 _ present q.sessId
      simp at apart
    rcases add_cases q s with ⟨full, _⟩ | ⟨_, present, _⟩ | ⟨_, _, run⟩
    · simp only [List.length_cons] at room
      omega
    · exact (fresh present).elim
    · have step : Step s (.add q, .add .ok) (s.installed q) := by
        change serve s (.add q) = _
        simp only [serve, run]
      obtain ⟨t, path, cursor, final⟩ := ih _ (step_inv inv step)
        (by rw [installed_ids]; simpa using distinct)
        (by
          simp only [Server.installed, List.length_append, List.length_cons,
            List.length_nil] at room ⊢
          omega)
      refine ⟨t, .cons step path, cursor, ?_⟩
      rw [final, installed_ids]
      simp

end SessionOffload
