import Mathlib.Data.Finset.Card
import Mathlib.Data.Finset.Dedup
import SessionOffload.StoreDesk
import SessionOffload.StoreRun

/-! One client's view of the C client API as a map from 64-bit ids. The get and delete
methods take the id as an int, so it reaches the server sign-extended from 32 bits. -/
namespace SessionOffload
open Transition SessionTableClient Intake

theorem narrow_fixed_iff (id : Word64) :
    narrow id = id ↔ -2147483648 ≤ id.toInt ∧ id.toInt < 2147483648 := by
  have low : (narrow id).toInt = Int.bmod id.toNat (2 ^ 32) := by
    rw [narrow, BitVec.toInt_signExtend_of_le (by decide), BitVec.toInt_setWidth]
  have signed := BitVec.toInt_eq_toNat_cond id
  have width := id.isLt
  rw [← BitVec.toInt_inj, low, Int.bmod_def]
  split at signed <;> split <;> omega

/-- The server together with the ids the client has added and not deleted since. -/
structure World where
  server : Server
  live : Finset Word64

inductive ClientCall where
  | add (batch : List SessionRequestT) (resp : AddSessionResponseT) (stack : SessionRequestT)
  | get (session : Word64) (stack : SessionResponseT)
  | del (sessionId : Word64) (stack : SessionResponseT)

inductive ClientReply where
  | add (status : Int) (resp : AddSessionResponseT)
  | get (status : Int) (resp : SessionResponseT)
  | del (status : Int) (resp : SessionResponseT)

def batchIds (batch : List SessionRequestT) : Finset Word64 :=
  (batch.map SessionRequestT.sessId).toFinset

/-- Batches are of at most 64 requests and do not take the table over its capacity. -/
def clientServe (w : World) : ClientCall → Option (World × ClientReply)
  | .add batch resp stack =>
    if batch.length ≤ bufferMax ∧ (w.live ∪ batchIds batch).card ≤ hashtableSize then do
      let (status, resp, t) ← opofAddSession batch resp stack w.server
      some (⟨t, w.live ∪ batchIds batch⟩, .add status resp)
    else none
  | .get session stack =>
    let (status, resp) := opofGetSession session stack w.server
    some (w, .get status resp)
  | .del sessionId stack =>
    let (status, resp, t) := opofDelSession sessionId stack w.server
    some (⟨t, w.live.erase sessionId⟩, .del status resp)

abbrev ClientStep : World → ClientCall × ClientReply → World → Prop := serves clientServe

def MapContract (w : World) (l : ClientCall × ClientReply) (u : World) : Prop :=
  match l with
  | (.get id _, .get status resp) =>
    (status = SessionStatus.ok.code ∧ resp.sessionId = id ↔ id ∈ w.live) ∧
      (id ∉ w.live → status = SessionStatus.notFound.code)
  | (.del id _, _) => u.server.sessions = w.server.sessions.filter (fun r => r.sessionId != id)
  | _ => True

/-- The id survives the conversion to int, or neither it nor what it is converted to is
in the table. -/
def Unaliased (w : World) (l : ClientCall × ClientReply) (_ : World) : Prop :=
  match l.1 with
  | .get id _ | .del id _ =>
    (-2147483648 ≤ id.toInt ∧ id.toInt < 2147483648) ∨
      (id ∉ w.server.ids ∧ narrow id ∉ w.server.ids)
  | _ => True

structure World.Inv (w : World) : Prop where
  server : w.server.Inv
  live : w.live = w.server.ids.toFinset

theorem opofGetSession_present {id : Word64} {s : Server} (present : narrow id ∈ s.ids)
    (stack : SessionResponseT) : ∃ resp,
      opofGetSession id stack s = (SessionStatus.ok.code, resp) ∧ resp.sessionId = narrow id := by
  obtain ⟨resp, run, named⟩ := get_present present stack
  refine ⟨resp, ?_, named⟩
  simp only [opofGetSession, getSessionClient, SessionTableImpl.getSession, run]
  rfl

theorem opofGetSession_absent {id : Word64} {s : Server} (absent : narrow id ∉ s.ids)
    (stack : SessionResponseT) : ∃ resp,
      opofGetSession id stack s = (SessionStatus.notFound.code, resp) := by
  simp only [opofGetSession, getSessionClient, SessionTableImpl.getSession,
    get_absent absent stack]
  exact ⟨_, rfl⟩

theorem filter_absent {l : List RecordT} {id : Word64} (absent : id ∉ l.map RecordT.sessionId) :
    l.filter (fun r => r.sessionId != id) = l := by
  apply List.filter_eq_self.mpr
  intro r hr
  have other : r.sessionId ≠ id := fun same => absent (same ▸ List.mem_map_of_mem hr)
  simpa using other

theorem opofDelSession_present {s : Server} (keyed : s.Keyed) {id : Word64}
    (present : narrow id ∈ s.ids) (stack : SessionResponseT) : ∃ resp r,
      opofDelSession id stack s = (SessionStatus.ok.code, resp, s.hashDel r) ∧
      (s.hashDel r).sessions = s.sessions.filter (fun r => r.sessionId != narrow id) := by
  obtain ⟨resp, r, run, _, _, _, table⟩ := del_present keyed present stack
  simp only [opofDelSession, deleteSessionClient, SessionTableImpl.deleteSession, run]
  exact ⟨_, r, rfl, table⟩

theorem opofDelSession_absent {s : Server} {id : Word64} (absent : narrow id ∉ s.ids)
    (stack : SessionResponseT) : ∃ resp,
      opofDelSession id stack s = (SessionStatus.notFound.code, resp, s) := by
  simp only [opofDelSession, deleteSessionClient, SessionTableImpl.deleteSession,
    del_absent absent stack]
  exact ⟨_, rfl⟩

theorem opofDelSession_spec {s : Server} (inv : s.Inv) (id : Word64) (stack : SessionResponseT) :
    let t := (opofDelSession id stack s).2.2
    t.Inv ∧ t.sessions = s.sessions.filter (fun r => r.sessionId != narrow id) := by
  by_cases present : narrow id ∈ s.ids
  · obtain ⟨resp, r, run, table⟩ := opofDelSession_present inv.keyed present stack
    rw [run]
    exact ⟨hashDel_inv inv r, table⟩
  · obtain ⟨resp, run⟩ := opofDelSession_absent present stack
    rw [run]
    exact ⟨inv, (filter_absent present).symm⟩

theorem filter_other {l : List RecordT} {a b : Word64} (differ : a ≠ b) :
    l.filter (fun r => r.sessionId != a) = l.filter (fun r => r.sessionId != b) ↔
      a ∉ l.map RecordT.sessionId ∧ b ∉ l.map RecordT.sessionId := by
  have lost {x y : Word64} (apart : x ≠ y)
      (same : l.filter (fun r => r.sessionId != x) = l.filter (fun r => r.sessionId != y)) :
      x ∉ l.map RecordT.sessionId := by
    intro present
    obtain ⟨r, hr, named⟩ := List.mem_map.mp present
    have left : r ∈ l.filter (fun r => r.sessionId != y) :=
      List.mem_filter.mpr ⟨hr, by simpa [named] using apart⟩
    rw [← same] at left
    simpa [named] using (List.mem_filter.mp left).2
  constructor
  · exact fun same => ⟨lost differ same, lost differ.symm same.symm⟩
  · rintro ⟨first, second⟩
    rw [filter_absent first, filter_absent second]

theorem offerAll_live (ids table : List Word64) (distinct : table.Nodup)
    (below : (table.toFinset ∪ ids.toFinset).card ≤ hashtableSize) :
    (storeDesk.offerAll ids table).Nodup ∧
      (storeDesk.offerAll ids table).toFinset = table.toFinset ∪ ids.toFinset := by
  induction ids generalizing table with
  | nil => simp [Desk.offerAll, distinct]
  | cons id ids ih =>
    have room : table.length ≤ hashtableSize := by
      rw [← List.toFinset_card_of_nodup distinct]
      exact Nat.le_trans (Finset.card_le_card Finset.subset_union_left) below
    have offered : (storeDesk.offer id table).Nodup ∧
        (storeDesk.offer id table).toFinset = insert id table.toFinset := by
      by_cases present : id ∈ table
      · simp [storeDesk, Desk.offer, present, distinct]
      · simp only [storeDesk, Desk.offer, present, room, not_false_eq_true, and_self, decide_true,
          if_true]
        refine ⟨Registry.nodup_snoc distinct present, ?_⟩
        ext x
        simp
    have same : insert id table.toFinset ∪ ids.toFinset =
        table.toFinset ∪ (id :: ids).toFinset := by
      ext x
      simp only [Finset.mem_union, Finset.mem_insert, List.mem_toFinset, List.mem_cons]
      tauto
    obtain ⟨nodup, final⟩ := ih (storeDesk.offer id table) offered.1
      (by rw [offered.2, same]; exact below)
    exact ⟨nodup, by rw [Desk.offerAll, final, offered.2, same]⟩

theorem clientStep_cases {w u : World} {l : ClientCall × ClientReply} (inv : w.Inv)
    (step : ClientStep w l u) :
    (∃ batch resp stack resp', l = (.add batch resp stack, .add 0 resp') ∧ u.Inv) ∨
    (∃ id stack, l = (.get id stack, .get (opofGetSession id stack w.server).1
      (opofGetSession id stack w.server).2) ∧ u = w) ∨
    (∃ id stack, l = (.del id stack, .del (opofDelSession id stack w.server).1
      (opofDelSession id stack w.server).2.1) ∧
      u = ⟨(opofDelSession id stack w.server).2.2, w.live.erase id⟩) := by
  obtain ⟨call, reply⟩ := l
  change clientServe w call = some (u, reply) at step
  cases call with
  | add batch resp stack =>
    simp only [clientServe] at step
    split at step
    · rename_i within
      obtain ⟨few, below⟩ := within
      obtain ⟨t, served, keeps, table, _⟩ := addSession_offers batch stack w.server
      obtain ⟨resp', run, _⟩ := opofAddSession_of_served served
        (Nat.le_trans (rejections_length batch _) few) resp
      rw [run] at step
      cases Option.some.inj step
      rw [inv.live, batchIds] at below
      obtain ⟨_, final⟩ := offerAll_live _ _ inv.server.distinct below
      refine .inl ⟨batch, resp, stack, resp', rfl, keeps inv.server, ?_⟩
      rw [table, final, inv.live, batchIds]
    · cases step
  | get id stack =>
    cases Option.some.inj step
    exact .inr (.inl ⟨id, stack, rfl, rfl⟩)
  | del id stack =>
    cases Option.some.inj step
    exact .inr (.inr ⟨id, stack, rfl, rfl⟩)

theorem clientStep_contract {w u : World} {l : ClientCall × ClientReply} (inv : w.Inv)
    (step : ClientStep w l u) : MapContract w l u ↔ Unaliased w l u := by
  have live (id : Word64) : id ∈ w.live ↔ id ∈ w.server.ids := by rw [inv.live, List.mem_toFinset]
  rcases clientStep_cases inv step with ⟨batch, resp, stack, resp', rfl, _⟩ |
    ⟨id, stack, rfl, rfl⟩ | ⟨id, stack, rfl, rfl⟩
  · exact iff_of_true trivial trivial
  · simp only [MapContract, Unaliased, live, ← narrow_fixed_iff]
    by_cases present : narrow id ∈ u.server.ids
    · obtain ⟨resp, run, named⟩ := opofGetSession_present present stack
      rw [run]
      by_cases same : narrow id = id
      · rw [same] at named present
        simp [same, named, present]
      · simp [named, same, present, SessionStatus.code]
    · obtain ⟨resp, run⟩ := opofGetSession_absent present stack
      rw [run]
      by_cases same : narrow id = id
      · rw [same] at present
        simp [same, present, SessionStatus.code]
      · simp [same, present, SessionStatus.code]
  · simp only [MapContract, Unaliased, ← narrow_fixed_iff]
    rw [(opofDelSession_spec inv.server id stack).2]
    by_cases same : narrow id = id
    · simp [same]
    · rw [filter_other same]
      simp [same, Server.ids, and_comm]

theorem clientStep_inv {w u : World} {l : ClientCall × ClientReply} (inv : w.Inv)
    (step : ClientStep w l u) (kept : MapContract w l u) : u.Inv := by
  rcases clientStep_cases inv step with ⟨batch, resp, stack, resp', rfl, after⟩ |
    ⟨id, stack, rfl, rfl⟩ | ⟨id, stack, rfl, rfl⟩
  · exact after
  · exact inv
  · refine ⟨(opofDelSession_spec inv.server id stack).1, ?_⟩
    rw [ids_filter (p := fun k => k != id) kept, inv.live]
    ext x
    simp [and_comm]

/-- Every call of a run is answered as by a map of 64-bit ids exactly when no get or
delete of the run is of an aliased id. -/
theorem keyed_map (rand : Nat → Nat) (es : List (ClientCall × ClientReply)) (w : World) :
    Path (restrict ClientStep MapContract) ⟨Server.init rand, ∅⟩ es w ↔
      Path (restrict ClientStep Unaliased) ⟨Server.init rand, ∅⟩ es w := by
  apply Path.restrict_iff World.Inv (fun w l u inv step => clientStep_contract inv step)
  · intro w l u inv step unaliased
    exact clientStep_inv inv step ((clientStep_contract inv step).mpr unaliased)
  · exact ⟨Server.init_inv rand, rfl⟩

/-- Session 7 answers for an id that was never added. -/
theorem get_aliased :
    ∃ w resp, Path ClientStep ⟨Server.init (fun _ => 0), ∅⟩
      [(.add [testRequest zeroRequest 7#64] zeroAddResponse zeroRequest, .add 0 zeroAddResponse),
        (.get 4294967303#64 zeroResponse, .get SessionStatus.ok.code resp)] w ∧
      resp.sessionId = 7#64 ∧ 4294967303#64 ∉ w.live := by
  have added : ClientStep ⟨Server.init (fun _ => 0), ∅⟩
      (.add [testRequest zeroRequest 7#64] zeroAddResponse zeroRequest, .add 0 zeroAddResponse)
      ⟨singleTable 7#64, {7#64}⟩ := rfl
  have found : ClientStep ⟨singleTable 7#64, {7#64}⟩
      (.get 4294967303#64 zeroResponse, .get SessionStatus.ok.code
        (opofGetSession 4294967303#64 zeroResponse (singleTable 7#64)).2)
      ⟨singleTable 7#64, {7#64}⟩ := rfl
  exact ⟨_, _, .cons added (.single found), rfl, by decide⟩

end SessionOffload
