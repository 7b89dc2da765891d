import SessionOffload.Duplicates

/-! Client session ids on the offload device. The table is keyed by slots and admission
looks at the seven compared fields, while getSession and deleteSession take the first
entry with a client session id. -/
namespace SessionOffload
open Transition

def SessionTableServicer.clientIds (s : SessionTableServicer) : List Word64 :=
  s.offloadSessionTable.values.map OffloadSession.clientSessionId

theorem act_clientId (session : OffloadSession) (action : SessionAction) :
    (session.act action).clientSessionId = session.clientSessionId := by
  cases action <;> rfl

/-- A message that passes the server's own checks does not bring an id that is stored. -/
def FreshId (s : SessionTableServicer) (l : NosCall × NosReply) (_ : SessionTableServicer) :
    Prop :=
  ∀ timestamp request, l.1 = .add timestamp request → printable request = true →
    ¬ s.Known request → s.Roomy → request.sessionId ∉ s.clientIds

def DistinctIds (_ : SessionTableServicer) (_ : NosCall × NosReply) (t : SessionTableServicer) :
    Prop :=
  t.clientIds.Nodup

theorem fresh_distinct {s t : SessionTableServicer} {l : NosCall × NosReply} (inv : s.Inv)
    (step : NosStep s l t) (fresh : FreshId s l t) (before : s.clientIds.Nodup) :
    t.clientIds.Nodup := by
  apply effect_distinct (nosStep_effect inv step).1 OffloadSession.clientSessionId act_clientId
    ?_ before
  rintro timestamp request rfl shown absent room
  exact fresh timestamp request rfl shown absent room

theorem installed_clientId {s : SessionTableServicer} {slot : Nat} (timestamp : Timestamp)
    (request : SessionRequest) (free : slot ∉ s.offloadSessionTable.keys) :
    (s.installed slot timestamp request).clientIds = s.clientIds ++ [request.sessionId] := by
  rw [SessionTableServicer.clientIds, Dict.values, SessionTableServicer.installed,
    Dict.set_fresh free, List.map_append, List.map_append]
  rfl

theorem installed_clientIds {s t : SessionTableServicer} {l : NosCall × NosReply} (inv : s.Inv)
    (step : NosStep s l t) {timestamp : Timestamp} {request : SessionRequest}
    (call : l.1 = .add timestamp request) (shown : printable request = true)
    (absent : ¬ s.Known request) (room : s.Roomy) :
    t.clientIds = s.clientIds ++ [request.sessionId] := by
  cases nosStep_turn inv step with
  | raised _ hidden =>
    cases call
    rw [shown] at hidden
    cases hidden
  | refused _ refusal =>
    cases call
    cases refusal with
    | known present _ => exact absurd present absent
    | full _ crowded => exact absurd room crowded
    | both present _ => exact absurd present absent
  | installed _ _ _ _ _ free =>
    cases call
    exact installed_clientId timestamp request free
  | _ => cases call

theorem fresh_iff_distinct {s t : SessionTableServicer} {l : NosCall × NosReply} (inv : s.Inv)
    (step : NosStep s l t) (before : s.clientIds.Nodup) :
    DistinctIds s l t ↔ FreshId s l t := by
  constructor
  · intro distinct timestamp request call shown absent room stored
    have ids := installed_clientIds inv step call shown absent room
    rw [DistinctIds, ids] at distinct
    exact List.disjoint_of_nodup_append distinct stored (List.mem_singleton_self _)
  · exact fun fresh => fresh_distinct inv step fresh before

theorem clientId_unique {s : SessionTableServicer} (distinct : s.clientIds.Nodup) {k j : Nat}
    {e f : OffloadSession} (left : (k, e) ∈ s.offloadSessionTable.entries)
    (right : (j, f) ∈ s.offloadSessionTable.entries)
    (same : e.clientSessionId = f.clientSessionId) : (k, e) = (j, f) := by
  rw [SessionTableServicer.clientIds, Dict.values, List.map_map] at distinct
  exact List.inj_on_of_nodup_map distinct left right same

theorem findSessionByClientId_unique {s : SessionTableServicer} (distinct : s.clientIds.Nodup)
    {slot : Nat} {e : OffloadSession} (here : (slot, e) ∈ s.offloadSessionTable.entries) :
    s.findSessionByClientId e.clientSessionId = some (slot, e) := by
  cases hit : s.findSessionByClientId e.clientSessionId with
  | none =>
    have other := List.find?_eq_none.mp hit (slot, e) here
    exact absurd (decide_eq_true rfl) other
  | some found =>
    have same : found.2.clientSessionId = e.clientSessionId := by
      simpa using List.find?_some hit
    rw [← clientId_unique distinct (List.mem_of_find?_eq_some hit) here same]

/-- The answers for a stored id, where ids identify: they concern the one entry. -/
structure Concerns (s : SessionTableServicer) (slot : Nat) (e : OffloadSession) : Prop where
  get : ∀ r, e.response e.clientSessionId = some r →
    s.getSession e.clientSessionId = (.OK, r) ∧ Reports e r
  del : ∀ timestamp, (s.deleteSession timestamp e.clientSessionId).2.offloadSessionTable =
    s.offloadSessionTable.erase slot
  closed : ∀ k r, (s.closedTurn k).1 = .yielded r → r.sessionId = e.clientSessionId →
    k = slot ∧ Reports e r

theorem distinct_concerns {s : SessionTableServicer} (inv : s.Inv)
    (distinct : s.clientIds.Nodup) {slot : Nat} {e : OffloadSession}
    (here : (slot, e) ∈ s.offloadSessionTable.entries) : Concerns s slot e := by
  have found := findSessionByClientId_unique distinct here
  refine ⟨fun r built => ?_, fun timestamp => ?_, fun k r yielded named => ?_⟩
  · exact ⟨by simp only [SessionTableServicer.getSession, found, built], (response_spec built).2⟩
  · rw [deleteSession_erases inv found]
  · obtain ⟨f, there, built, _⟩ := closedTurn_yielded (Prod.ext yielded rfl)
    have reports := (response_spec built).2
    have same : f.clientSessionId = e.clientSessionId := reports.sessionId.symm.trans named
    cases clientId_unique distinct there here same
    exact ⟨rfl, reports⟩

/-- A run keeps the client session ids of the table distinct if and only if no message
that passes the server's checks brings a stored id; and then get, delete and a closed
report for an id concern the one session stored under it. -/
theorem client_ids_identify (maxSessionId : Nat) (positive : 0 < maxSessionId)
    (ls : List (NosCall × NosReply)) (s : SessionTableServicer) :
    (Path (restrict NosStep DistinctIds) (.init maxSessionId positive) ls s ↔
      Path (restrict NosStep FreshId) (.init maxSessionId positive) ls s) ∧
    (Path (restrict NosStep FreshId) (.init maxSessionId positive) ls s →
      s.clientIds.Nodup ∧
        ∀ slot e, (slot, e) ∈ s.offloadSessionTable.entries → Concerns s slot e) := by
  constructor
  · exact Path.restrict_iff (fun s => s.Inv ∧ s.clientIds.Nodup)
      (fun _ _ _ held step => fresh_iff_distinct held.1 step held.2)
      (fun _ _ _ held step fresh => ⟨nosStep_inv held.1 step,
        fresh_distinct held.1 step fresh held.2⟩)
      ⟨SessionTableServicer.init_inv maxSessionId positive, List.nodup_nil⟩
  · intro path
    obtain ⟨inv, distinct⟩ := nosPath_distinct OffloadSession.clientSessionId
      (fun _ _ _ inv step fresh before => fresh_distinct inv step fresh before) path
    exact ⟨distinct, fun slot e here => distinct_concerns inv distinct here⟩

/-- Two sessions are added and counted for, one is deleted, and its id comes again with another
session. -/
theorem client_ids_identify_again : ∃ ls s e, Path (restrict NosStep FreshId) .simulator ls s ∧
    s.clientIds = [1001#64, 1000#64] ∧ (2, e) ∈ s.offloadSessionTable.entries ∧ e.inPackets = 5 ∧
    Concerns s 2 e := by
  have run : ∃ resp s e, Path (restrict NosStep FreshId) .simulator
      [(.add dawn (ipv6Request 1000#64 1#8 2#8), .add (some [])),
        (.add dawn { numbered 80 with sessionId := 1001#64 }, .add (some [])),
        (.traffic fun _ => .updateCounters 5 1 40 8, .traffic),
        (.del dawn 1000#64, .del resp),
        (.add dawn { numbered 443 with sessionId := 1000#64 }, .add (some []))] s ∧
      s.clientIds = [1001#64, 1000#64] ∧ (2, e) ∈ s.offloadSessionTable.entries ∧
      e.inPackets = 5 := by
    refine ⟨_, _, _, .cons ⟨rfl, fun _ _ same _ _ _ => ?_⟩ (.cons ⟨rfl, fun _ _ same _ _ _ => ?_⟩
      (.cons ⟨rfl, fun _ _ same _ _ _ => ?_⟩ (.cons ⟨rfl, fun _ _ same _ _ _ => ?_⟩
      (.single ⟨rfl, fun _ _ same _ _ _ => ?_⟩)))), rfl, List.mem_cons_self, rfl⟩
    all_goals cases same
    all_goals decide
  obtain ⟨resp, s, e, path, ids, here, counted⟩ := run
  obtain ⟨_, concerns⟩ := (client_ids_identify 20 (by decide) _ s).2 path
  exact ⟨_, s, e, path, ids, here, counted, concerns 2 e here⟩

/-- A second add of an id, as after a restart of the firewall, with another address: both
sessions are stored, and after a delete of the id the other one is still answered. -/
theorem client_id_twice : ∃ ls s, Path NosStep .simulator ls s ∧
    s.clientIds = [1000#64, 1000#64] ∧
    ((s.deleteSession dawn 1000#64).2.getSession 1000#64).1 = .OK := by
  refine ⟨[(.add dawn { SessionRequest.empty with sessionId := 1000#64, sourceIp := 1#32 },
      .add (some [])),
    (.add dawn { SessionRequest.empty with sessionId := 1000#64, sourceIp := 2#32 },
      .add (some []))], _, .cons rfl (.single rfl), rfl, rfl⟩

end SessionOffload
