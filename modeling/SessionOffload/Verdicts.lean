import SessionOffload.AddThenDrain

/-! The statuses of a sequence of add requests, read off their ids and the ids in the table:
however the sequence is cut into batches, the errors reported and the table are the same. -/
namespace SessionOffload
open SessionTableClient Intake

def verdict (table : List Word64) (id : Word64) : SessionStatus :=
  if hashtableSize < table.length then .resourceExhausted
  else if table.contains id then .alreadyExists
  else .ok

def verdicts : List Word64 → List Word64 → List SessionStatus
  | [], _ => []
  | id :: ids, table => verdict table id :: verdicts ids (storeDesk.offer id table)

def refusedEntries (ids table : List Word64) : List AddSessionErrors :=
  (ids.zip (verdicts ids table)).filterMap fun (id, status) =>
    if status = .ok then none else some ⟨id, status.code⟩

def AddSessionResponseT.listed (resp : AddSessionResponseT) : List AddSessionErrors :=
  resp.sessionErrors.toList.take resp.numberErrors

theorem verdict_full {table : List Word64} (full : hashtableSize < table.length) (id : Word64) :
    verdict table id = .resourceExhausted :=
  if_pos full

theorem verdict_known {table : List Word64} {id : Word64} (room : ¬ hashtableSize < table.length)
    (present : id ∈ table) : verdict table id = .alreadyExists := by
  rw [verdict, if_neg room, if_pos (List.contains_iff_mem.mpr present)]

theorem verdict_fresh {table : List Word64} {id : Word64} (room : ¬ hashtableSize < table.length)
    (absent : id ∉ table) : verdict table id = .ok := by
  rw [verdict, if_neg room, if_neg (fun found => absent (List.contains_iff_mem.mp found))]

theorem add_verdict (q : SessionRequestT) (s : Server) :
    (opofAddSessionServer q s).1 = verdict s.ids q.sessId := by
  rcases add_cases q s with ⟨full, run⟩ | ⟨room, present, run⟩ | ⟨room, absent, run⟩
  · rw [run, verdict_full (by rwa [s.length_ids])]
  · rw [run, verdict_known (by rw [s.length_ids]; omega) present]
  · rw [run, verdict_fresh (by rw [s.length_ids]; omega) absent]

theorem addStatuses_verdicts (batch : List SessionRequestT) (i : Nat) (request : SessionRequest)
    (requestC : SessionRequestT) (s : Server) :
    addStatuses (fun _ => false) i (writeRequests batch request) requestC s =
      verdicts (batch.map SessionRequestT.sessId) s.ids := by
  induction batch generalizing i request requestC s with
  | nil => rfl
  | cons q batch ih =>
    obtain ⟨p, decoded, same⟩ := request_roundtrip q request requestC
    have here := add_verdict p s
    have next := (add_offers p s).2
    rw [same.sessId] at here next
    simp only [writeRequests, addStatuses, decoded, Bool.false_eq_true, if_false, List.map_cons,
      verdicts, ih, here, next]

@[simp] theorem verdicts_length (ids table : List Word64) :
    (verdicts ids table).length = ids.length := by
  induction ids generalizing table with
  | nil => rfl
  | cons id ids ih => simp [verdicts, ih]

theorem verdicts_append (ids more table : List Word64) :
    verdicts (ids ++ more) table =
      verdicts ids table ++ verdicts more (storeDesk.offerAll ids table) := by
  induction ids generalizing table with
  | nil => rfl
  | cons id ids ih => simp [verdicts, Desk.offerAll, ih]

theorem refusedEntries_append (ids more table : List Word64) :
    refusedEntries (ids ++ more) table =
      refusedEntries ids table ++ refusedEntries more (storeDesk.offerAll ids table) := by
  simp [refusedEntries, verdicts_append, List.zip_append]

theorem refusedEntries_cons (id : Word64) (ids table : List Word64) :
    refusedEntries (id :: ids) table =
      (if verdict table id = .ok then [] else [⟨id, (verdict table id).code⟩]) ++
        refusedEntries ids (storeDesk.offer id table) := by
  by_cases accepted : verdict table id = .ok <;> simp [refusedEntries, verdicts, accepted]

theorem rejections_refused (batch : List SessionRequestT) (table : List Word64) :
    (rejections batch (verdicts (batch.map SessionRequestT.sessId) table)).map errorEntry =
      refusedEntries (batch.map SessionRequestT.sessId) table := by
  induction batch generalizing table with
  | nil => rfl
  | cons q batch ih =>
    rw [List.map_cons, refusedEntries_cons, verdicts, rejections_cons, List.map_append, ih]
    congr 1
    by_cases accepted : verdict table q.sessId = .ok <;>
      simp [rejections, accepted, errorEntry]

theorem add_call {batch : List SessionRequestT} (few : batch.length ≤ bufferMax)
    (resp : AddSessionResponseT) (stack : SessionRequestT) (s : Server) :
    let ids := batch.map SessionRequestT.sessId
    ∃ resp' t, opofAddSession batch resp stack s = some (SessionStatus.ok.code, resp', t) ∧
      (s.Inv → t.Inv) ∧ t.ids = storeDesk.offerAll ids s.ids ∧
      (∃ more, t.sessions = s.sessions ++ more) ∧ resp'.listed = refusedEntries ids s.ids := by
  intro ids
  obtain ⟨t, served, keeps, offered, _⟩ := addSession_offers batch stack s
  obtain ⟨u, records, served', _, grown, _⟩ := addSession_served batch stack s
  have same : t = u := by
    have equal := served.symm.trans served'
    exact congrArg (fun r => r.2.2) (Option.some.inj equal)
  subst same
  obtain ⟨resp', run, _, entries⟩ := opofAddSession_of_served served
    (Nat.le_trans (rejections_length batch _) few) resp
  refine ⟨resp', t, run, keeps, offered, ⟨records, grown⟩, entries.trans ?_⟩
  rw [addStatuses_verdicts]
  exact rejections_refused batch s.ids

theorem fresh_offered {ids table : List Word64} (fresh : (table ++ ids).Nodup) :
    let room := hashtableSize + 1 - table.length
    storeDesk.offerAll ids table = table ++ ids.take room ∧
      refusedEntries ids table =
        (ids.drop room).map (⟨·, SessionStatus.resourceExhausted.code⟩) := by
  induction ids generalizing table with
  | nil => simp [Desk.offerAll, refusedEntries]
  | cons id ids ih =>
    have absent : id ∉ table := by
      intro present
      exact (List.nodup_append.mp fresh).2.2 id present id List.mem_cons_self rfl
    rw [Desk.offerAll, refusedEntries_cons]
    by_cases full : hashtableSize < table.length
    · have none : hashtableSize + 1 - table.length = 0 := by omega
      have stays : storeDesk.offer id table = table := by
        have closed : ¬ table.length ≤ hashtableSize := by omega
        simp [Desk.offer, storeDesk, closed]
      have refused := verdict_full full id
      have rest : (table ++ ids).Nodup :=
        fresh.sublist ((List.sublist_cons_self id ids).append_left table)
      obtain ⟨same, listed⟩ := ih rest
      rw [none] at same listed ⊢
      rw [stays, same, listed, refused]
      simp
    · have room : hashtableSize + 1 - table.length = hashtableSize - table.length + 1 := by omega
      have grows : storeDesk.offer id table = table ++ [id] := by
        have free : table.length ≤ hashtableSize := by omega
        simp [Desk.offer, storeDesk, free, absent]
      have accepted := verdict_fresh full absent
      have rest : (table ++ [id] ++ ids).Nodup := by
        rw [List.append_assoc]
        exact fresh
      obtain ⟨same, listed⟩ := ih rest
      have left : hashtableSize + 1 - (table ++ [id]).length = hashtableSize - table.length := by
        rw [List.length_append, List.length_singleton]
        omega
      rw [left] at same listed
      rw [grows, same, listed, room, accepted]
      simp

theorem settled_offered {ids table : List Word64}
    (settled : hashtableSize < table.length ∨ ∀ id ∈ ids, id ∈ table) :
    storeDesk.offerAll ids table = table ∧
      refusedEntries ids table = ids.map (⟨·, (if hashtableSize < table.length then
        SessionStatus.resourceExhausted else .alreadyExists).code⟩) := by
  induction ids with
  | nil => simp [Desk.offerAll, refusedEntries]
  | cons id ids ih =>
    obtain ⟨same, listed⟩ := ih (settled.imp_right fun known =>
      (List.forall_mem_cons.mp known).2)
    have refused : verdict table id = if hashtableSize < table.length then
        SessionStatus.resourceExhausted else .alreadyExists := by
      by_cases full : hashtableSize < table.length
      · rw [verdict_full full, if_pos full]
      · have present := (settled.resolve_left full) id List.mem_cons_self
        rw [verdict_known full present, if_neg full]
    have other : verdict table id ≠ .ok := by
      rw [refused]
      split <;> simp
    have stays : storeDesk.offer id table = table := by
      unfold Desk.offer
      split
      · rename_i admitted
        have inside := of_decide_eq_true admitted
        exact absurd (settled.resolve_left (by omega) id List.mem_cons_self) inside.2
      · rfl
    rw [Desk.offerAll, refusedEntries_cons, stays, same, listed, if_neg other, refused]
    exact ⟨rfl, rfl⟩

end SessionOffload
