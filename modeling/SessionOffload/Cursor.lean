import SessionOffload.TestUtil

/-! The static cursor of getAllSessionsPage along runs. Deleting and reporting closed
sessions free records without looking at the cursor; a run in which they never free the
record it stands on keeps the cursor valid and its enumerations complete. -/
namespace SessionOffload
open Transition Paging

/-- The call does not free the record the cursor stands on: a deleted session is another
one, and a closed page is not empty and ends before the cursor. -/
def SparesCursor (s : Server) (l : Call × Reply) (_ : Server) : Prop :=
  match l.1 with
  | .del id _ => ∀ r ∈ s.sessions, r.sessionId = id → s.start ≠ some r.addr
  | .getClosed pageSize => s.start = none ∨
      (1 ≤ pageSize.toNat ∧
        pageSize.toNat ≤ s.sessions.findIdx (fun r => s.start == some r.addr))
  | _ => True

theorem cursor_split {s : Server} (inv : s.Inv) {a : Nat} (valid : CursorValid s)
    (start : s.start = some a) :
    ∃ before r next, s.sessions = before ++ r :: next ∧ r.addr = a ∧
      s.pending = r :: next := by
  obtain ⟨r, hr, same⟩ := valid a start
  obtain ⟨before, next, split⟩ := List.append_of_mem hr
  refine ⟨before, r, next, split, same, ?_⟩
  exact pending_of_suffix inv.blocks rfl ⟨before, split.symm⟩ (by simp [start, same])

theorem pending_null {s : Server} (start : s.start = none) : s.pending = [] := by
  simp [Server.pending, start]

theorem pending_of_split {s : Server} (inv : s.Inv) {before next : List RecordT} {r : RecordT}
    (split : s.sessions = before ++ r :: next) (start : s.start = some r.addr) :
    s.pending = r :: next :=
  pending_of_suffix inv.blocks rfl ⟨before, split.symm⟩ (by simp [start])

theorem pending_congr {s t : Server} (table : t.sessions = s.sessions)
    (cursor : t.start = s.start) : t.pending = s.pending := by
  simp only [Server.pending, Server.fromAddr, table, cursor]

theorem start_of_pending {s : Server} (inv : s.Inv) {r : RecordT} {next : List RecordT}
    (valid : CursorValid s) (pending : s.pending = r :: next) : s.start = some r.addr := by
  cases start : s.start with
  | none =>
    rw [pending_null start] at pending
    cases pending
  | some a =>
    obtain ⟨_, q, _, _, same, here⟩ := cursor_split inv valid start
    rw [pending] at here
    rw [(List.cons.inj here).1, same]

theorem page_answered {s : Server} (inv : s.Inv) {key : Word64}
    (valid : CursorValid (s.enter key)) :
    ∃ rs nextkey t, Step s (.getAll key, .getAll rs nextkey) t := by
  obtain ⟨rs, nextkey, t, run, _⟩ := page_spec inv.blocks bufferMax key valid
  refine ⟨rs, nextkey, t, ?_⟩
  change serve s _ = _
  simp only [serve, opofGetAllSessionsServer, run]
  rfl

theorem cursor_position {l before next : List RecordT} {r : RecordT}
    (blocks : (l.map RecordT.addr).Nodup) (split : l = before ++ r :: next) :
    l.findIdx (fun q => r.addr == q.addr) = before.length := by
  subst split
  simp only [List.map_append, List.map_cons] at blocks
  have apart := (List.nodup_append.mp blocks).2.2
  have earlier : before.findIdx (fun q => r.addr == q.addr) = before.length := by
    apply List.findIdx_eq_length_of_false
    intro q hq
    have other := apart q.addr (List.mem_map_of_mem hq) r.addr List.mem_cons_self
    simpa using Ne.symm other
  simp [List.findIdx_append, earlier, List.findIdx_cons]

theorem closedCount_le_iff (pageSize : Word32) {i n : Nat} (inside : i < n) (bound : n ≤ 1001) :
    closedCount pageSize n ≤ i ↔ 1 ≤ pageSize.toNat ∧ pageSize.toNat ≤ i := by
  rw [closedCount_small pageSize bound]
  split <;> omega

theorem mem_drop_split {l before next : List RecordT} {r : RecordT}
    (blocks : (l.map RecordT.addr).Nodup) (split : l = before ++ r :: next) (k : Nat) :
    (∃ q ∈ l.drop k, q.addr = r.addr) ↔ k ≤ before.length := by
  subst split
  constructor
  · rintro ⟨q, hq, same⟩
    by_contra beyond
    rw [List.map_append, List.map_cons] at blocks
    have fresh := (List.nodup_cons.mp (List.nodup_append.mp blocks).2.1).1
    have behind : (before ++ r :: next).drop k = next.drop (k - before.length - 1) := by
      rw [List.drop_append, List.drop_eq_nil_of_le (by omega), List.nil_append]
      obtain ⟨j, hj⟩ : ∃ j, k - before.length = j + 1 := ⟨k - before.length - 1, by omega⟩
      rw [hj, List.drop_succ_cons, Nat.add_sub_cancel]
    rw [behind] at hq
    exact fresh (same ▸ List.mem_map_of_mem (List.mem_of_mem_drop hq))
  · intro short
    rw [List.drop_append_of_le_length short]
    exact ⟨r, by simp, rfl⟩

section Moved
variable {s t : Server} (inv : s.Inv) (valid : CursorValid s) (cursor : t.start = s.start)
include inv valid cursor

theorem deleted_cursor {id : Word64}
    (table : t.sessions = s.sessions.filter fun r => r.sessionId != id) :
    CursorValid t ↔ ∀ r ∈ s.sessions, r.sessionId = id → s.start ≠ some r.addr := by
  constructor
  · intro after r hr gone start
    obtain ⟨q, hq, same⟩ := after r.addr (cursor.trans start)
    rw [table] at hq
    obtain ⟨member, other⟩ := List.mem_filter.mp hq
    have equal := List.inj_on_of_nodup_map inv.blocks member hr same
    simp [equal, gone] at other
  · intro spared a start
    obtain ⟨r, hr, same⟩ := valid a (cursor ▸ start)
    refine ⟨r, ?_, same⟩
    rw [table]
    have other : r.sessionId ≠ id :=
      fun gone => spared r hr gone (by rw [← cursor, start, same])
    exact List.mem_filter.mpr ⟨hr, by simpa using other⟩

theorem closed_cursor {pageSize : Word32}
    (table : t.sessions = s.sessions.drop (closedCount pageSize s.sessions.length)) :
    CursorValid t ↔ (s.start = none ∨ (1 ≤ pageSize.toNat ∧
      pageSize.toNat ≤ s.sessions.findIdx (fun r => s.start == some r.addr))) := by
  cases start : s.start with
  | none =>
    refine iff_of_true ?_ (.inl rfl)
    intro a at_start
    rw [cursor, start] at at_start
    cases at_start
  | some a =>
    obtain ⟨before, r, next, split, same, _⟩ := cursor_split inv valid start
    have position := cursor_position inv.blocks split
    rw [same] at position
    have bound : s.sessions.length ≤ 1001 := inv.bounded
    have size : s.sessions.length = before.length + (next.length + 1) := by
      rw [split, List.length_append, List.length_cons]
    simp only [reduceCtorEq, false_or, Option.some_beq_some, position]
    rw [← closedCount_le_iff pageSize (i := before.length) (by omega) bound]
    rw [← mem_drop_split inv.blocks split, ← table]
    constructor
    · intro after
      exact same ▸ after a (cursor.trans start)
    · intro left b at_start
      rw [cursor, start] at at_start
      exact Option.some.inj at_start ▸ same ▸ left

end Moved

theorem step_cursor {s t : Server} {l : Call × Reply} (inv : s.Inv) (valid : CursorValid s)
    (step : Step s l t) : CursorValid t ↔ SparesCursor s l t := by
  have grown (cursor : t.start = s.start) (kept : ∀ r ∈ s.sessions, r ∈ t.sessions) :
      CursorValid t := by
    intro a start
    obtain ⟨r, hr, same⟩ := valid a (cursor ▸ start)
    exact ⟨r, kept r hr, same⟩
  cases step_effect inv step with
  | exhausted q full table cursor => exact iff_of_true (grown cursor (by simp [table])) trivial
  | known q room present table cursor =>
    exact iff_of_true (grown cursor (by simp [table])) trivial
  | installed q room absent table cursor =>
    exact iff_of_true (grown cursor (by simp +contextual [table])) trivial
  | found id response resp present named same =>
    exact iff_of_true (by rw [same]; exact valid) trivial
  | missed id response absent same => exact iff_of_true (by rw [same]; exact valid) trivial
  | unknown id response absent same =>
    refine iff_of_true (by rw [same]; exact valid) ?_
    intro r hr named
    exact (absent (named ▸ List.mem_map_of_mem hr)).elim
  | deleted id response resp present named table cursor =>
    exact deleted_cursor inv valid cursor table
  | closed pageSize rs reported table cursor => exact closed_cursor inv valid cursor table
  | page key nextkey rs was_valid table after => exact iff_of_true after trivial

def Server.waiting (s : Server) : List Word64 := s.pending.map RecordT.sessionId

def returned (es : List (Call × Reply)) : List Word64 :=
  es.flatMap fun l => match l.2 with
    | .getAll responses _ => responses.map SessionResponseT.sessionId
    | _ => []

/-- A run from a request with the sentinel to an empty page, without another sentinel. -/
def Enumeration (es : List (Call × Reply)) : Prop :=
  ∃ responses nextkey rest, es = (.getAll uintMax, .getAll responses nextkey) :: rest ∧
    (∀ l ∈ rest, l.1 ≠ .getAll uintMax) ∧
    ∃ key key', es.getLast? = some (.getAll key, .getAll [] key')

def Stays (x : Word64) (s : Server) (_ : Call × Reply) (t : Server) : Prop :=
  x ∈ s.ids ∧ x ∈ t.ids

theorem returned_cons (l : Call × Reply) (es : List (Call × Reply)) :
    returned (l :: es) = returned [l] ++ returned es := by
  simp [returned]

theorem count_others (l : List RecordT) {x id : Word64} (other : x ≠ id) :
    ((l.filter (fun q => q.sessionId != id)).map RecordT.sessionId).count x =
      (l.map RecordT.sessionId).count x := by
  have moved : (l.map RecordT.sessionId).filter (fun k => k != id) =
      (l.filter (fun q => q.sessionId != id)).map RecordT.sessionId := List.filter_map
  rw [← moved, List.count_filter (by simpa using other)]

theorem waiting_around {s t : Server} {x : Word64} (inv : s.Inv) (after : t.Inv)
    (valid : CursorValid s) (cursor : t.start = s.start)
    (moved : ∀ before r next, s.sessions = before ++ r :: next → s.start = some r.addr →
      ∃ before' next', t.sessions = before' ++ r :: next' ∧
        (next'.map RecordT.sessionId).count x = (next.map RecordT.sessionId).count x) :
    s.waiting.count x = 0 + t.waiting.count x := by
  cases start : s.start with
  | none => simp [Server.waiting, pending_null start, pending_null (cursor.trans start)]
  | some a =>
    obtain ⟨before, r, next, split, rfl, here⟩ := cursor_split inv valid start
    obtain ⟨before', next', table, count⟩ := moved before r next split start
    have there := pending_of_split after table (cursor.trans start)
    simp [Server.waiting, here, there, List.count_cons, count]

theorem step_waiting {s t : Server} {l : Call × Reply} {x : Word64} (inv : s.Inv)
    (valid : CursorValid s) (step : Step s l t) (spares : SparesCursor s l t)
    (stays : Stays x s l t) (running : l.1 ≠ .getAll uintMax) :
    s.waiting.count x = (returned [l]).count x + t.waiting.count x := by
  have after := step_inv inv step
  have unmoved (table : t.sessions = s.sessions) (cursor : t.start = s.start) :
      s.waiting.count x = 0 + t.waiting.count x := by
    rw [Server.waiting, Server.waiting, pending_congr table cursor, Nat.zero_add]
  have around := waiting_around inv after valid (x := x)
  cases step_effect inv step with
  | exhausted q full table cursor => exact unmoved table cursor
  | known q room present table cursor => exact unmoved table cursor
  | found id response resp present named same => exact unmoved (by rw [same]) (by rw [same])
  | missed id response absent same => exact unmoved (by rw [same]) (by rw [same])
  | unknown id response absent same => exact unmoved (by rw [same]) (by rw [same])
  | installed q room absent table cursor =>
    apply around cursor
    intro before r next split start
    rw [split, List.append_assoc, List.cons_append] at table
    have other : q.sessId ≠ x := fun h => absent (h ▸ stays.1)
    exact ⟨_, _, table, by simp [newRecord, other]⟩
  | deleted id response resp present named table cursor =>
    have other : x ≠ id := by
      have kept := stays.2
      rw [ids_filter (p := fun k => k != id) table] at kept
      simpa using (List.mem_filter.mp kept).2
    apply around cursor
    intro before r next split start
    have alive : r.sessionId ≠ id := fun gone => spares r (by simp [split]) gone start
    rw [split, List.filter_append, List.filter_cons_of_pos (by simpa using alive)] at table
    exact ⟨_, _, table, count_others next other⟩
  | closed pageSize rs reported table cursor =>
    apply around cursor
    intro before r next split start
    have valid_after := (step_cursor inv valid step).mpr spares
    obtain ⟨q, hq, block⟩ := valid_after r.addr (cursor.trans start)
    rw [table] at hq
    have short := (mem_drop_split inv.blocks split _).mp ⟨q, hq, block⟩
    refine ⟨before.drop (closedCount pageSize s.sessions.length), next, ?_, rfl⟩
    rw [table, ← List.drop_append_of_le_length short, split]
  | page key nextkey rs was_valid table _ reported left =>
    have stay : s.enter key = s := if_neg (fun same => running (by rw [same]))
    rw [stay] at reported left
    have page : returned [(.getAll key, .getAll rs nextkey)] =
        s.waiting.take (pageCount s key) := by
      simp [returned, reported, Server.waiting, List.map_take]
    rw [page, ← List.count_append]
    simp only [Server.waiting, left, List.map_drop, List.take_append_drop]

theorem path_waiting {s t : Server} {es : List (Call × Reply)} {x : Word64} (inv : s.Inv)
    (valid : CursorValid s)
    (path : Path (restrict Step (fun s l t => SparesCursor s l t ∧ Stays x s l t)) s es t)
    (running : ∀ l ∈ es, l.1 ≠ .getAll uintMax) :
    s.waiting.count x = (returned es).count x + t.waiting.count x := by
  induction path with
  | nil => simp [returned]
  | @cons s u t l es step _ ih =>
    have head := step_waiting inv valid step.1 step.2.1 step.2.2 (running l List.mem_cons_self)
    have rest := ih (step_inv inv step.1) ((step_cursor inv valid step.1).mpr step.2.1)
      (fun m hm => running m (List.mem_cons_of_mem l hm))
    rw [returned_cons, List.count_append, head, rest]
    omega

theorem first_waiting {s t : Server} {rs : List SessionResponseT} {nextkey : Word64} (inv : s.Inv)
    (step : Step s (.getAll uintMax, .getAll rs nextkey) t) :
    CursorValid t ∧
      s.ids = returned [(.getAll uintMax, .getAll rs nextkey)] ++ t.waiting := by
  cases step_effect inv step with
  | page _ _ _ _ table after reported left =>
    have rewound : (s.enter uintMax).pending = s.sessions := by
      rw [Server.enter, if_pos rfl, rewind_pending]
    rw [rewound] at reported left
    refine ⟨after, ?_⟩
    simp [returned, reported, Server.waiting, left, Server.ids]

theorem empty_page {s t : Server} {key nextkey : Word64} (inv : s.Inv)
    (step : Step s (.getAll key, .getAll [] nextkey) t) : t.waiting = [] := by
  cases step_effect inv step with
  | page _ _ _ _ _ _ reported left =>
    have none_taken : ((s.enter key).pending.take (pageCount s key)).length = 0 := by
      rw [← List.length_map (f := RecordT.sessionId), ← reported]
      rfl
    have count : pageCount s key = min 64 (s.enter key).pending.length :=
      served_of_pos (by decide) _
    rw [List.length_take] at none_taken
    have empty : (s.enter key).pending = [] := List.eq_nil_of_length_eq_zero (by omega)
    simp [Server.waiting, left, empty]

theorem enumeration_once {s t : Server} {es : List (Call × Reply)} {x : Word64} (inv : s.Inv)
    (path : Path (restrict Step (fun s l t => SparesCursor s l t ∧ Stays x s l t)) s es t)
    (enumeration : Enumeration es) : (returned es).count x = 1 := by
  obtain ⟨rs, nextkey, rest, rfl, running, key, key', last⟩ := enumeration
  have done : t.waiting = [] := by
    obtain ⟨u, before, final⟩ := path.last last
    exact empty_page (path_inv inv before.unrestrict) final.1
  cases path with
  | cons step tail =>
    obtain ⟨valid, all⟩ := first_waiting inv step.1
    have present : s.ids.count x = 1 := List.count_eq_one_of_mem inv.distinct step.2.2.1
    have later := path_waiting (step_inv inv step.1) valid tail running
    rw [returned_cons, List.count_append]
    rw [all, List.count_append, later, done] at present
    simpa using present

/-- In a run the cursor stays valid after every step exactly when every step spares it;
and in a run of sparing steps each enumeration returns every session that is in the table
during the whole of it exactly once. -/
theorem cursor_kept (rand : Nat → Nat) :
    (∀ es s, Path (restrict Step (fun _ _ t => CursorValid t)) (Server.init rand) es s ↔
      Path (restrict Step SparesCursor) (Server.init rand) es s) ∧
    (∀ es s, Path (restrict Step SparesCursor) (Server.init rand) es s → CursorValid s ∧
      ∀ x fs t, Path (restrict Step (fun s l t => SparesCursor s l t ∧ Stays x s l t)) s fs t →
        Enumeration fs → (returned fs).count x = 1) := by
  have start : (Server.init rand).Inv ∧ CursorValid (Server.init rand) :=
    ⟨Server.init_inv rand, fun a null => nomatch null⟩
  have keeps : ∀ s l t, s.Inv ∧ CursorValid s → restrict Step SparesCursor s l t →
      t.Inv ∧ CursorValid t := fun s l t valid step =>
    ⟨step_inv valid.1 step.1, (step_cursor valid.1 valid.2 step.1).mpr step.2⟩
  refine ⟨fun es s => ?_, fun es s path => ?_⟩
  · exact Path.restrict_iff (fun s => s.Inv ∧ CursorValid s)
      (fun s l t valid step => step_cursor valid.1 valid.2 step)
      (fun s l t valid step spares => keeps s l t valid ⟨step, spares⟩) start
  · obtain ⟨inv, valid⟩ := path.invariant _ keeps start
    exact ⟨valid, fun x fs t during enumeration => enumeration_once inv during enumeration⟩

/-- Between the two pages of 65 sessions one that was listed is deleted and another one added. -/
theorem cursor_kept_pages :
    ∃ es s fs t, Path (restrict Step SparesCursor) (Server.init (fun _ => 0)) es s ∧
      Path (restrict Step (fun s l t => SparesCursor s l t ∧ Stays 164#64 s l t)) s fs t ∧
      Enumeration fs ∧ (returned fs).length = 66 ∧ (returned fs).count 164#64 = 1 := by
  have fill := tableOf_path [] (idsFrom 100#64 65) (by decide) (by decide)
  have before : Path (restrict Step SparesCursor) (Server.init (fun _ => 0)) _
      (tableOf (idsFrom 100#64 65) none) := fill.restricted fun l added s t => by
    obtain ⟨id, _, rfl⟩ := List.mem_map.mp added
    exact trivial
  have during : ∃ page nextkey deleted resp added page' nextkey' nextkey'' t,
      Path (restrict Step (fun s l t => SparesCursor s l t ∧ Stays 164#64 s l t))
        (tableOf (idsFrom 100#64 65) none)
        [(.getAll uintMax, .getAll page nextkey), (.del 105#64 zeroResponse, .del deleted resp),
          (.add (testRequest zeroRequest 7#64), .add added),
          (.getAll 163#64, .getAll page' nextkey'), (.getAll 7#64, .getAll [] nextkey'')] t ∧
      (page ++ page').length = 66 := by
    refine ⟨_, _, _, _, _, _, _, _, _, .cons ⟨rfl, trivial, by decide, by decide⟩
      (.cons ⟨rfl, fun r => ?_, by decide, by decide +kernel⟩
      (.cons ⟨rfl, trivial, by decide +kernel, by decide +kernel⟩
      (.cons ⟨rfl, trivial, by decide +kernel, by decide +kernel⟩
      (.single ⟨rfl, trivial, by decide +kernel, by decide +kernel⟩)))), rfl⟩
    decide +revert +kernel
  obtain ⟨page, nextkey, deleted, resp, added, page', nextkey', nextkey'', t, during, long⟩ :=
    during
  have whole : Enumeration [(.getAll uintMax, .getAll page nextkey),
      (.del 105#64 zeroResponse, .del deleted resp),
      (.add (testRequest zeroRequest 7#64), .add added),
      (.getAll 163#64, .getAll page' nextkey'), (.getAll 7#64, .getAll [] nextkey'')] :=
    ⟨_, _, _, rfl, by simp [uintMax], _, _, rfl⟩
  refine ⟨_, _, _, _, before, during, whole, by simpa [returned] using long, ?_⟩
  exact ((cursor_kept (fun _ => 0)).2 _ _ before).2 _ _ _ during whole

/-- With 65 sessions in the table the first page leaves the cursor on the last one; when
that session is deleted the cursor dangles, and the client's next request follows it. -/
theorem delete_under_cursor :
    ∃ page nextkey resp s, Path Step (Server.init (fun _ => 0))
      (fillEvents 65 0#64 ++ [(.getAll uintMax, .getAll page nextkey),
        (.del 64#64 zeroResponse, .del .ok resp)]) s ∧
      ¬ CursorValid s ∧ serve s (.getAll 63#64) = none := by
  obtain ⟨s, fill, _, ids⟩ := fill_reaches (fun _ => 0) 0#64 (by decide : 65 ≤ hashtableSize + 1)
  have inv := path_inv (Server.init_inv _) fill
  have rewound : s.enter uintMax = s.rewind := if_pos rfl
  obtain ⟨page, nextkey, t, first⟩ := page_answered inv (rewound ▸ rewind_valid s)
  have inv' := step_inv inv first
  have listed : t.ids = idsFrom 0#64 65 ∧ CursorValid t ∧ t.waiting = [64#64] := by
    cases step_effect inv first with
    | page _ _ _ _ table after _ left =>
      rw [rewound, rewind_pending] at left
      have count : pageCount s uintMax = 64 := by
        rw [pageCount, rewound, rewind_pending, ← s.length_ids, ids]
        decide
      rw [count] at left
      refine ⟨by rw [Server.ids, table, ← ids]; rfl, after, ?_⟩
      rw [Server.waiting, left, List.map_drop]
      change s.ids.drop 64 = _
      rw [ids]
      decide
  obtain ⟨ids', valid, waiting⟩ := listed
  have present : 64#64 ∈ t.ids := by
    rw [ids']
    decide
  obtain ⟨resp, r, run, _⟩ := del_present inv'.keyed present zeroResponse
  have second : Step t (.del 64#64 zeroResponse, .del .ok resp) (t.hashDel r) := by
    change serve t _ = _
    simp only [serve, run]
  have dangling : ¬ CursorValid (t.hashDel r) := by
    rw [step_cursor inv' valid second]
    intro spared
    obtain ⟨q, pending, named⟩ := List.map_eq_singleton_iff.mp waiting
    have member : q ∈ t.sessions := (pending_suffix t).subset (by simp [pending])
    exact spared q member named (start_of_pending inv' valid pending)
  refine ⟨page, nextkey, resp, t.hashDel r, fill.append (.cons first (.single second)),
    dangling, ?_⟩
  simp only [serve, opofGetAllSessionsServer]
  rw [page_dangling]
  · rfl
  · exact dangling

end SessionOffload
