import Mathlib.Data.List.TakeWhile
import SessionOffload.ServerTest
import SessionOffload.Lib.Paging
import SessionOffload.Lib.Registry

/-! What each function of the store does to the table, in terms of the session ids in
iteration order. Later modules use these statements and do not unfold the functions. -/
namespace SessionOffload
open Paging

structure Server.Inv (s : Server) : Prop where
  distinct : s.ids.Nodup
  blocks : (s.sessions.map RecordT.addr).Nodup
  allocated : ∀ r ∈ s.sessions, r.addr < s.heap
  closed : ∀ r ∈ s.sessions, r.sessionState = .closed
  bounded : s.sessions.length ≤ hashtableSize + 1

/-- What HASH_ADD and malloc alone see to: no id and no block is in the table twice. -/
structure Server.Keyed (s : Server) : Prop where
  distinct : s.ids.Nodup
  blocks : (s.sessions.map RecordT.addr).Nodup

theorem Server.Inv.keyed {s : Server} (inv : s.Inv) : s.Keyed := ⟨inv.distinct, inv.blocks⟩

theorem Server.Keyed.sublist {s t : Server} (keyed : s.Keyed)
    (sub : t.sessions.Sublist s.sessions) : t.Keyed where
  distinct := keyed.distinct.sublist (sub.map _)
  blocks := keyed.blocks.sublist (sub.map _)

theorem Server.init_inv (rand : Nat → Nat) : (Server.init rand).Inv where
  distinct := List.nodup_nil
  blocks := List.nodup_nil
  allocated := by intro r hr; cases hr
  closed := by intro r hr; cases hr
  bounded := Nat.zero_le _

theorem Server.length_ids (s : Server) : s.ids.length = s.sessions.length :=
  List.length_map _

theorem hashFind_none {s : Server} {id : Word64} (absent : id ∉ s.ids) :
    s.hashFind id = none := by
  simp only [Server.hashFind, List.find?_eq_none, beq_iff_eq]
  intro r hr same
  exact absent (same ▸ List.mem_map_of_mem hr)

theorem hashFind_some {s : Server} {id : Word64} (present : id ∈ s.ids) :
    ∃ r, s.hashFind id = some r ∧ r ∈ s.sessions ∧ r.sessionId = id := by
  cases found : s.hashFind id with
  | none =>
    obtain ⟨q, hq, same⟩ := List.mem_map.mp present
    have none_matches := List.find?_eq_none.mp found q hq
    simp [same] at none_matches
  | some r =>
    have hit := List.find?_some found
    exact ⟨r, rfl, List.mem_of_find?_eq_some found, by simpa using hit⟩

def Server.leaked (s : Server) : Server := { s with heap := s.heap + 1 }

def Server.installed (s : Server) (q : SessionRequestT) : Server :=
  { s with
    sessions := s.sessions ++ [newRecord s.heap q (drawCounters s.rand)]
    heap := s.heap + 1
    rand := skipCounters s.rand }

@[simp] theorem leaked_ids (s : Server) : s.leaked.ids = s.ids := rfl

@[simp] theorem installed_ids (s : Server) (q : SessionRequestT) :
    (s.installed q).ids = s.ids ++ [q.sessId] := by
  simp [Server.ids, Server.installed, newRecord]

theorem add_cases (q : SessionRequestT) (s : Server) :
    (hashtableSize < s.sessions.length ∧
      opofAddSessionServer q s = (.resourceExhausted, s.leaked)) ∨
    (s.sessions.length ≤ hashtableSize ∧ q.sessId ∈ s.ids ∧
      opofAddSessionServer q s = (.alreadyExists, s.leaked)) ∨
    (s.sessions.length ≤ hashtableSize ∧ q.sessId ∉ s.ids ∧
      opofAddSessionServer q s = (.ok, s.installed q)) := by
  by_cases full : hashtableSize < s.sessions.length
  · exact .inl ⟨full, if_pos full⟩
  · have room : s.sessions.length ≤ hashtableSize := Nat.le_of_not_lt full
    by_cases present : q.sessId ∈ s.ids
    · obtain ⟨r, found, _, _⟩ := hashFind_some present
      have seen : Server.hashFind { s with heap := s.heap + 1 } q.sessId = some r := found
      exact .inr (.inl ⟨room, present, by simp [opofAddSessionServer, full, seen, Server.leaked]⟩)
    · have unseen : Server.hashFind { s with heap := s.heap + 1 } q.sessId = none :=
        hashFind_none present
      refine .inr (.inr ⟨room, present, ?_⟩)
      simp [opofAddSessionServer, full, unseen, Server.installed]

theorem add_grows (q : SessionRequestT) (s : Server) :
    ∃ more, (opofAddSessionServer q s).2.sessions = s.sessions ++ more := by
  rcases add_cases q s with ⟨_, run⟩ | ⟨_, _, run⟩ | ⟨_, _, run⟩
  · exact ⟨[], by rw [run, Server.leaked, List.append_nil]⟩
  · exact ⟨[], by rw [run, Server.leaked, List.append_nil]⟩
  · exact ⟨_, by rw [run, Server.installed]⟩

theorem add_inv (q : SessionRequestT) (s : Server) (inv : s.Inv) :
    (opofAddSessionServer q s).2.Inv := by
  have older : ∀ r ∈ s.sessions, r.addr < s.heap + 1 :=
    fun r hr => Nat.lt_succ_of_lt (inv.allocated r hr)
  rcases add_cases q s with ⟨_, run⟩ | ⟨_, _, run⟩ | ⟨room, absent, run⟩
  · rw [run]
    exact ⟨inv.distinct, inv.blocks, older, inv.closed, inv.bounded⟩
  · rw [run]
    exact ⟨inv.distinct, inv.blocks, older, inv.closed, inv.bounded⟩
  · rw [run]
    refine ⟨?_, ?_, ?_, ?_, ?_⟩
    · rw [installed_ids]
      exact Registry.nodup_snoc inv.distinct absent
    · simp only [Server.installed, List.map_append, List.map_singleton]
      apply Registry.nodup_snoc inv.blocks
      intro taken
      obtain ⟨r, hr, same⟩ := List.mem_map.mp taken
      exact Nat.lt_irrefl _ (same ▸ inv.allocated r hr)
    · intro r hr
      rcases List.mem_append.mp hr with hr | hr
      · exact older r hr
      · rw [List.mem_singleton.mp hr]
        exact Nat.lt_succ_self _
    · intro r hr
      rcases List.mem_append.mp hr with hr | hr
      · exact inv.closed r hr
      · rw [List.mem_singleton.mp hr]
        rfl
    · simpa [Server.installed] using room

theorem Server.Inv.sublist {s t : Server} (inv : s.Inv) (sub : t.sessions.Sublist s.sessions)
    (heap : t.heap = s.heap) : t.Inv where
  distinct := inv.distinct.sublist (sub.map _)
  blocks := inv.blocks.sublist (sub.map _)
  allocated := fun r hr => heap ▸ inv.allocated r (sub.subset hr)
  closed := fun r hr => inv.closed r (sub.subset hr)
  bounded := Nat.le_trans sub.length_le inv.bounded

theorem get_present {s : Server} {id : Word64} (present : id ∈ s.ids)
    (response : SessionResponseT) :
    ∃ resp, opofGetSessionServer id response s = (.ok, resp) ∧ resp.sessionId = id := by
  obtain ⟨r, found, _, _⟩ := hashFind_some present
  simp only [opofGetSessionServer, found]
  exact ⟨_, rfl, rfl⟩

theorem get_absent {s : Server} {id : Word64} (absent : id ∉ s.ids)
    (response : SessionResponseT) :
    opofGetSessionServer id response s = (.notFound, response) := by
  simp only [opofGetSessionServer, hashFind_none absent]

theorem eraseP_eq_filter {α κ : Type*} [DecidableEq κ] (f : α → κ) (k : κ) {l : List α}
    (distinct : (l.map f).Nodup) :
    l.eraseP (fun q => f q == k) = l.filter (fun q => f q != k) := by
  induction l with
  | nil => rfl
  | cons x l ih =>
    obtain ⟨fresh, rest⟩ := List.nodup_cons.mp distinct
    by_cases hit : f x = k
    · have others : ∀ q ∈ l, (f q != k) = true := by
        intro q hq
        have differs : f q ≠ k := fun same => fresh (hit ▸ same ▸ List.mem_map_of_mem hq)
        simpa using differs
      simp [hit, List.filter_eq_self.mpr others]
    · simp [hit, ih rest]

theorem hashDel_sessions {s : Server} (keyed : s.Keyed) {r : RecordT} (member : r ∈ s.sessions) :
    (s.hashDel r).sessions = s.sessions.filter (fun q => q.sessionId != r.sessionId) := by
  simp only [Server.hashDel, eraseP_eq_filter RecordT.addr r.addr keyed.blocks]
  apply List.filter_congr
  intro q hq
  have same_block : q.addr = r.addr ↔ q.sessionId = r.sessionId := by
    constructor
    · intro same
      rw [List.inj_on_of_nodup_map keyed.blocks hq member same]
    · intro same
      rw [List.inj_on_of_nodup_map keyed.distinct hq member same]
  by_cases same : q.addr = r.addr
  · rw [same, same_block.mp same]
    simp
  · have other := mt same_block.mpr same
    rw [bne_iff_ne.mpr same, bne_iff_ne.mpr other]

theorem del_present {s : Server} (keyed : s.Keyed) {id : Word64} (present : id ∈ s.ids)
    (response : SessionResponseT) :
    ∃ resp r, opofDelSessionServer id response s = (.ok, resp, s.hashDel r) ∧
      resp.sessionId = id ∧ r ∈ s.sessions ∧ r.sessionId = id ∧
      (s.hashDel r).sessions = s.sessions.filter (fun q => q.sessionId != id) := by
  obtain ⟨r, found, member, key⟩ := hashFind_some present
  have after := hashDel_sessions keyed member
  rw [key] at after
  simp only [opofDelSessionServer, found]
  exact ⟨_, r, rfl, rfl, member, key, after⟩

theorem del_absent {s : Server} {id : Word64} (absent : id ∉ s.ids)
    (response : SessionResponseT) :
    opofDelSessionServer id response s = (.notFound, response, s) := by
  simp only [opofDelSessionServer, hashFind_none absent]

theorem hashDel_inv {s : Server} (inv : s.Inv) (r : RecordT) : (s.hashDel r).Inv :=
  inv.sublist List.eraseP_sublist rfl

theorem ids_filter {s t : Server} {p : Word64 → Bool}
    (sessions : t.sessions = s.sessions.filter (fun q => p q.sessionId)) :
    t.ids = s.ids.filter p := by
  simp only [Server.ids, sessions, List.filter_map]
  rfl

theorem closedLoop_spec (size : Int) (l : List RecordT) (a : ClosedScan)
    (table : a.server.sessions = l) (closed : ∀ r ∈ l, r.sessionState = .closed) :
    let k := served (size - a.i) l.length
    (closedLoop size l a).server.sessions = l.drop k ∧
    (closedLoop size l a).stores.map Prod.fst = a.stores.map Prod.fst ++ List.range' a.i k ∧
    (closedLoop size l a).stores.map (fun e => e.2.sessionId) =
      a.stores.map (fun e => e.2.sessionId) ++ (l.take k).map RecordT.sessionId ∧
    (closedLoop size l a).i = a.i + k ∧
    (closedLoop size l a).server.start = a.server.start ∧
    (closedLoop size l a).server.heap = a.server.heap := by
  induction l generalizing a with
  | nil => simp [closedLoop, table]
  | cons r tmp ih =>
    have after : (a.report r).server.sessions = tmp := by
      simp [ClosedScan.report, Server.hashDel, table]
    have stores : (a.report r).stores.map Prod.fst = a.stores.map Prod.fst ++ [a.i] := by
      simp [ClosedScan.report]
    have names : (a.report r).stores.map (fun e => e.2.sessionId) =
        a.stores.map (fun e => e.2.sessionId) ++ [r.sessionId] := by
      simp [ClosedScan.report, reportOf]
    have counted : (a.report r).i = a.i + 1 := rfl
    have start : (a.report r).server.start = a.server.start := rfl
    have heap : (a.report r).server.heap = a.server.heap := rfl
    rw [closedLoop, if_pos (closed r List.mem_cons_self)]
    split
    · rename_i full
      have one : size - a.i = 1 := by rw [counted] at full; omega
      simp [one, after, stores, names, counted, start, heap]
    · rename_i more
      have running : size - a.i ≠ 1 := by rw [counted] at more; omega
      have next : size - ((a.i + 1 : Nat) : Int) = size - a.i - 1 := by omega
      have rest := ih (a.report r) after (fun q hq => closed q (List.mem_cons_of_mem _ hq))
      simp only [counted, next, stores, names, start, heap] at rest
      obtain ⟨h1, h2, h3, h4, h5, h6⟩ := rest
      simp only [List.length_cons, served_succ running]
      refine ⟨by rw [h1]; rfl, ?_, ?_, by omega, h5, h6⟩
      · rw [h2, List.append_assoc]
        rfl
      · rw [h3, List.append_assoc]
        rfl

def closedCount (pageSize : Word32) (n : Nat) : Nat := served pageSize.toInt n

theorem closed_spec {s : Server} (inv : s.Inv) (pageSize : Word32) :
    let k := closedCount pageSize s.sessions.length
    let scan := opofGetClosedSessionsServer pageSize s
    scan.server.sessions = s.sessions.drop k ∧
    scan.stores.map Prod.fst = List.range k ∧
    scan.stores.map (fun e => e.2.sessionId) = s.ids.take k ∧
    scan.i = k ∧ scan.server.start = s.start ∧ scan.server.heap = s.heap := by
  have run := closedLoop_spec pageSize.toInt s.sessions ⟨s, [], 0⟩ rfl inv.closed
  simpa [opofGetClosedSessionsServer, closedCount, Server.ids, List.range_eq_range',
    List.map_take] using run

/-- A table of the store is too small for the page size to turn negative. -/
theorem closedCount_small (pageSize : Word32) {n : Nat} (bound : n ≤ 1001) :
    closedCount pageSize n = if pageSize.toNat = 0 then n else min pageSize.toNat n := by
  have signed := BitVec.toInt_eq_toNat_cond pageSize
  have width := pageSize.isLt
  unfold closedCount served
  split at signed <;> split <;> split <;> omega

theorem closedCount_of_pos {s : Server} (inv : s.Inv) {pageSize : Word32}
    (pos : 1 ≤ pageSize.toNat) :
    closedCount pageSize s.sessions.length = min pageSize.toNat s.sessions.length := by
  rw [closedCount_small pageSize inv.bounded, if_neg (Nat.ne_of_gt pos)]

theorem closed_inv {s : Server} (inv : s.Inv) (pageSize : Word32) :
    (opofGetClosedSessionsServer pageSize s).server.Inv := by
  obtain ⟨sessions, _, _, _, _, heap⟩ := closed_spec inv pageSize
  exact inv.sublist (sessions ▸ List.drop_sublist _ _) heap

def CursorValid (s : Server) : Prop := ∀ a, s.start = some a → ∃ r ∈ s.sessions, r.addr = a

/-- The records the cursor stands before: those later pages report. -/
def Server.pending (s : Server) : List RecordT :=
  match s.start with
  | none => []
  | some a => s.fromAddr a

def Server.rewind (s : Server) : Server := { s with start := s.sessions.head?.map RecordT.addr }

def Server.enter (s : Server) (sessionStart : Word64) : Server :=
  if sessionStart = uintMax then s.rewind else s

theorem rewind_pending (s : Server) : s.rewind.pending = s.sessions := by
  unfold Server.pending Server.rewind Server.fromAddr
  cases s.sessions <;> simp

theorem rewind_valid (s : Server) : CursorValid s.rewind := by
  intro a at_head
  cases h : s.sessions with
  | nil => simp [Server.rewind, h] at at_head
  | cons r rest => exact ⟨r, by simp [Server.rewind, h], by simpa [Server.rewind, h] using at_head⟩

@[simp] theorem enter_sessions (s : Server) (key : Word64) :
    (s.enter key).sessions = s.sessions := by
  unfold Server.enter
  split <;> rfl

theorem enter_zero (s : Server) : s.enter 0#64 = s := if_neg (by decide)

theorem pending_suffix (s : Server) : s.pending <:+ s.sessions := by
  unfold Server.pending
  split
  · exact List.nil_suffix
  · exact List.dropWhile_suffix _

theorem pending_of_suffix {s : Server} {l rs : List RecordT}
    (blocks : (l.map RecordT.addr).Nodup) (table : s.sessions = l) (suffix : rs <:+ l)
    (start : s.start = rs.head?.map RecordT.addr) : s.pending = rs := by
  obtain ⟨before, rfl⟩ := suffix
  cases rs with
  | nil => simp [Server.pending, start]
  | cons r next =>
    simp only [Server.pending, start, List.head?_cons, Option.map_some, Server.fromAddr, table]
    have earlier : ∀ q ∈ before, (q.addr != r.addr) = true := by
      intro q hq
      simp only [List.map_append, List.map_cons] at blocks
      have apart := (List.nodup_append.mp blocks).2.2 q.addr (List.mem_map_of_mem hq) r.addr
        List.mem_cons_self
      simpa using apart
    rw [List.dropWhile_append_of_pos earlier]
    simp

theorem start_of_valid {s : Server} (blocks : (s.sessions.map RecordT.addr).Nodup)
    (valid : CursorValid s) : s.start = s.pending.head?.map RecordT.addr := by
  cases start : s.start with
  | none => simp [Server.pending, start]
  | some a =>
    obtain ⟨r, member, same⟩ := valid a start
    obtain ⟨before, next, split⟩ := List.append_of_mem member
    have here : s.pending = r :: next :=
      pending_of_suffix blocks rfl ⟨before, split.symm⟩ (by simp [start, same])
    rw [here, List.head?_cons, Option.map_some, same]

theorem cursor_before {s : Server} (blocks : (s.sessions.map RecordT.addr).Nodup)
    {before l : List RecordT} (table : s.sessions = before ++ l)
    (start : s.start = l.head?.map RecordT.addr) : CursorValid s ∧ s.pending = l := by
  have suffix : l <:+ s.sessions := ⟨before, table.symm⟩
  refine ⟨?_, pending_of_suffix blocks rfl suffix start⟩
  intro a at_start
  rw [start] at at_start
  obtain ⟨r, first, same⟩ := Option.map_eq_some_iff.mp at_start
  exact ⟨r, suffix.subset (List.mem_of_mem_head? first), same⟩

/-- The page loop reports in order and leaves the cursor on the first record it did
not report. -/
theorem pageLoop_spec (size : Int) (l : List RecordT) (p : PageScan) :
    let k := served (size - p.responses.length) l.length
    (pageLoop size l p).responses.map SessionResponseT.sessionId =
      p.responses.map SessionResponseT.sessionId ++ (l.take k).map RecordT.sessionId ∧
    (pageLoop size l p).start = (l.drop k).head?.map RecordT.addr ∧
    (pageLoop size l p).sessionStart =
      ((l.take k).map RecordT.sessionId).getLastD p.sessionStart := by
  induction l generalizing p with
  | nil => simp [pageLoop]
  | cons r next ih =>
    have stored : (p.report r).responses.map SessionResponseT.sessionId =
        p.responses.map SessionResponseT.sessionId ++ [r.sessionId] := by
      simp [PageScan.report, reportOf]
    have counted : (p.report r).responses.length = p.responses.length + 1 := by
      simp [PageScan.report]
    have key : (p.report r).sessionStart = r.sessionId := rfl
    rw [pageLoop]
    split
    · rename_i full
      have one : size - p.responses.length = 1 := by rw [counted] at full; omega
      simp [one, stored, key]
    · rename_i more
      have running : size - p.responses.length ≠ 1 := by rw [counted] at more; omega
      have less : size - ((p.responses.length + 1 : Nat) : Int) =
          size - p.responses.length - 1 := by omega
      have rest := ih (p.report r)
      simp only [counted, less, stored, key] at rest
      simp only [List.length_cons, served_succ running]
      refine ⟨by rw [rest.1, List.append_assoc]; rfl, rest.2.1, ?_⟩
      rw [rest.2.2, List.take_succ_cons, List.map_cons, List.getLastD_cons]

theorem fromAddr_nil {s : Server} {a : Nat} :
    s.fromAddr a = [] ↔ ∀ r ∈ s.sessions, r.addr ≠ a := by
  simp [Server.fromAddr, List.dropWhile_eq_nil_iff]

theorem page_run (size : Int) (key : Word64) (s : Server) :
    getAllSessionsPage size key s =
      match (s.enter key).start with
      | none => some ([], key, s.enter key)
      | some a =>
        match (s.enter key).fromAddr a with
        | [] => none
        | r :: next =>
          let p := pageLoop size (r :: next) ⟨[], key, (s.enter key).start, (s.enter key).rand⟩
          some (p.responses, p.sessionStart,
            { s.enter key with start := p.start, rand := p.rand }) :=
  rfl

/-- One page request from a valid cursor: it reports the first pending sessions, moves
the cursor behind them and answers the id of the last one, or the key it was sent. -/
theorem page_spec {s : Server} (blocks : (s.sessions.map RecordT.addr).Nodup) (size : Int)
    (key : Word64) (valid : CursorValid (s.enter key)) :
    ∃ rs key' t, getAllSessionsPage size key s = some (rs, key', t) ∧
      t.sessions = s.sessions ∧ t.heap = s.heap ∧ CursorValid t ∧
      let k := served size (s.enter key).pending.length
      rs.map SessionResponseT.sessionId =
        ((s.enter key).pending.take k).map RecordT.sessionId ∧
      t.pending = (s.enter key).pending.drop k ∧
      key' = (((s.enter key).pending.take k).map RecordT.sessionId).getLastD key := by
  have heap : (s.enter key).heap = s.heap := by unfold Server.enter; split <;> rfl
  have run := page_run size key s
  cases at_start : (s.enter key).start with
  | none =>
    have nothing : (s.enter key).pending = [] := by simp [Server.pending, at_start]
    rw [at_start] at run
    refine ⟨_, _, _, run, by simp, heap, valid, ?_⟩
    simp [nothing]
  | some a =>
    have here : (s.enter key).pending = (s.enter key).fromAddr a := by
      simp [Server.pending, at_start]
    have suffix := pending_suffix (s.enter key)
    cases found : (s.enter key).fromAddr a with
    | nil =>
      obtain ⟨r, hr, same⟩ := valid a at_start
      exact (fromAddr_nil.mp found r hr same).elim
    | cons r next =>
      rw [at_start] at run
      simp only [found] at run
      have loop := pageLoop_spec size (r :: next) ⟨[], key, some a, (s.enter key).rand⟩
      have all : size - (([] : List SessionResponseT).length : Int) = size := Int.sub_zero size
      simp only [all, List.map_nil, List.nil_append] at loop
      obtain ⟨reported, cursor, last⟩ := loop
      rw [here, found] at suffix ⊢
      have tail := (List.drop_suffix (served size (r :: next).length) (r :: next)).trans suffix
      rw [enter_sessions] at tail
      refine ⟨_, _, _, run, by simp, heap, ?_, reported, ?_, last⟩
      · intro b hb
        simp only [cursor] at hb
        obtain ⟨q, hq, rfl⟩ := Option.map_eq_some_iff.mp hb
        exact ⟨q, by simpa using tail.subset (List.mem_of_mem_head? hq), rfl⟩
      · exact pending_of_suffix blocks (by simp) tail cursor

theorem page_inv {s t : Server} (inv : s.Inv) (sessions : t.sessions = s.sessions)
    (heap : t.heap = s.heap) : t.Inv :=
  inv.sublist (sessions ▸ List.Sublist.refl _) heap

theorem page_dangling {s : Server} (size : Int) (key : Word64)
    (dangling : ¬ CursorValid (s.enter key)) : getAllSessionsPage size key s = none := by
  have run := page_run size key s
  cases at_start : (s.enter key).start with
  | none =>
    apply (dangling _).elim
    intro a ha
    rw [at_start] at ha
    cases ha
  | some a =>
    have nowhere : (s.enter key).fromAddr a = [] := by
      refine fromAddr_nil.mpr (fun r hr same => dangling (fun b hb => ⟨r, hr, ?_⟩))
      rw [at_start] at hb
      exact same.trans (Option.some.inj hb)
    rw [run, at_start]
    simp only [nowhere]

end SessionOffload
