import SessionOffload.TestUtil
import SessionOffload.UtStore
import SessionOffload.UtHashSpec

/-! The store over the hash table against the store over a list: the same calls, the same
answers, for as long as malloc grants the arrays of buckets. -/
namespace SessionOffload
open Intrusive Transition

theorem recordKey_inj {a b : Word64} (same : recordKey a = recordKey b) : a = b := by
  have bytes := List.map_inj_left.mp same
  refine BitVec.eq_of_getLsbD_eq fun i hi => ?_
  have byte := congrArg (BitVec.getLsbD · (i % 8)) (bytes (i / 8) (List.mem_range.mpr (by omega)))
  simp only [BitVec.getLsbD_extractLsb', Nat.mod_lt i (by decide : 0 < 8), decide_true,
    Bool.true_and, Nat.div_add_mod] at byte
  exact byte

def itemOf (r : RecordT) : Item := ⟨r.addr, recordKey r.sessionId⟩

def items (l : List RecordT) : List Item := l.map itemOf

@[simp] theorem addrs_items (l : List RecordT) : addrs (items l) = l.map RecordT.addr := by
  simp [addrs, items, itemOf, Function.comp_def]

@[simp] theorem length_items (l : List RecordT) : (items l).length = l.length :=
  List.length_map _

/-- The table holds the records of the list, every record is in its block, and a cursor
that is not at a record of the table is at a block that was freed. -/
structure Mirrors (u : UtServer) (s : Server) : Prop where
  inv : s.Inv
  holds : u.sessions.Holds (items s.sessions)
  records : ∀ r ∈ s.sessions, u.records r.addr = some r
  start : u.start = s.start
  heap : u.heap = s.heap
  rand : u.rand = s.rand
  behind : ∀ a, s.start = some a → a < s.heap
  freed : ∀ a, s.start = some a → a ∉ s.sessions.map RecordT.addr → u.records a = none

theorem init_mirrors (rand : Nat → Nat) : Mirrors (UtServer.init rand) (Server.init rand) where
  inv := Server.init_inv rand
  holds := empty_holds _
  records := fun r hr => absurd hr List.not_mem_nil
  start := rfl
  heap := rfl
  rand := rfl
  behind := fun a h => by cases h
  freed := fun a h => by cases h

theorem length_le_heap {s : Server} (inv : s.Inv) : s.sessions.length ≤ s.heap := by
  have inside : s.sessions.map RecordT.addr ⊆ List.range s.heap := by
    intro a ha
    obtain ⟨r, hr, rfl⟩ := List.mem_map.mp ha
    exact List.mem_range.mpr (inv.allocated r hr)
  have few := (inv.blocks.subperm inside).length_le
  rwa [List.length_map, List.length_range] at few

theorem hashFind_mirrors {u : UtServer} {s : Server} {fuel : Nat}
    (holds : u.sessions.Holds (items s.sessions)) (inv : s.Inv) (heap : u.heap = fuel)
    (enough : s.sessions.length ≤ fuel) (id : Word64) :
    u.hashFind id = some ((s.hashFind id).map RecordT.addr) := by
  have short : (items s.sessions).length ≤ fuel := by rwa [length_items]
  obtain ⟨found, run, sound, complete⟩ := find_spec holds short (recordKey id)
  rw [UtServer.hashFind, heap, run]
  by_cases present : id ∈ s.ids
  · obtain ⟨r, look, member, key⟩ := hashFind_some present
    rw [look]
    cases hit : found with
    | none =>
      have missed := complete hit (itemOf r) (List.mem_map_of_mem member)
      exact absurd (by rw [itemOf, key]) missed
    | some a =>
      obtain ⟨x, there, rfl, same⟩ := sound a hit
      obtain ⟨q, hq, rfl⟩ := List.mem_map.mp there
      have keys : q.sessionId = r.sessionId := (recordKey_inj same).trans key.symm
      rw [List.inj_on_of_nodup_map inv.distinct hq member keys]
      rfl
  · rw [hashFind_none present]
    cases hit : found with
    | none => rfl
    | some a =>
      obtain ⟨x, there, rfl, same⟩ := sound a hit
      obtain ⟨q, hq, rfl⟩ := List.mem_map.mp there
      exact absurd (recordKey_inj same ▸ List.mem_map_of_mem hq) present

theorem hashDel_split {s : Server} (inv : s.Inv) {l₁ l₂ : List RecordT} {r : RecordT}
    (table : s.sessions = l₁ ++ r :: l₂) : (s.hashDel r).sessions = l₁ ++ l₂ := by
  have blocks := inv.blocks
  rw [table, List.map_append, List.map_cons] at blocks
  have earlier : ∀ q ∈ l₁, ¬(q.addr == r.addr) = true := fun q hq same =>
    (List.nodup_append.mp blocks).2.2 q.addr (List.mem_map_of_mem hq) r.addr List.mem_cons_self
      (beq_iff_eq.mp same)
  rw [Server.hashDel, table, List.eraseP_append_right _ earlier,
    List.eraseP_cons_of_pos (by simp)]

theorem hashDel_mirrors {u : UtServer} {s : Server} (m : Mirrors u s) {r : RecordT}
    (member : r ∈ s.sessions) :
    ∃ u', u.hashDel r.addr = some u' ∧ Mirrors u' (s.hashDel r) := by
  obtain ⟨l₁, l₂, table⟩ := List.append_of_mem member
  have after := hashDel_split m.inv table
  have blocks := m.inv.blocks
  rw [table, List.map_append, List.map_cons] at blocks
  have gone : r.addr ∉ (l₁ ++ l₂).map RecordT.addr := by
    rw [List.map_append]
    exact (List.nodup_cons.mp (List.nodup_middle.mp blocks)).1
  have whole := m.holds
  rw [table, items, List.map_append, List.map_cons] at whole
  obtain ⟨t, run, holds, _⟩ := delete_item whole
  rw [← List.map_append] at holds
  have freed : ({ u with sessions := t }.free r.addr).sessions.Holds (items (l₁ ++ l₂)) :=
    holds.untouched rfl rfl fun a ha => by
      rw [← items, addrs_items] at ha
      have other : a ≠ r.addr := fun same => gone (same ▸ ha)
      exact Function.update_of_ne other _ _
  refine ⟨{ u with sessions := t }.free r.addr, ?_, ?_⟩
  · simp only [UtServer.hashDel, Option.bind_eq_bind]
    exact congrArg (Option.bind · _) run
  · refine ⟨hashDel_inv m.inv r, after ▸ freed, fun q hq => ?_, m.start, m.heap, m.rand, m.behind,
      fun a ha away => ?_⟩
    · rw [after] at hq
      have other : q.addr ≠ r.addr := fun same =>
        gone (same ▸ List.mem_map_of_mem (f := RecordT.addr) hq)
      have there : q ∈ s.sessions := by
        rw [table]
        exact ((List.Sublist.refl l₁).append (List.sublist_cons_self r l₂)).subset hq
      exact (Function.update_of_ne other _ _).trans (m.records q there)
    · by_cases here : a = r.addr
      · exact here ▸ Function.update_self ..
      · refine (Function.update_of_ne here _ _).trans (m.freed a ha fun taken => away ?_)
        rw [after]
        rw [table, List.map_append, List.map_cons] at taken
        rw [List.map_append]
        rcases List.mem_append.mp taken with left | right
        · exact List.mem_append_left _ left
        · exact List.mem_append_right _ ((List.mem_cons.mp right).resolve_left here)

theorem allocate_holds {u : UtServer} {s : Server} (m : Mirrors u s) :
    u.allocate.sessions.Holds (items s.sessions) :=
  m.holds.untouched rfl rfl fun a ha => by
    rw [addrs_items] at ha
    obtain ⟨r, hr, rfl⟩ := List.mem_map.mp ha
    have old := m.inv.allocated r hr
    exact Function.update_of_ne (by rw [m.heap]; omega) _ _

/-- A block beyond those of the table and of the cursor: what is in it does not matter. -/
theorem allocate_mirrors {u : UtServer} {s : Server} (m : Mirrors u s) :
    Mirrors u.allocate s.leaked where
  inv := ⟨m.inv.distinct, m.inv.blocks, fun r hr => Nat.lt_succ_of_lt (m.inv.allocated r hr),
    m.inv.closed, m.inv.bounded⟩
  holds := allocate_holds (s := s) m
  records := fun r hr => by
    have old := m.inv.allocated r hr
    exact (Function.update_of_ne (by rw [m.heap]; omega) _ _).trans (m.records r hr)
  start := m.start
  heap := congrArg (· + 1) m.heap
  rand := m.rand
  behind := fun a ha => Nat.lt_succ_of_lt (m.behind a ha)
  freed := fun a ha away => by
    have old := m.behind a ha
    exact (Function.update_of_ne (by rw [m.heap]; omega) _ _).trans (m.freed a ha away)

theorem count_mirrors {u : UtServer} {s : Server} (holds : u.sessions.Holds (items s.sessions))
    (bounded : s.sessions.length ≤ hashtableSize + 1) :
    ∃ n, hashCount u.sessions = some n ∧ n.toInt = s.sessions.length := by
  refine ⟨_, count_spec holds, ?_⟩
  rw [length_items, BitVec.toInt_eq_toNat_cond, BitVec.toNat_ofNat]
  unfold hashtableSize at bounded
  split <;> omega

def UtServer.installed (q : SessionRequestT) (t : UtHash) (u : UtServer) : UtServer :=
  let named := u.allocate.setRecord { zeroRecord u.heap with sessionId := q.sessId }
  let filled := { named with sessions := t }.setRecord (newRecord u.heap q (drawCounters u.rand))
  { filled with rand := skipCounters u.rand }

section Add
variable {u : UtServer} {s : Server} {q : SessionRequestT}

theorem installed_apart {t : UtHash} {a : Nat} (other : a ≠ u.heap) :
    (u.installed q t).records a = u.records a := by
  refine (Function.update_of_ne other _ _).trans ?_
  refine (Function.update_of_ne other _ _).trans ?_
  exact Function.update_of_ne other _ _

theorem installed_mirrors (m : Mirrors u s) {t : UtHash}
    (holds : t.Holds (items s.sessions ++ [⟨u.heap, recordKey q.sessId⟩]))
    (inv : (s.installed q).Inv) : Mirrors (u.installed q t) (s.installed q) where
  inv := inv
  holds := by
    have same : items (s.installed q).sessions =
        items s.sessions ++ [⟨u.heap, recordKey q.sessId⟩] := by
      simp [Server.installed, items, itemOf, newRecord, m.heap]
    exact same ▸ holds
  records r hr := by
    rcases List.mem_append.mp hr with old | new
    · have before := m.inv.allocated r old
      have other : r.addr ≠ u.heap := by
        rw [m.heap]
        omega
      exact (installed_apart other).trans (m.records r old)
    · rw [List.mem_singleton.mp new, ← m.heap, ← m.rand]
      exact Function.update_self ..
  start := m.start
  heap := congrArg (· + 1) m.heap
  rand := congrArg skipCounters m.rand
  behind a ha := Nat.lt_succ_of_lt (m.behind a ha)
  freed a ha away := by
    have before := m.behind a ha
    have other : a ≠ u.heap := by
      rw [m.heap]
      omega
    refine (installed_apart other).trans (m.freed a ha fun taken => away ?_)
    rw [Server.installed, List.map_append]
    exact List.mem_append_left _ taken

theorem add_agrees {malloc : Nat → Bool} (refuses : Refuses malloc) (m : Mirrors u s)
    (q : SessionRequestT) :
    ((∃ size ∈ u.sessions.asks, malloc size = false) ∧ utAddSessionServer malloc q u = none) ∨
    ∃ u', utAddSessionServer malloc q u = some ((opofAddSessionServer q s).1, u') ∧
      Mirrors u' (opofAddSessionServer q s).2 := by
  have alloc := allocate_mirrors m
  obtain ⟨n, count, size⟩ := count_mirrors alloc.holds alloc.inv.bounded
  have look := hashFind_mirrors alloc.holds alloc.inv alloc.heap (length_le_heap alloc.inv) q.sessId
  have table : s.leaked.sessions = s.sessions := rfl
  rcases add_cases q s with ⟨full, run⟩ | ⟨room, present, run⟩ | ⟨room, absent, run⟩
  · refine .inr ⟨u.allocate, ?_, by rw [run]; exact alloc⟩
    have crowded : n.toInt > (hashtableSize : Int) := by
      rw [size]
      exact_mod_cast full
    simp only [utAddSessionServer, count, if_pos crowded, run, Option.bind_eq_bind,
      Option.bind_some]
  · refine .inr ⟨u.allocate, ?_, by rw [run]; exact alloc⟩
    have under : ¬n.toInt > (hashtableSize : Int) := by
      rw [size, table]
      exact_mod_cast Nat.not_lt.mpr room
    obtain ⟨r, found, _⟩ := hashFind_some (s := s.leaked) present
    rw [found] at look
    simp only [utAddSessionServer, count, if_neg under, look, run, Option.bind_eq_bind,
      Option.bind_some, Option.map_some]
  · have under : ¬n.toInt > (hashtableSize : Int) := by
      rw [size, table]
      exact_mod_cast Nat.not_lt.mpr room
    rw [hashFind_none (s := s.leaked) absent] at look
    let x : Item := ⟨u.heap, recordKey q.sessId⟩
    have fresh : x.addr ∉ addrs (items s.sessions) := by
      rw [addrs_items]
      intro taken
      obtain ⟨r, hr, same⟩ := List.mem_map.mp taken
      exact Nat.lt_irrefl _ (m.heap ▸ same ▸ m.inv.allocated r hr)
    have live : u.allocate.sessions.hh x.addr = some .zero := Function.update_self ..
    have space : (items s.sessions).length < u.allocate.heap := by
      rw [length_items]
      exact Nat.lt_succ_of_le (m.heap ▸ length_le_heap m.inv)
    rcases add_item refuses (allocate_holds m) fresh live space with
      ⟨refused, failed⟩ | ⟨t, added, put⟩
    · refine .inl ⟨refused, ?_⟩
      simp only [utAddSessionServer, count, if_neg under, look, Option.bind_eq_bind,
        Option.bind_some, Option.map_none, UtServer.setRecord]
      exact congrArg (Option.bind · _) failed
    · refine .inr ⟨u.installed q t, ?_, ?_⟩
      · simp only [utAddSessionServer, count, if_neg under, look, run, Option.bind_eq_bind,
          Option.bind_some, Option.map_none, UtServer.setRecord]
        exact congrArg (Option.bind · _) added
      · have inv := add_inv q s m.inv
        rw [run] at inv ⊢
        exact installed_mirrors m put.holds inv

end Add

theorem find_mirrors {u : UtServer} {s : Server} (m : Mirrors u s) (id : Word64) :
    u.hashFind id = some ((s.hashFind id).map RecordT.addr) :=
  hashFind_mirrors m.holds m.inv m.heap (length_le_heap m.inv) id

theorem get_agrees {u : UtServer} {s : Server} (m : Mirrors u s) (id : Word64)
    (response : SessionResponseT) :
    utGetSessionServer id response u = some (opofGetSessionServer id response s) := by
  cases found : s.hashFind id with
  | none =>
    simp [utGetSessionServer, opofGetSessionServer, find_mirrors m, found]
  | some r =>
    have here := m.records r (List.mem_of_find?_eq_some found)
    simp [utGetSessionServer, opofGetSessionServer, find_mirrors m, found, here]

theorem del_agrees {u : UtServer} {s : Server} (m : Mirrors u s) (id : Word64)
    (response : SessionResponseT) :
    ∃ u', utDelSessionServer id response u = some ((opofDelSessionServer id response s).1,
        (opofDelSessionServer id response s).2.1, u') ∧
      Mirrors u' (opofDelSessionServer id response s).2.2 := by
  cases found : s.hashFind id with
  | none =>
    refine ⟨u, ?_, by simpa [opofDelSessionServer, found] using m⟩
    simp [utDelSessionServer, opofDelSessionServer, find_mirrors m, found]
  | some r =>
    have member := List.mem_of_find?_eq_some found
    obtain ⟨u', gone, after⟩ := hashDel_mirrors m member
    refine ⟨u', ?_, by simpa [opofDelSessionServer, found] using after⟩
    simp [utDelSessionServer, opofDelSessionServer, find_mirrors m, found, m.records r member,
      gone]

theorem Mirrors.redraw {u : UtServer} {s : Server} (m : Mirrors u s) (rand : Nat → Nat) :
    Mirrors { u with rand := rand } { s with rand := rand } :=
  ⟨⟨m.inv.distinct, m.inv.blocks, m.inv.allocated, m.inv.closed, m.inv.bounded⟩, m.holds,
    m.records, m.start, m.heap, rfl, m.behind, m.freed⟩

theorem report_mirrors {ua : UtClosedScan} {a : ClosedScan} (m : Mirrors ua.server a.server)
    (stores : ua.stores = a.stores) (count : ua.i = a.i) {r : RecordT}
    (member : r ∈ a.server.sessions) :
    ∃ ua', ua.report r.addr r = some ua' ∧ Mirrors ua'.server (a.report r).server ∧
      ua'.stores = (a.report r).stores ∧ ua'.i = (a.report r).i := by
  obtain ⟨u', gone, after⟩ := hashDel_mirrors (m.redraw (skipCounters a.server.rand)) member
  refine ⟨⟨u', a.stores ++ [(a.i, reportOf r (drawCounters a.server.rand))], a.i + 1⟩, ?_, after,
    rfl, rfl⟩
  simp only [UtClosedScan.report, m.rand, stores, count, gone, Option.bind_eq_bind,
    Option.bind_some]

theorem nextOf_mirrors {u : UtServer} {s : Server} (m : Mirrors u s) :
    u.nextOf (s.sessions.head?.map RecordT.addr) =
      some (s.sessions.tail.head?.map RecordT.addr) := by
  cases table : s.sessions with
  | nil => rfl
  | cons r rest =>
    have holds := m.holds
    rw [table, items, List.map_cons] at holds
    obtain ⟨h, live, _, next⟩ := @UtHash.Holds.handle _ [] _ _ holds
    have first : u.sessions.hh r.addr = some h := live
    simp only [UtServer.nextOf, List.head?_cons, Option.map_some, first, next]
    rw [← items, addrs_items, List.head?_map]
    rfl

/-- HASH_ITER with a deletion at every turn: `tmp` is never the record just freed. -/
theorem closedLoop_agrees (size : Int) (l : List RecordT) {fuel : Nat}
    (enough : l.length ≤ fuel) {ua : UtClosedScan} {a : ClosedScan}
    (m : Mirrors ua.server a.server) (table : a.server.sessions = l)
    (stores : ua.stores = a.stores) (count : ua.i = a.i) :
    ∃ ua', utClosedLoop size fuel (l.head?.map RecordT.addr) (l.tail.head?.map RecordT.addr) ua =
        some ua' ∧ Mirrors ua'.server (closedLoop size l a).server ∧
      ua'.stores = (closedLoop size l a).stores := by
  induction l generalizing fuel ua a with
  | nil => exact ⟨ua, by cases fuel <;> rfl, m, stores⟩
  | cons r rest ih =>
    cases fuel with
    | zero => simp at enough
    | succ fuel =>
      have member : r ∈ a.server.sessions := by
        rw [table]
        exact List.mem_cons_self
      have closed := m.inv.closed r member
      obtain ⟨ua₁, run, m₁, stores₁, count₁⟩ := report_mirrors m stores count member
      have table₁ : (a.report r).server.sessions = rest := by
        simp [ClosedScan.report, Server.hashDel, table]
      have next := nextOf_mirrors m₁
      rw [table₁] at next
      simp only [List.head?_cons, Option.map_some, List.tail_cons, utClosedLoop, closedLoop,
        m.records r member, closed, if_true, run, Option.bind_eq_bind, Option.bind_some, count₁]
      split
      · exact ⟨ua₁, rfl, m₁, stores₁⟩
      · rw [next]
        exact ih (Nat.le_of_succ_le_succ enough) m₁ table₁ stores₁ count₁

theorem closed_agrees {u : UtServer} {s : Server} (m : Mirrors u s) (pageSize : Word32) :
    ∃ ua, utGetClosedSessionsServer pageSize u = some ua ∧
      Mirrors ua.server (opofGetClosedSessionsServer pageSize s).server ∧
      ua.stores = (opofGetClosedSessionsServer pageSize s).stores := by
  have head : u.sessions.head = s.sessions.head?.map RecordT.addr := by
    rw [m.holds.head, addrs_items, List.head?_map]
  have start : Mirrors (UtClosedScan.mk u [] 0).server (ClosedScan.mk s [] 0).server := m
  obtain ⟨ua, run, after, stores⟩ := closedLoop_agrees pageSize.toInt s.sessions
    (m.heap ▸ length_le_heap m.inv) start rfl rfl rfl
  refine ⟨ua, ?_, after, stores⟩
  simp only [utGetClosedSessionsServer, head, nextOf_mirrors m, Option.bind_eq_bind,
    Option.bind_some, run]

theorem pageLoop_agrees {u : UtServer} {s : Server} (m : Mirrors u s) (size : Int)
    {before l : List RecordT} (table : s.sessions = before ++ l) {fuel : Nat}
    (enough : l.length ≤ fuel) (p : PageScan) :
    utPageLoop u size fuel (l.head?.map RecordT.addr) p = some (pageLoop size l p) := by
  induction l generalizing before fuel p with
  | nil => cases fuel <;> rfl
  | cons r next ih =>
    cases fuel with
    | zero => simp at enough
    | succ fuel =>
      have member : r ∈ s.sessions := by
        rw [table]
        exact List.mem_append_right _ List.mem_cons_self
      have holds := m.holds
      rw [table, items, List.map_append, List.map_cons] at holds
      obtain ⟨h, live, _, forth⟩ := holds.handle
      have here : u.sessions.hh r.addr = some h := live
      rw [← items, addrs_items, List.head?_map] at forth
      have further := ih (table.trans (List.append_cons before r next))
        (Nat.le_of_succ_le_succ enough) (p.report r)
      simp only [List.head?_cons, Option.map_some, utPageLoop, m.records r member, here, forth,
        further, pageLoop, Option.bind_eq_bind, Option.bind_some]
      split <;> rfl

theorem Mirrors.turned {u : UtServer} {s : Server} (m : Mirrors u s) {start : Option Nat}
    (valid : ∀ a, start = some a → a ∈ s.sessions.map RecordT.addr) (rand : Nat → Nat) :
    Mirrors { u with start := start, rand := rand } { s with start := start, rand := rand } where
  inv := ⟨m.inv.distinct, m.inv.blocks, m.inv.allocated, m.inv.closed, m.inv.bounded⟩
  holds := m.holds
  records := m.records
  start := rfl
  heap := m.heap
  rand := rfl
  behind := fun a ha => by
    obtain ⟨r, hr, rfl⟩ := List.mem_map.mp (valid a ha)
    exact m.inv.allocated r hr
  freed := fun a ha away => absurd (valid a ha) away

def UtServer.enter (u : UtServer) (sessionStart : Word64) : UtServer :=
  if sessionStart = uintMax then { u with start := u.sessions.head } else u

theorem enter_mirrors {u : UtServer} {s : Server} (m : Mirrors u s) (key : Word64) :
    Mirrors (u.enter key) (s.enter key) := by
  unfold UtServer.enter Server.enter
  split
  · have head : u.sessions.head = s.sessions.head?.map RecordT.addr := by
      rw [m.holds.head, addrs_items, List.head?_map]
    rw [head, m.rand]
    refine m.turned (fun a ha => ?_) s.rand
    rw [← List.head?_map] at ha
    exact List.mem_of_mem_head? ha
  · exact m

theorem utPage_end {u : UtServer} {key : Word64} (ends : (u.enter key).start = none) (size : Int) :
    utGetAllSessionsPage size key u = some ([], key, u.enter key) := by
  simp only [utGetAllSessionsPage]
  rw [← UtServer.enter, ends]

theorem utPage_walk {u : UtServer} {key : Word64} {a : Nat}
    (starts : (u.enter key).start = some a) (size : Int) :
    utGetAllSessionsPage size key u =
      (utPageLoop (u.enter key) size (u.enter key).heap (some a)
        ⟨[], key, some a, (u.enter key).rand⟩).bind fun p => some (p.responses, p.sessionStart,
          { u.enter key with start := p.start, rand := p.rand }) := by
  simp only [utGetAllSessionsPage]
  rw [← UtServer.enter, starts]
  rfl

theorem page_agrees {u : UtServer} {s : Server} (m : Mirrors u s) (size : Int) (key : Word64) :
    (utGetAllSessionsPage size key u = none ∧ getAllSessionsPage size key s = none) ∨
    ∃ rs key' u' s', utGetAllSessionsPage size key u = some (rs, key', u') ∧
      getAllSessionsPage size key s = some (rs, key', s') ∧ Mirrors u' s' := by
  have entered := enter_mirrors m key
  have run := page_run size key s
  cases at_start : (s.enter key).start with
  | none =>
    have utRun := utPage_end (entered.start.trans at_start) size
    rw [at_start] at run
    exact .inr ⟨_, _, _, _, utRun, run, entered⟩
  | some a =>
    have utRun := utPage_walk (entered.start.trans at_start) size
    rw [at_start] at run
    cases found : (s.enter key).fromAddr a with
    | nil =>
      have gone := entered.freed a at_start fun taken => by
        obtain ⟨r, hr, same⟩ := List.mem_map.mp taken
        exact fromAddr_nil.mp found r hr same
      simp only [found] at run
      refine .inl ⟨?_, run⟩
      rw [utRun]
      cases (u.enter key).heap <;> simp [utPageLoop, gone]
    | cons r next =>
      have suffix : (r :: next) <:+ (s.enter key).sessions := found ▸ List.dropWhile_suffix _
      have here : r.addr = a := by
        have stop := List.head?_dropWhile_not (fun r : RecordT => r.addr != a)
          (s.enter key).sessions
        rw [← Server.fromAddr, found] at stop
        simpa using stop
      obtain ⟨before, table⟩ := suffix
      have short : (r :: next).length ≤ (u.enter key).heap := by
        rw [entered.heap]
        have := length_le_heap entered.inv
        rw [← table, List.length_append] at this
        omega
      have walk := pageLoop_agrees entered size table.symm short
        ⟨[], key, some a, (s.enter key).rand⟩
      simp only [List.head?_cons, Option.map_some, here] at walk
      simp only [found] at run
      simp only [entered.rand, walk, Option.bind_some] at utRun
      refine .inr ⟨_, _, _, _, utRun, run, entered.turned (fun b hb => ?_) _⟩
      rw [(pageLoop_spec size (r :: next) _).2.1] at hb
      obtain ⟨q, hq, rfl⟩ := Option.map_eq_some_iff.mp hb
      rw [← table]
      exact List.mem_map_of_mem (List.mem_append_right _
        (List.mem_of_mem_drop (List.mem_of_mem_head? hq)))

theorem serve_agrees {malloc : Nat → Bool} (refuses : Refuses malloc) {u : UtServer} {s : Server}
    (m : Mirrors u s) (call : Call) :
    ((∃ size ∈ u.sessions.asks, malloc size = false) ∧ serveUt malloc u call = none) ∨
    (serveUt malloc u call = none ∧ serve s call = none) ∨
    ∃ u' s' reply, serveUt malloc u call = some (u', reply) ∧ serve s call = some (s', reply) ∧
      Mirrors u' s' := by
  cases call with
  | add q =>
    rcases add_agrees refuses m q with ⟨refused, failed⟩ | ⟨u', run, after⟩
    · exact .inl ⟨refused, by simp [serveUt, failed]⟩
    · exact .inr (.inr ⟨u', _, .add (opofAddSessionServer q s).1, by simp [serveUt, run], rfl,
        after⟩)
  | get id response =>
    exact .inr (.inr ⟨u, s, .get (opofGetSessionServer id response s).1
      (opofGetSessionServer id response s).2, by simp [serveUt, get_agrees m], rfl, m⟩)
  | del id response =>
    obtain ⟨u', run, after⟩ := del_agrees m id response
    exact .inr (.inr ⟨u', _, .del (opofDelSessionServer id response s).1
      (opofDelSessionServer id response s).2.1, by simp [serveUt, run], rfl, after⟩)
  | getClosed pageSize =>
    obtain ⟨ua, run, after, stores⟩ := closed_agrees m pageSize
    exact .inr (.inr ⟨ua.server, _, _, by simp [serveUt, run, stores], rfl, after⟩)
  | getAll key =>
    rcases page_agrees m bufferMax key with ⟨ut, list⟩ | ⟨rs, key', u', s', ut, list, after⟩
    · exact .inr (.inl ⟨by simp [serveUt, ut],
        by simp [serve, opofGetAllSessionsServer, list]⟩)
    · exact .inr (.inr ⟨u', s', .getAll rs key', by simp [serveUt, ut],
        by simp [serve, opofGetAllSessionsServer, list], after⟩)

/-- One call, with whatever malloc grants at it. -/
def UtStep (u : UtServer) (l : Call × Reply) (u' : UtServer) : Prop :=
  ∃ malloc, Refuses malloc ∧ serveUt malloc u l.1 = some (u', l.2)

theorem utStep_simulated {u u' : UtServer} {s : Server} {l : Call × Reply} (m : Mirrors u s)
    (step : UtStep u l u') : ∃ s', Step s l s' ∧ Mirrors u' s' := by
  obtain ⟨malloc, refuses, run⟩ := step
  rcases serve_agrees refuses m l.1 with ⟨_, failed⟩ | ⟨failed, _⟩ | ⟨v, s', reply, ut, list, after⟩
  · rw [failed] at run
    cases run
  · rw [failed] at run
    cases run
  · rw [ut] at run
    cases run
    exact ⟨s', list, after⟩

def storeCalls : List Call :=
  [.add { zeroRequest with sessId := 7 }, .add { zeroRequest with sessId := 9 },
    .add { zeroRequest with sessId := 7 }, .getAll uintMax, .getClosed 1]

def callEach (malloc : Nat → Bool) : List Call → UtServer → Option (List (Call × Reply) × UtServer)
  | [], u => some ([], u)
  | c :: cs, u => do
    let (u, reply) ← serveUt malloc u c
    let (es, u) ← callEach malloc cs u
    some ((c, reply) :: es, u)

theorem callEach_path {malloc : Nat → Bool} (refuses : Refuses malloc) {cs : List Call}
    {u u' : UtServer} {es : List (Call × Reply)} (called : callEach malloc cs u = some (es, u')) :
    Path UtStep u es u' := by
  induction cs generalizing u es with
  | nil =>
    cases called
    exact .nil _
  | cons c cs ih =>
    simp only [callEach, Option.bind_eq_bind, Option.bind_eq_some_iff] at called
    obtain ⟨⟨v, reply⟩, first, ⟨rest, w⟩, later, ended⟩ := called
    cases ended
    exact .cons ⟨malloc, refuses, first⟩ (ih later)

/-- Every run of the store over the hash table is a run of the store over the list, call
for call and answer for answer, and ends with the same records in the same order. -/
theorem utStore_refines {rand : Nat → Nat} {es : List (Call × Reply)} {u : UtServer}
    (path : Path UtStep (UtServer.init rand) es u) :
    ∃ s, Path Step (Server.init rand) es s ∧ Mirrors u s := by
  obtain ⟨s, run, after⟩ := path.simulate id Mirrors
    (fun _ _ _ _ m step => utStep_simulated m step) _ (init_mirrors rand)
  exact ⟨s, by simpa using run, after⟩

theorem storeCalls_refines : ∃ es u s, callEach upTo32GiB storeCalls (UtServer.init id) =
    some (es, u) ∧ Path Step (Server.init id) es s ∧ Mirrors u s := by
  obtain ⟨⟨es, u⟩, called⟩ : ∃ r, callEach upTo32GiB storeCalls (UtServer.init id) = some r :=
    ⟨_, rfl⟩
  obtain ⟨s, run, m⟩ := utStore_refines (callEach_path upTo32GiB_refuses called)
  exact ⟨es, u, s, called, run, m⟩

/-- Wherever a run ends, the next call has the same outcome in both stores, unless malloc
refuses an array of buckets. -/
theorem utStore_answers {rand : Nat → Nat} {es : List (Call × Reply)} {u : UtServer}
    (path : Path UtStep (UtServer.init rand) es u) :
    ∃ s, Path Step (Server.init rand) es s ∧ ∀ (call : Call) (malloc : Nat → Bool),
      Refuses malloc → (∀ size ∈ u.sessions.asks, malloc size = true) →
      (serveUt malloc u call).map Prod.snd = (serve s call).map Prod.snd := by
  obtain ⟨s, run, m⟩ := path.simulate id Mirrors
    (fun _ _ _ _ m step => utStep_simulated m step) _ (init_mirrors rand)
  refine ⟨s, by simpa using run, fun call malloc refuses granted => ?_⟩
  rcases serve_agrees refuses m call with ⟨⟨size, asked, refused⟩, _⟩ | ⟨ut, list⟩ |
    ⟨u', s', reply, ut, list, _⟩
  · rw [granted size asked] at refused
    cases refused
  · rw [ut, list]
    rfl
  · rw [ut, list]
    rfl

theorem storeCalls_answers : ∃ es u s, callEach upTo32GiB storeCalls (UtServer.init id) =
    some (es, u) ∧ Path Step (Server.init id) es s ∧ ∀ (call : Call) (malloc : Nat → Bool),
      Refuses malloc → (∀ size ∈ u.sessions.asks, malloc size = true) →
      (serveUt malloc u call).map Prod.snd = (serve s call).map Prod.snd := by
  obtain ⟨⟨es, u⟩, called⟩ : ∃ r, callEach upTo32GiB storeCalls (UtServer.init id) = some r :=
    ⟨_, rfl⟩
  obtain ⟨s, run, same⟩ := utStore_answers (callEach_path upTo32GiB_refuses called)
  exact ⟨es, u, s, called, run, same⟩

end SessionOffload
