import SessionOffload.DeleteAll

/-! Page calls that fail and are made again, as opof_delete_all_sessions makes them. The client
library writes the key of the reply to the caller's variable on every call; the key of an empty
reply is 0, so what the call is made again with is not what it was made with. A caller whose
repetitions all fail is left with no sessions, and so at the end of its loop. -/
namespace SessionOffload
open Paging Loop SessionTableClient

def unavailableAt (fails : Nat → Bool) : Transport where
  getAll := fun n => if fails n then some SessionStatus.unavailable.code else none
  del := fun _ => none
  stack := fun _ => zeroResponse

structure Listing where
  caller : Deleting
  pages : List (List SessionResponseT)

def Listing.begin (s : Server) : Listing := ⟨.begin s, []⟩

/-- A turn of the loop in opof_delete_all_sessions, without the deletions. -/
def Listing.turn (fails : Nat → Bool) (retryAttempts : Nat) (pageSize : Word32) (l : Listing) :
    Option Listing := do
  let d ← attempt Deleting.unavailable (getAllCall (unavailableAt fails) pageSize) retryAttempts
    l.caller
  some ⟨d, if d.unavailable then l.pages else l.pages ++ [d.responses]⟩

def listPages (fails : Nat → Bool) (retryAttempts : Nat) (pageSize : Word32) :
    Nat → Listing → Option Listing
  | 0, l => some l
  | turns + 1, l =>
    if l.caller.nsessions = 0 then some l
    else do
      let l ← l.turn fails retryAttempts pageSize
      listPages fails retryAttempts pageSize turns l

def pagesSent (fails : Nat → Bool) (retryAttempts : Nat) (pageSize : Word32) (turns : Nat)
    (s : Server) : Option (List (List SessionResponseT)) :=
  (listPages fails retryAttempts pageSize turns (.begin s)).map Listing.pages

def reliable : Nat → Bool := fun _ => false

/-- How many calls fail of a turn whose first one is the `i`-th and which makes at most `more`
others. -/
def failedCalls (fails : Nat → Bool) : Nat → Nat → Nat
  | 0, i => if fails i then 1 else 0
  | more + 1, i => if fails i then failedCalls fails more (i + 1) + 1 else 0

/-- The number of the first call of a turn that comes after turns which have all brought a
page. -/
def firstCall (fails : Nat → Bool) (retryAttempts : Nat) : Nat → Nat
  | 0 => 0
  | turn + 1 => firstCall fails retryAttempts turn +
      failedCalls fails retryAttempts (firstCall fails retryAttempts turn) + 1

/-- A repetition loses nothing: the key does not ask to start over, or the cursor stands where
starting over would put it. -/
def Listing.Steady (l : Listing) : Prop :=
  l.caller.sessionStart ≠ uintMax ∨
    l.caller.server.start = l.caller.server.sessions.head?.map RecordT.addr

def Listing.Unharmed (fails : Nat → Bool) (retryAttempts : Nat) (l : Listing) : Prop :=
  let failed := failedCalls fails retryAttempts (firstCall fails retryAttempts l.pages.length)
  failed ≤ retryAttempts ∧ (0 < failed → l.Steady)

structure Listing.Sound (l : Listing) : Prop where
  keyed : l.caller.server.Keyed
  valid : CursorValid (l.caller.server.enter l.caller.sessionStart)

theorem enter_valid {s : Server} (valid : CursorValid s) (key : Word64) :
    CursorValid (s.enter key) := by
  unfold Server.enter
  split
  · exact rewind_valid s
  · exact valid

def Deleting.lost (d : Deleting) : Deleting :=
  { d with
    sessionStart := SessionResponses.empty.nextkey
    nsessions := 0
    responses := []
    status := SessionStatus.unavailable.code
    getAlls := d.getAlls + 1 }

def Deleting.lostAfter : Nat → Deleting → Deleting
  | 0, d => d
  | n + 1, d => d.lost.lostAfter n

theorem lostAfter_keeps (n : Nat) (d : Deleting) :
    (d.lostAfter n).server = d.server ∧ (d.lostAfter n).getAlls = d.getAlls + n := by
  induction n generalizing d with
  | zero => exact ⟨rfl, rfl⟩
  | succ n ih =>
    obtain ⟨server, calls⟩ := ih d.lost
    refine ⟨server, calls.trans ?_⟩
    change d.getAlls + 1 + n = d.getAlls + (n + 1)
    omega

theorem lostAfter_empty {n : Nat} (some_lost : 0 < n) (d : Deleting) :
    (d.lostAfter n).sessionStart = 0#64 ∧ (d.lostAfter n).nsessions = 0 ∧
      (d.lostAfter n).unavailable = true := by
  obtain ⟨n, rfl⟩ := Nat.exists_eq_add_of_lt some_lost
  rw [Nat.zero_add]
  clear some_lost
  induction n generalizing d with
  | zero => exact ⟨rfl, rfl, rfl⟩
  | succ n ih => exact ih d.lost

section Calls
variable {fails : Nat → Bool} (pageSize : Word32)

theorem call_fails {d : Deleting} (fail : fails d.getAlls = true) :
    getAllCall (unavailableAt fails) pageSize d = some d.lost := by
  have lost : (unavailableAt fails).getAll d.getAlls = some SessionStatus.unavailable.code :=
    if_pos fail
  simp only [getAllCall, lost, Deleting.lost]

theorem call_through {d : Deleting} (through : fails d.getAlls = false) :
    getAllCall (unavailableAt fails) pageSize d =
      (getAllSessionsPage bufferMax d.sessionStart d.server).map fun page =>
        d.paged page.1 page.2.1 page.2.2 := by
  have delivered : (unavailableAt fails).getAll d.getAlls = none :=
    if_neg (Bool.eq_false_iff.mp through)
  cases page : getAllSessionsPage bufferMax d.sessionStart d.server with
  | none => simp [getAllCall, delivered, opofGetAllSessions_undefined page]
  | some out => exact getAllCall_page delivered page pageSize

theorem attempt_undefined {d : Deleting} (more : Nat)
    (undefined : getAllCall (unavailableAt fails) pageSize d = none) :
    attempt Deleting.unavailable (getAllCall (unavailableAt fails) pageSize) more d = none := by
  cases more <;> simp [attempt, undefined]

theorem attempt_answered {d : Deleting} (more : Nat) (through : fails d.getAlls = false) :
    attempt Deleting.unavailable (getAllCall (unavailableAt fails) pageSize) more d =
      getAllCall (unavailableAt fails) pageSize d := by
  have call := call_through pageSize through
  cases page : getAllSessionsPage bufferMax d.sessionStart d.server with
  | none =>
    rw [page] at call
    rw [call]
    exact attempt_undefined pageSize more call
  | some out =>
    rw [page] at call
    rw [call]
    exact attempt_once call rfl more

/-- The calls of a turn: those that fail, and the one that gets through unless they have been
too many. -/
theorem attempt_calls (more : Nat) (d : Deleting) :
    let failed := failedCalls fails more d.getAlls
    let calls := attempt Deleting.unavailable (getAllCall (unavailableAt fails) pageSize) more d
    (failed ≤ more → fails (d.lostAfter failed).getAlls = false ∧
      calls = getAllCall (unavailableAt fails) pageSize (d.lostAfter failed)) ∧
    (more < failed → calls = some (d.lostAfter failed)) := by
  induction more generalizing d with
  | zero =>
    cases fail : fails d.getAlls with
    | false =>
      simp only [failedCalls, fail, Bool.false_eq_true, if_false]
      exact ⟨fun _ => ⟨fail, rfl⟩, fun less => absurd less (Nat.lt_irrefl 0)⟩
    | true =>
      simp only [failedCalls, fail, if_true]
      exact ⟨fun none => absurd none (by omega), fun _ => call_fails pageSize fail⟩
  | succ more ih =>
    cases fail : fails d.getAlls with
    | false =>
      simp only [failedCalls, fail, Bool.false_eq_true, if_false]
      exact ⟨fun _ => ⟨fail, attempt_answered pageSize _ fail⟩, fun less => absurd less (by omega)⟩
    | true =>
      obtain ⟨through, gives_up⟩ := ih d.lost
      have again : attempt Deleting.unavailable (getAllCall (unavailableAt fails) pageSize)
          (more + 1) d = attempt _ _ more d.lost :=
        attempt_again (call_fails pageSize fail) rfl more
      simp only [failedCalls, fail, if_true]
      rw [again]
      exact ⟨fun few => through (Nat.le_of_succ_le_succ few),
        fun many => gives_up (Nat.lt_of_succ_lt_succ many)⟩

variable {more : Nat} {l : Listing}

theorem turn_through (few : failedCalls fails more l.caller.getAlls ≤ more) :
    let d := l.caller.lostAfter (failedCalls fails more l.caller.getAlls)
    l.turn fails more pageSize =
      (getAllSessionsPage bufferMax d.sessionStart l.caller.server).map fun page =>
        ⟨d.paged page.1 page.2.1 page.2.2, l.pages ++ [page.1]⟩ := by
  intro d
  obtain ⟨through, calls⟩ := (attempt_calls pageSize more l.caller).1 few
  have server : d.server = l.caller.server := (lostAfter_keeps _ l.caller).1
  have page : getAllCall (unavailableAt fails) pageSize d =
      (getAllSessionsPage bufferMax d.sessionStart d.server).map fun page =>
        d.paged page.1 page.2.1 page.2.2 := call_through pageSize through
  rw [Listing.turn, calls, page, server]
  cases getAllSessionsPage bufferMax d.sessionStart l.caller.server <;> rfl

theorem turn_lost (many : more < failedCalls fails more l.caller.getAlls) :
    l.turn fails more pageSize =
      some ⟨l.caller.lostAfter (failedCalls fails more l.caller.getAlls), l.pages⟩ := by
  have lost := (lostAfter_empty (Nat.zero_lt_of_lt many) l.caller).2.2
  rw [Listing.turn, (attempt_calls pageSize more l.caller).2 many]
  simp [lost]

end Calls

theorem failedCalls_reliable (more i : Nat) : failedCalls reliable more i = 0 := by
  cases more <;> rfl

theorem turn_reliable (more : Nat) (pageSize : Word32) (l : Listing) :
    l.turn reliable more pageSize =
      (getAllSessionsPage bufferMax l.caller.sessionStart l.caller.server).map fun page =>
        ⟨l.caller.paged page.1 page.2.1 page.2.2, l.pages ++ [page.1]⟩ := by
  have none := failedCalls_reliable more l.caller.getAlls
  have turn := @turn_through reliable pageSize more l (by omega)
  rwa [none] at turn

/-- The key has no part in a page but to ask to start over; it comes back when the page is
empty. -/
theorem page_key {s t : Server} {key key' last : Word64} {rs : List SessionResponseT}
    (same : s.enter key' = s.enter key)
    (page : getAllSessionsPage bufferMax key s = some (rs, last, t)) :
    ∃ last', getAllSessionsPage bufferMax key' s = some (rs, last', t) ∧
      (rs = [] ∨ last' = last) := by
  rw [page_run] at page ⊢
  rw [same]
  cases start : (s.enter key).start with
  | none =>
    simp only [start, Option.some.injEq, Prod.mk.injEq] at page
    obtain ⟨rfl, _, rfl⟩ := page
    exact ⟨key', rfl, .inl rfl⟩
  | some a =>
    simp only [start] at page ⊢
    cases found : (s.enter key).fromAddr a with
    | nil =>
      simp only [found] at page
      cases page
    | cons r next =>
      have first (k : Word64) : pageLoop bufferMax (r :: next) ⟨[], k, some a, (s.enter key).rand⟩ =
          pageLoop bufferMax (r :: next) ⟨[], 0#64, some a, (s.enter key).rand⟩ := rfl
      simp only [found, first key] at page
      simp only [first key']
      exact ⟨last, page, .inr rfl⟩

/-- A turn without failures: what it brings is what the table and the cursor say, and the cursor
stays one to go on from. Unless the page is empty the key is an id of the table. -/
theorem turn_sound {l : Listing} (sound : l.Sound) (more : Nat) (pageSize : Word32) :
    ∃ rs key t,
      getAllSessionsPage bufferMax l.caller.sessionStart l.caller.server = some (rs, key, t) ∧
      l.turn reliable more pageSize = some ⟨l.caller.paged rs key t, l.pages ++ [rs]⟩ ∧
      (⟨l.caller.paged rs key t, l.pages ++ [rs]⟩ : Listing).Sound ∧
      t.sessions = l.caller.server.sessions ∧ (rs ≠ [] → key ∈ l.caller.server.ids) ∧
      rs.map SessionResponseT.sessionId =
        ((l.caller.server.enter l.caller.sessionStart).pending.take bufferMax).map
          RecordT.sessionId ∧
      t.pending = (l.caller.server.enter l.caller.sessionStart).pending.drop bufferMax := by
  have pos : 1 ≤ bufferMax := by decide
  obtain ⟨rs, key, t, page, same, _, valid, reported, left, last⟩ :=
    page_spec sound.keyed.blocks bufferMax l.caller.sessionStart sound.valid
  rw [take_served pos] at reported last
  rw [drop_served pos] at left
  have turn := turn_reliable more pageSize l
  rw [page] at turn
  refine ⟨rs, key, t, page, turn, ⟨?_, enter_valid valid key⟩, same, ?_, reported, left⟩
  · exact sound.keyed.sublist (same ▸ List.Sublist.refl _)
  · intro some_sent
    rw [← reported] at last
    have some_ids : rs.map SessionResponseT.sessionId ≠ [] := mt List.map_eq_nil_iff.mp some_sent
    have listed := getLastD_mem some_ids l.caller.sessionStart
    rw [← last, reported] at listed
    obtain ⟨r, member, named⟩ := List.mem_map.mp listed
    have suffix := pending_suffix (l.caller.server.enter l.caller.sessionStart)
    rw [enter_sessions] at suffix
    exact List.mem_map.mpr ⟨r, suffix.subset (List.mem_of_mem_take member), named⟩

theorem Listing.Steady.enter {l : Listing} (steady : l.Steady) :
    l.caller.server.enter l.caller.sessionStart = l.caller.server := by
  rcases steady with other | head
  · exact if_neg other
  · unfold Server.enter Server.rewind
    rw [← head]
    split <;> rfl

/-- The rest of a table without repetitions begins as the table does only where it is all of
it. -/
theorem pending_whole {s : Server} (distinct : s.ids.Nodup)
    (same : (s.pending.take bufferMax).map RecordT.sessionId =
      (s.sessions.take bufferMax).map RecordT.sessionId) : s.pending = s.sessions := by
  obtain ⟨before, split⟩ := pending_suffix s
  cases before with
  | nil => exact split
  | cons r before =>
    rw [Server.ids, ← split, List.cons_append, List.map_cons, List.nodup_cons,
      List.map_append, List.mem_append, not_or] at distinct
    have first : r.sessionId ∈ (s.sessions.take bufferMax).map RecordT.sessionId := by
      rw [← split]
      exact List.mem_cons_self
    rw [← same] at first
    obtain ⟨q, member, named⟩ := List.mem_map.mp first
    exact absurd (named ▸ List.mem_map_of_mem (List.mem_of_mem_take member)) distinct.1.2

structure Twin (fails : Nat → Bool) (retryAttempts : Nat) (u v : Listing) : Prop where
  key : v.caller.sessionStart = u.caller.sessionStart
  count : v.caller.nsessions = u.caller.nsessions
  server : v.caller.server = u.caller.server
  pages : v.pages = u.pages
  calls : v.caller.getAlls = firstCall fails retryAttempts v.pages.length

section Twins
variable {fails : Nat → Bool} {more : Nat} (pageSize : Word32) {u v : Listing}
  (sound : u.Sound) (twin : Twin fails more u v)
include sound twin

/-- A turn whose failed calls do no harm brings the page that the turn without them brings, and
leaves what it leaves, but for the key that comes with an empty page. -/
theorem turn_unharmed (unharmed : u.Unharmed fails more) :
    ∃ u' v', u.turn reliable more pageSize = some u' ∧ u'.Sound ∧
      v.turn fails more pageSize = some v' ∧ v'.pages = u'.pages ∧
      (Twin fails more u' v' ∨ v'.caller.nsessions = 0 ∧ u'.caller.nsessions = 0) := by
  obtain ⟨rs, key, t, page, turn, after, _⟩ := turn_sound sound more pageSize
  obtain ⟨few, steady⟩ := unharmed
  rw [← twin.pages, ← twin.calls] at few steady
  have through := turn_through pageSize few
  have calls := (lostAfter_keeps (failedCalls fails more v.caller.getAlls) v.caller).2
  generalize lost : failedCalls fails more v.caller.getAlls = failed at *
  rw [twin.server] at through
  have same : u.caller.server.enter (v.caller.lostAfter failed).sessionStart =
      u.caller.server.enter u.caller.sessionStart := by
    rcases Nat.eq_zero_or_pos failed with none | some_failed
    · rw [none]
      exact congrArg u.caller.server.enter twin.key
    · rw [(lostAfter_empty some_failed v.caller).1, enter_zero, (steady some_failed).enter]
  obtain ⟨last, repeated, ends⟩ := page_key same page
  simp only [repeated] at through
  refine ⟨_, _, turn, after, through, congrArg (· ++ [rs]) twin.pages, ?_⟩
  rcases ends with rfl | rfl
  · exact .inr ⟨rfl, rfl⟩
  · refine .inl ⟨rfl, rfl, rfl, congrArg (· ++ [rs]) twin.pages, ?_⟩
    change (v.caller.lostAfter failed).getAlls + 1 = _
    rw [calls, List.length_append, List.length_singleton, firstCall, ← twin.calls, lost]

/-- Where starting over is lost the page differs, or there is none; where the caller gives up
there is none either. -/
theorem turn_harmed (harmed : ¬ u.Unharmed fails more) :
    (v.turn fails more pageSize).map Listing.pages ≠
      (u.turn reliable more pageSize).map Listing.pages := by
  obtain ⟨rs, key, t, page, turn, _, _, _, reported, _⟩ := turn_sound sound more pageSize
  rw [turn]
  rcases Nat.lt_or_ge more (failedCalls fails more v.caller.getAlls) with many | few
  · rw [turn_lost pageSize many]
    intro same
    have lengths := congrArg List.length (Option.some.inj same)
    change v.pages.length = (u.pages ++ [rs]).length at lengths
    rw [twin.pages, List.length_append, List.length_singleton] at lengths
    omega
  have through := turn_through pageSize few
  have unsteady : 0 < failedCalls fails more v.caller.getAlls ∧ ¬ u.Steady := by
    rw [Listing.Unharmed, ← twin.pages, ← twin.calls] at harmed
    simpa [few] using harmed
  obtain ⟨some_failed, unsteady⟩ := unsteady
  obtain ⟨same_key, elsewhere⟩ := not_or.mp unsteady
  have rewound : u.caller.server.enter u.caller.sessionStart = u.caller.server.rewind :=
    if_pos (not_not.mp same_key)
  rw [rewound, rewind_pending] at reported
  simp only [(lostAfter_empty some_failed v.caller).1, twin.server] at through
  by_cases valid : CursorValid u.caller.server
  · have pos : 1 ≤ bufferMax := by decide
    obtain ⟨rs', key', t', page', _, _, _, reported', _⟩ :=
      page_spec sound.keyed.blocks bufferMax 0#64 ((enter_zero _).symm ▸ valid)
    rw [take_served pos, enter_zero] at reported'
    rw [through, page', twin.pages]
    intro same
    have pages := List.append_cancel_left (Option.some.inj same)
    have equal : rs' = rs := List.singleton_inj.mp pages
    have all := pending_whole sound.keyed.distinct (reported'.symm.trans (equal ▸ reported))
    have start := start_of_valid sound.keyed.blocks valid
    rw [all] at start
    exact elsewhere start
  · rw [through, page_dangling bufferMax 0#64 ((enter_zero _).symm ▸ valid)]
    simp

end Twins

section Run
variable {fails : Nat → Bool} {more : Nat} {pageSize : Word32}

theorem listPages_turn {l u : Listing} (running : l.caller.nsessions ≠ 0)
    (turn : l.turn fails more pageSize = some u) (turns : Nat) :
    listPages fails more pageSize (turns + 1) l = listPages fails more pageSize turns u := by
  simp only [listPages, if_neg running, turn, Option.bind_eq_bind, Option.bind_some]

theorem listPages_done {l : Listing} (done : l.caller.nsessions = 0) (turns : Nat) :
    listPages fails more pageSize turns l = some l := by
  cases turns with
  | zero => rfl
  | succ n => simp only [listPages, if_pos done]

/-- The failures of a run meet no caller whom they would harm in the run without them. -/
def SteadyFrom (fails : Nat → Bool) (retryAttempts : Nat) (pageSize : Word32) (l : Listing) :
    Prop :=
  ∀ turns u, listPages reliable retryAttempts pageSize turns l = some u →
    u.caller.nsessions ≠ 0 → u.Unharmed fails retryAttempts

theorem steady_pages (turns : Nat) {u v : Listing} (sound : u.Sound) (twin : Twin fails more u v)
    (steady : SteadyFrom fails more pageSize u) :
    (listPages fails more pageSize turns v).map Listing.pages =
      (listPages reliable more pageSize turns u).map Listing.pages := by
  induction turns generalizing u v with
  | zero => exact congrArg some twin.pages
  | succ turns ih =>
    by_cases done : u.caller.nsessions = 0
    · rw [listPages_done done, listPages_done (twin.count.trans done)]
      exact congrArg some twin.pages
    · obtain ⟨u', v', plain, after, turn, pages, ends⟩ :=
        turn_unharmed pageSize sound twin (steady 0 u rfl done)
      rw [listPages_turn done plain, listPages_turn (twin.count.trans_ne done) turn]
      rcases ends with twins | ⟨ended, stopped⟩
      · refine ih after twins fun n w run => steady (n + 1) w ?_
        exact (listPages_turn done plain n).trans run
      · rw [listPages_done ended, listPages_done stopped]
        exact congrArg some pages

theorem first_unharmed {u v : Listing} (sound : u.Sound) (twin : Twin fails more u v)
    (running : u.caller.nsessions ≠ 0)
    (agree : (listPages fails more pageSize 1 v).map Listing.pages =
      (listPages reliable more pageSize 1 u).map Listing.pages) : u.Unharmed fails more := by
  by_contra harmed
  have going := twin.count.trans_ne running
  simp only [listPages, if_neg running, if_neg going, Option.bind_eq_bind] at agree
  exact turn_harmed pageSize sound twin harmed (by simpa using agree)

theorem pages_steady (turns : Nat) {u v w : Listing} (sound : u.Sound)
    (twin : Twin fails more u v)
    (agree : ∀ n, (listPages fails more pageSize n v).map Listing.pages =
      (listPages reliable more pageSize n u).map Listing.pages)
    (run : listPages reliable more pageSize turns u = some w) (running : w.caller.nsessions ≠ 0) :
    w.Unharmed fails more := by
  induction turns generalizing u v with
  | zero =>
    cases run
    exact first_unharmed sound twin running (agree 1)
  | succ turns ih =>
    have going : u.caller.nsessions ≠ 0 := by
      intro done
      rw [listPages_done done] at run
      cases run
      exact running done
    obtain ⟨u', v', plain, after, turn, _, ends⟩ :=
      turn_unharmed pageSize sound twin (first_unharmed sound twin going (agree 1))
    rw [listPages_turn going plain] at run
    rcases ends with twins | ⟨_, stopped⟩
    · refine ih after twins (fun n => ?_) run
      have next := agree (n + 1)
      rwa [listPages_turn going plain, listPages_turn (twin.count.trans_ne going) turn] at next
    · rw [listPages_done stopped] at run
      cases run
      exact absurd stopped running

structure Listing.Reading (s : Server) (k : Nat) (l : Listing) : Prop where
  sound : l.Sound
  table : l.caller.server.sessions = s.sessions
  read : l.pages.length = k
  pending : (l.caller.server.enter l.caller.sessionStart).pending = s.sessions.drop (bufferMax * k)
  later : 0 < k → l.caller.sessionStart ≠ uintMax

theorem begin_sound {s : Server} (keyed : s.Keyed) : (Listing.begin s).Sound := by
  have rewound : s.enter uintMax = s.rewind := if_pos rfl
  exact ⟨keyed, rewound ▸ rewind_valid s⟩

theorem listing_begin {s : Server} (keyed : s.Keyed) : (Listing.begin s).Reading s 0 := by
  have rewound : s.enter uintMax = s.rewind := if_pos rfl
  refine ⟨begin_sound keyed, rfl, rfl, ?_, fun pos => absurd pos (Nat.lt_irrefl 0)⟩
  exact (congrArg Server.pending rewound).trans (rewind_pending s)

theorem listing_turn {s : Server} (plain : ∀ id ∈ s.ids, id ≠ uintMax) {k : Nat} {l : Listing}
    (reading : l.Reading s k) :
    ∃ u, l.turn reliable more pageSize = some u ∧
      (u.caller.nsessions ≠ 0 ↔ k < sliceCount bufferMax s.sessions.length) ∧
      (u.caller.nsessions ≠ 0 → u.Reading s (k + 1)) := by
  obtain ⟨rs, key, t, _, turn, after, same, listed, reported, left⟩ :=
    turn_sound reading.sound more pageSize
  have pos : 1 ≤ bufferMax := by decide
  have count := congrArg List.length reported
  rw [reading.pending] at count left
  simp only [List.length_map, List.length_take, List.length_drop] at count
  refine ⟨_, turn, ?_, fun some_sent => ⟨after, same.trans reading.table, ?_, ?_, ?_⟩⟩
  · rw [lt_sliceCount_iff pos]
    change rs.length ≠ 0 ↔ _
    omega
  · rw [List.length_append, List.length_singleton, reading.read]
  all_goals
    have sent : rs ≠ [] := fun none => some_sent (congrArg List.length none)
    have ids : l.caller.server.ids = s.ids := by rw [Server.ids, reading.table, Server.ids]
    have other : key ≠ uintMax := plain key (ids ▸ listed sent)
  · have stay : t.enter key = t := if_neg other
    rw [List.drop_drop, ← Nat.mul_succ] at left
    exact (congrArg Server.pending stay).trans left
  · exact fun _ => other

theorem listing_run {s : Server} (plain : ∀ id ∈ s.ids, id ≠ uintMax) (turns : Nat) {k : Nat}
    {l : Listing} (reading : l.Reading s k) (running : l.caller.nsessions ≠ 0)
    (inside : k ≤ sliceCount bufferMax s.sessions.length) :
    ∃ u, listPages reliable more pageSize turns l = some u ∧
      (u.caller.nsessions ≠ 0 ↔ k + turns ≤ sliceCount bufferMax s.sessions.length) ∧
      (u.caller.nsessions ≠ 0 → u.Reading s (k + turns)) := by
  induction turns generalizing k l with
  | zero => exact ⟨l, rfl, iff_of_true running inside, fun _ => reading⟩
  | succ turns ih =>
    obtain ⟨u, turn, goes_on, next⟩ := listing_turn plain reading
    rw [listPages_turn running turn]
    by_cases done : u.caller.nsessions = 0
    · have last := mt goes_on.mpr (not_not.mpr done)
      exact ⟨u, listPages_done done turns, by omega, fun more => absurd done more⟩
    · obtain ⟨w, run, ends, reached⟩ := ih (next done) done (goes_on.mp done)
      rw [Nat.add_assoc, Nat.add_comm 1] at ends reached
      exact ⟨w, run, ends, reached⟩

end Run

theorem begin_steady (s : Server) :
    (Listing.begin s).Steady ↔ s.start = s.sessions.head?.map RecordT.addr := by
  constructor
  · rintro (other | head)
    · exact absurd rfl other
    · exact head
  · exact .inr

theorem steady_plain {s : Server} (keyed : s.Keyed) (plain : ∀ id ∈ s.ids, id ≠ uintMax)
    (fails : Nat → Bool) (retryAttempts : Nat) (pageSize : Word32) :
    SteadyFrom fails retryAttempts pageSize (.begin s) ↔
      (∀ k ≤ sliceCount bufferMax s.sessions.length,
        failedCalls fails retryAttempts (firstCall fails retryAttempts k) ≤ retryAttempts) ∧
      (0 < failedCalls fails retryAttempts 0 →
        s.start = s.sessions.head?.map RecordT.addr) := by
  have runs (turns : Nat) :
      ∃ u, listPages reliable retryAttempts pageSize turns (.begin s) = some u ∧
        (u.caller.nsessions ≠ 0 ↔ turns ≤ sliceCount bufferMax s.sessions.length) ∧
        (u.caller.nsessions ≠ 0 → u.Reading s turns) := by
    have run := @listing_run retryAttempts pageSize s plain turns 0 _ (listing_begin keyed)
      Nat.one_ne_zero (Nat.zero_le _)
    rwa [Nat.zero_add] at run
  constructor
  · intro steady
    refine ⟨fun k inside => ?_, fun failed => ?_⟩
    · obtain ⟨u, run, goes_on, reading⟩ := runs k
      have running := goes_on.mpr inside
      have few := (steady k u run running).1
      rwa [(reading running).read] at few
    · exact (begin_steady s).mp ((steady 0 (.begin s) rfl Nat.one_ne_zero).2 failed)
  · rintro ⟨few, first⟩ turns u run running
    obtain ⟨w, same, goes_on, reading⟩ := runs turns
    cases run.symm.trans same
    have here := reading running
    refine ⟨here.read ▸ few turns (goes_on.mp running), fun failed => ?_⟩
    cases turns with
    | zero =>
      cases run
      exact (begin_steady s).mpr (first failed)
    | succ turns => exact .inl (here.later (Nat.succ_pos turns))

/-- Failed calls leave the pages of a listing as they are if and only if no turn has more of them
than there are repetitions, and each is made with a key that does not ask to start over, or with
the cursor where starting over puts it. In a table without the sentinel the key can only go wrong
in the first turn. -/
theorem pages_transparent (s : Server) (keyed : s.Keyed) (pageSize : Word32)
    (retryAttempts : Nat) (fails : Nat → Bool) :
    ((∀ turns, pagesSent fails retryAttempts pageSize turns s =
        pagesSent reliable retryAttempts pageSize turns s) ↔
      SteadyFrom fails retryAttempts pageSize (.begin s)) ∧
    ((∀ id ∈ s.ids, id ≠ uintMax) → (SteadyFrom fails retryAttempts pageSize (.begin s) ↔
      (∀ k ≤ sliceCount bufferMax s.sessions.length,
        failedCalls fails retryAttempts (firstCall fails retryAttempts k) ≤ retryAttempts) ∧
      (0 < failedCalls fails retryAttempts 0 →
        s.start = s.sessions.head?.map RecordT.addr))) := by
  have twin : Twin fails retryAttempts (.begin s) (.begin s) := ⟨rfl, rfl, rfl, rfl, rfl⟩
  have sound := begin_sound keyed
  refine ⟨⟨fun agree turns u run running => ?_, fun steady turns => ?_⟩,
    fun plain => steady_plain keyed plain fails retryAttempts pageSize⟩
  · exact pages_steady turns sound twin agree run running
  · exact steady_pages turns sound twin steady

/-- The second of the two pages of 65 sessions is asked for three times. -/
theorem pages_transparent_repeated :
    (pagesSent (fun n => n == 1 || n == 2) 100 64#32 3 (tableOf (idsFrom 100#64 65) none)).map
        (·.map (·.map SessionResponseT.sessionId)) =
      some [idsFrom 100#64 64, [164#64], []] := by
  have keyed : (tableOf (idsFrom 100#64 65) none).Keyed :=
    tableOf_keyed (idsFrom_nodup 100#64 (by decide)) none
  have plain : ∀ id ∈ (tableOf (idsFrom 100#64 65) none).ids, id ≠ uintMax := by
    rw [tableOf_ids]
    intro id member
    obtain ⟨i, less, rfl⟩ := List.mem_map.mp member
    have small := List.mem_range.mp less
    rw [ne_eq, ← BitVec.toNat_inj, BitVec.toNat_add, BitVec.toNat_ofNat]
    change ¬ (i % 2 ^ 64 + 100) % 2 ^ 64 = 4294967295
    omega
  obtain ⟨transparent, steady⟩ := pages_transparent (tableOf (idsFrom 100#64 65) none) keyed 64#32
    100 (fun n => n == 1 || n == 2)
  rw [transparent.mpr ((steady plain).mpr ⟨by decide, by decide⟩) 3]
  rfl

/-- When the first call fails once, the listing comes back empty. When the calls for the second
page all fail, the listing ends without it. -/
theorem pages_lost :
    (pagesSent (fun n => n == 0) 100 64#32 2 (tableOf [7#64, 8#64] none) = some [[]] ∧
      pagesSent reliable 100 64#32 2 (tableOf [7#64, 8#64] none) ≠ some [[]]) ∧
    ((pagesSent (fun n => 1 ≤ n && n ≤ 101) 100 64#32 3 (tableOf (idsFrom 100#64 65) none)).map
        (·.map (·.map SessionResponseT.sessionId)) = some [idsFrom 100#64 64] ∧
      (pagesSent reliable 100 64#32 3 (tableOf (idsFrom 100#64 65) none)).map
        (·.map (·.map SessionResponseT.sessionId)) = some [idsFrom 100#64 64, [164#64], []]) := by
  refine ⟨⟨rfl, fun same => ?_⟩, rfl, rfl⟩
  cases same

end SessionOffload
