import SessionOffload.Enumeration
import SessionOffload.Lib.Transition

/-! Two clients list the sessions at the same time, each with its own loop. The position of
a listing is kept in the one static cursor of the store, whoever it is that asks. -/
namespace SessionOffload
open Paging Transition

structure Pagers where
  server : Server
  client : Bool → Pager

def Pagers.begin (s : Server) : Pagers := ⟨s, fun _ => .begin⟩

def turn (pageSize : Word32) (w : Pagers) (c : Bool) : Option Pagers :=
  if (w.client c).finished then none
  else do
    let (p, t) ← (w.client c).next pageSize w.server
    some ⟨t, Function.update w.client c p⟩

abbrev Turn (pageSize : Word32) (w : Pagers) (c : Bool) (u : Pagers) : Prop :=
  turn pageSize w c = some u

/-- The other client has been given no session yet, or all of them. -/
def Undisturbed (w : Pagers) (c : Bool) (_ : Pagers) : Prop :=
  (w.client (!c)).ids = [] ∨ (w.client (!c)).ids.length = w.server.sessions.length

theorem turn_cases {pageSize : Word32} {w u : Pagers} {c : Bool} (step : Turn pageSize w c u) :
    (w.client c).finished = false ∧
      (w.client c).next pageSize w.server = some (u.client c, u.server) ∧
      u.client (!c) = w.client (!c) := by
  unfold Turn turn at step
  split at step
  · cases step
  · rename_i running
    simp only [Option.bind_eq_bind, Option.bind_eq_some_iff] at step
    obtain ⟨⟨p, t⟩, next, out⟩ := step
    cases Option.some.inj out
    exact ⟨by simpa using running, by simpa using next, by simp⟩

theorem either {P : Bool → Prop} (c : Bool) (here : P c) (there : P (!c)) : ∀ d, P d := by
  cases c with
  | true => exact fun d => by cases d with | true => exact here | false => exact there
  | false => exact fun d => by cases d with | true => exact there | false => exact here

theorem other_client {c d : Bool} (differ : ¬ c = d) : d = !c := by
  cases c <;> cases d <;> simp at differ ⊢

theorem both_lengths (w : Pagers) (c : Bool) :
    (w.client true).ids.length + (w.client false).ids.length =
      (w.client c).ids.length + (w.client (!c)).ids.length := by
  cases c with
  | true => rfl
  | false => exact Nat.add_comm _ _

section
variable {l : List RecordT} (blocks : (l.map RecordT.addr).Nodup)
  (plain : ∀ i, PageEnd bufferMax l.length i → (l.map RecordT.sessionId)[i]? ≠ some uintMax)

def Turned (p : Pager) : Prop := p.finished = false → p.sessionStart ≠ uintMax

include blocks plain in
theorem turn_at {pageSize : Word32} {w u : Pagers} {c : Bool} {q : Nat}
    (step : Turn pageSize w c u) (here : At l q (w.server.enter (w.client c).sessionStart)) :
    At l (q + bufferMax) u.server ∧ Turned (u.client c) ∧
      (u.client c).ids =
        (w.client c).ids ++ ((l.map RecordT.sessionId).drop q).take bufferMax ∧
      ((u.client c).finished = true ↔ l.length ≤ q) := by
  obtain ⟨_, next, _⟩ := turn_cases step
  obtain ⟨p, t, run, after, ids, finished, key, _⟩ := next_at blocks here pageSize
  rw [next] at run
  cases Option.some.inj run
  refine ⟨after, ?_, ids, finished⟩
  intro more same
  rcases Nat.lt_or_ge q l.length with inside | behind
  · have start : bufferMax ∣ q := here.aligned.resolve_right (by omega)
    exact plain _ (pageEnd_of_start (by decide) start inside) ((key inside).trans (by rw [same]))
  · rw [finished.mpr behind] at more
    cases more

structure Reads (l : List RecordT) (q : Nat) (p : Pager) : Prop where
  ids : p.ids = (l.map RecordT.sessionId).take q
  turned : Turned p
  reached : p.finished = true → l.length ≤ q

/-- One listing at a time: at most one client is in the middle of the table, and the
cursor is where that client is. -/
inductive Orderly (l : List RecordT) (w : Pagers) : Prop where
  | idle (table : w.server.sessions = l) (fresh : ∀ c, w.client c = .begin)
  | reading (c : Bool) (q : Nat) (here : At l q w.server) (moved : bufferMax ≤ q)
      (reads : Reads l q (w.client c))
      (other : w.client (!c) = .begin ∨ Reads l l.length (w.client (!c)))

/-- Both listings are under way and there are too few sessions before the cursor for
both, or one client has too many. -/
structure Spoiled (l : List RecordT) (w : Pagers) : Prop where
  turned : ∀ c, Turned (w.client c)
  position : ∃ q, At l q w.server ∧
    ((w.client true).ids.length + (w.client false).ids.length + (l.length - q) < 2 * l.length ∨
      ∃ c, l.length < (w.client c).ids.length)

theorem orderly_table {w : Pagers} (orderly : Orderly l w) : w.server.sessions = l := by
  cases orderly with
  | idle table => exact table
  | reading c q here => exact here.table

theorem reads_beyond {q k : Nat} {p : Pager} (reads : Reads l q p) (whole : l.length ≤ q)
    (beyond : l.length ≤ k) : Reads l k p where
  ids := by
    rw [reads.ids, List.take_of_length_le (by simpa using whole),
      List.take_of_length_le (by simpa using beyond)]
  turned := reads.turned
  reached := fun _ => beyond

theorem reads_length {q : Nat} {p : Pager} (reads : Reads l q p) :
    p.ids.length = min q l.length := by
  rw [reads.ids, List.length_take, List.length_map]

theorem page_length (q : Nat) :
    (((l.map RecordT.sessionId).drop q).take bufferMax).length = min bufferMax (l.length - q) := by
  rw [List.length_take, List.length_drop, List.length_map]

include blocks plain in
theorem turn_reads {pageSize : Word32} {w u : Pagers} {c : Bool} {q : Nat}
    (step : Turn pageSize w c u) (here : At l q (w.server.enter (w.client c).sessionStart))
    (before : (w.client c).ids = (l.map RecordT.sessionId).take q) :
    At l (q + bufferMax) u.server ∧ Reads l (q + bufferMax) (u.client c) := by
  obtain ⟨after, turned, ids, finished⟩ := turn_at blocks plain step here
  refine ⟨after, ?_, turned, fun done => Nat.le_trans (finished.mp done) (Nat.le_add_right _ _)⟩
  rw [ids, before, List.take_add]

include blocks plain in
theorem turn_orderly {pageSize : Word32} {w u : Pagers} {c : Bool} (orderly : Orderly l w)
    (step : Turn pageSize w c u) (undisturbed : Undisturbed w c u) : Orderly l u := by
  obtain ⟨running, _, others⟩ := turn_cases step
  have first (fresh : w.client c = .begin) :
      At l bufferMax u.server ∧ Reads l bufferMax (u.client c) := by
    have zero := turn_reads blocks plain (q := 0) step
      (by rw [fresh]; exact at_begin (orderly_table orderly)) (by rw [fresh]; rfl)
    rwa [Nat.zero_add] at zero
  cases orderly with
  | idle table fresh =>
    obtain ⟨after, reads⟩ := first (fresh c)
    exact .reading c bufferMax after (Nat.le_refl _) reads (.inl (others.trans (fresh _)))
  | reading d q here moved reads other =>
    by_cases same : c = d
    · subst same
      obtain ⟨after, further⟩ := turn_reads blocks plain step
        (at_continue here (reads.turned running)) reads.ids
      exact .reading c _ after (Nat.le_add_left _ _) further (others ▸ other)
    · cases other_client same
      -- the other client is at the end, so its listing is not disturbed
      have whole : l.length ≤ q := by
        have size : bufferMax = 64 := rfl
        have count := reads_length reads
        rcases undisturbed with none | all
        · rw [none, List.length_nil] at count
          omega
        · rw [here.table] at all
          omega
      have rest := others ▸ reads_beyond reads whole (Nat.le_refl _)
      rw [Bool.not_not] at other
      rcases other with fresh | complete
      · obtain ⟨after, started⟩ := first fresh
        exact .reading c _ after (Nat.le_refl _) started (.inr rest)
      · have there := reads_beyond complete (Nat.le_refl _) whole
        obtain ⟨after, further⟩ := turn_reads blocks plain step
          (at_continue here (complete.turned running)) there.ids
        exact .reading c _ after (Nat.le_add_left _ _) further (.inr rest)

include blocks plain in
/-- A page request in the middle of the other client's listing spoils one of them. -/
theorem turn_spoils {pageSize : Word32} {w u : Pagers} {c : Bool} (orderly : Orderly l w)
    (step : Turn pageSize w c u) (disturbed : ¬ Undisturbed w c u) : Spoiled l u := by
  obtain ⟨running, _, others⟩ := turn_cases step
  have size : bufferMax = 64 := rfl
  simp only [Undisturbed, not_or, orderly_table orderly] at disturbed
  cases orderly with
  | idle table fresh => exact (disturbed.1 (by rw [fresh]; rfl)).elim
  | reading d q here moved reads other =>
    have differ : ¬ c = d := by
      intro same
      subst same
      rcases other with fresh | complete
      · exact disturbed.1 (by rw [fresh]; rfl)
      · exact disturbed.2 (by rw [reads_length complete, Nat.min_self])
    cases other_client differ
    rw [Bool.not_not] at other
    have count := reads_length reads
    have middle : q < l.length := by
      have short := disturbed.2
      omega
    have left : Turned (u.client (!c)) := others ▸ reads.turned
    rcases other with fresh | complete
    · obtain ⟨after, started⟩ := turn_reads blocks plain (q := 0) step
        (by rw [fresh]; exact at_begin here.table) (by rw [fresh]; rfl)
      rw [Nat.zero_add] at after started
      have page := reads_length started
      refine ⟨either c started.turned left, bufferMax, after, .inl ?_⟩
      rw [both_lengths u c, others, count, page]
      omega
    · obtain ⟨after, turned, ids, _⟩ := turn_at blocks plain step
        (at_continue here (complete.turned running))
      refine ⟨either c turned left, q + bufferMax, after, .inr ⟨c, ?_⟩⟩
      rw [ids, List.length_append, reads_length complete, page_length]
      omega

include blocks plain in
theorem turn_spoiled {pageSize : Word32} {w u : Pagers} {c : Bool} (spoiled : Spoiled l w)
    (step : Turn pageSize w c u) : Spoiled l u := by
  obtain ⟨running, _, others⟩ := turn_cases step
  obtain ⟨q, here, wrong⟩ := spoiled.position
  obtain ⟨after, turned, ids, _⟩ := turn_at blocks plain step
    (at_continue here (spoiled.turned c running))
  have page : (u.client c).ids.length =
      (w.client c).ids.length + min bufferMax (l.length - q) := by
    rw [ids, List.length_append, page_length]
  refine ⟨either c turned (others ▸ spoiled.turned (!c)), q + bufferMax, after, ?_⟩
  rcases wrong with short | ⟨d, long⟩
  · left
    rw [both_lengths w c] at short
    rw [both_lengths u c, others, page]
    omega
  · right
    by_cases same : d = c
    · exact ⟨c, by rw [page]; exact Nat.lt_add_right _ (same ▸ long)⟩
    · have swap := other_client (fun equal => same (Eq.symm equal))
      exact ⟨!c, by rw [others]; exact swap ▸ long⟩

theorem orderly_complete {w : Pagers} (orderly : Orderly l w)
    (done : ∀ c, (w.client c).finished = true) (c : Bool) :
    (w.client c).ids = l.map RecordT.sessionId := by
  have whole {q : Nat} {p : Pager} (reads : Reads l q p) (finished : p.finished = true) :
      p.ids = l.map RecordT.sessionId := by
    rw [reads.ids, List.take_of_length_le (by simpa using reads.reached finished)]
  have started (d : Bool) (fresh : w.client d = .begin) : False := by
    have finished := done d
    rw [fresh] at finished
    cases finished
  cases orderly with
  | idle table fresh => exact (started c (fresh c)).elim
  | reading d q here moved reads other =>
    by_cases same : c = d
    · subst same
      exact whole reads (done c)
    · cases other_client (fun equal => same (Eq.symm equal))
      rcases other with fresh | complete
      · exact (started _ fresh).elim
      · exact whole complete (done _)

theorem spoiled_incomplete {w : Pagers} (spoiled : Spoiled l w) :
    ¬ ∀ c, (w.client c).ids = l.map RecordT.sessionId := by
  intro all
  obtain ⟨q, _, short | ⟨c, long⟩⟩ := spoiled.position
  · rw [all, all, List.length_map] at short
    omega
  · rw [all, List.length_map] at long
    omega

include blocks plain in
theorem path_complete_iff {pageSize : Word32} {w u : Pagers} {schedule : List Bool}
    (orderly : Orderly l w) (run : Path (Turn pageSize) w schedule u)
    (done : ∀ c, (u.client c).finished = true) :
    (∀ c, (u.client c).ids = l.map RecordT.sessionId) ↔
      Path (restrict (Turn pageSize) Undisturbed) w schedule u := by
  constructor
  · intro complete
    induction run with
    | nil => exact .nil _
    | @cons w v u c schedule step rest ih =>
      by_cases undisturbed : Undisturbed w c v
      · exact .cons ⟨step, undisturbed⟩
          (ih (turn_orderly blocks plain orderly step undisturbed) done complete)
      · have spoiled := rest.invariant (Spoiled l)
          (fun _ _ _ spoiled step => turn_spoiled blocks plain spoiled step)
          (turn_spoils blocks plain orderly step undisturbed)
        exact (spoiled_incomplete spoiled complete).elim
  · intro path
    have final := path.invariant (Orderly l)
      (fun _ _ _ orderly step => turn_orderly blocks plain orderly step.1 step.2) orderly
    exact orderly_complete final done

end

/-- In every interleaving of two complete listings of an unchanging table, whose pages do
not end in the sentinel, each client is given every session exactly once if and only if
no request is made while the other client has some of the sessions but not all. -/
theorem listings_complete (s : Server) (blocks : (s.sessions.map RecordT.addr).Nodup)
    (plain : ∀ i, PageEnd bufferMax s.sessions.length i → s.ids[i]? ≠ some uintMax)
    (pageSize : Word32) (schedule : List Bool) (w : Pagers)
    (run : Path (Turn pageSize) (.begin s) schedule w)
    (done : ∀ c, (w.client c).finished = true) :
    (∀ c, (w.client c).ids = s.ids) ↔
      Path (restrict (Turn pageSize) Undisturbed) (.begin s) schedule w :=
  path_complete_iff blocks plain (.idle rfl (fun _ => rfl)) run done

/-- Each client lists two pages. The second one begins when the first one has been given every
session, and has been given them before the first one asks for more. -/
theorem listings_complete_pages : ∃ w,
    Path (Turn 64#32) (.begin (tableOf (idsFrom 100#64 65) none))
      [true, true, false, false, true, false] w ∧ ∀ c, (w.client c).ids = idsFrom 100#64 65 := by
  have run : ∃ w, Path (restrict (Turn 64#32) Undisturbed)
      (.begin (tableOf (idsFrom 100#64 65) none)) [true, true, false, false, true, false] w ∧
        ∀ c, (w.client c).finished = true :=
    ⟨_, .cons ⟨rfl, .inl rfl⟩ (.cons ⟨rfl, .inl rfl⟩ (.cons ⟨rfl, .inr rfl⟩
      (.cons ⟨rfl, .inr rfl⟩ (.cons ⟨rfl, .inr rfl⟩ (.single ⟨rfl, .inr rfl⟩))))), by decide⟩
  obtain ⟨w, run, done⟩ := run
  have keyed := tableOf_keyed (idsFrom_nodup 100#64 (by decide : 65 ≤ hashtableSize + 1)) none
  have plain : ∀ i, PageEnd bufferMax (tableOf (idsFrom 100#64 65) none).sessions.length i →
      (tableOf (idsFrom 100#64 65) none).ids[i]? ≠ some uintMax := by
    rw [tableOf_ids]
    exact fun i _ => plain_of_absent (by decide) i
  have each := (listings_complete _ keyed.blocks plain 64#32 _ w run.unrestrict done).mpr run
  exact ⟨w, run.unrestrict, fun c => (each c).trans (tableOf_ids _ _)⟩

theorem turn_exists {l : List RecordT} (blocks : (l.map RecordT.addr).Nodup)
    (plain : ∀ i, PageEnd bufferMax l.length i → (l.map RecordT.sessionId)[i]? ≠ some uintMax)
    (pageSize : Word32) {w : Pagers} (c : Bool) {q : Nat}
    (running : (w.client c).finished = false)
    (here : At l q (w.server.enter (w.client c).sessionStart)) :
    ∃ u, Turn pageSize w c u ∧ u.client (!c) = w.client (!c) ∧ At l (q + bufferMax) u.server ∧
      Turned (u.client c) ∧ (u.client c).ids.length =
        (w.client c).ids.length + min bufferMax (l.length - q) ∧
      ((u.client c).finished = true ↔ l.length ≤ q) := by
  obtain ⟨p, t, run, _⟩ := next_at blocks here pageSize
  have step : Turn pageSize w c ⟨t, Function.update w.client c p⟩ := by
    simp [Turn, turn, running, run]
  obtain ⟨after, turned, ids, finished⟩ := turn_at blocks plain step here
  refine ⟨_, step, (turn_cases step).2.2, after, turned, ?_, finished⟩
  rw [ids, List.length_append, page_length]

/-- Over 65 sessions a second client that starts after the first page of the first one is
never given the last session. -/
theorem listing_disturbed :
    ∃ s w, s.Inv ∧ s.ids = idsFrom 0#64 65 ∧
      Path (Turn 64#32) (.begin s) [true, false, true, false, true] w ∧
      (∀ c, (w.client c).finished = true) ∧ (w.client false).ids ≠ s.ids := by
  obtain ⟨s, fill, _, ids⟩ := fill_reaches (fun _ => 0) 0#64 (by decide : 65 ≤ hashtableSize + 1)
  have inv := path_inv (Server.init_inv _) fill
  have size : bufferMax = 64 := rfl
  have length : s.sessions.length = 65 := by
    rw [← s.length_ids, ids]
    rfl
  have plain : ∀ i, PageEnd bufferMax s.sessions.length i → s.ids[i]? ≠ some uintMax := by
    rw [ids]
    exact fun i _ => plain_of_absent (by decide) i
  have more {p : Pager} {q : Nat} (finished : p.finished = true ↔ s.sessions.length ≤ q)
      (short : q < 65) : p.finished = false := by
    rw [← Bool.not_eq_true, finished]
    omega
  obtain ⟨w₁, step₁, other₁, at₁, turned₁, _, finished₁⟩ :=
    turn_exists inv.blocks plain 64#32 true rfl (w := .begin s) (at_begin rfl)
  have fresh : w₁.client false = .begin := other₁
  obtain ⟨w₂, step₂, other₂, at₂, turned₂, count₂, finished₂⟩ :=
    turn_exists inv.blocks plain 64#32 false (w := w₁) (by rw [fresh]; rfl)
      (by rw [fresh]; exact at_begin at₁.table)
  have running₂ : (w₂.client true).finished = false := other₂ ▸ more finished₁ (by omega)
  have plain₂ : Turned (w₂.client true) := other₂ ▸ turned₁
  obtain ⟨w₃, step₃, other₃, at₃, turned₃, _, finished₃⟩ :=
    turn_exists inv.blocks plain 64#32 true running₂
      (at_continue at₂ (plain₂ running₂))
  have running₃ : (w₃.client false).finished = false := other₃ ▸ more finished₂ (by omega)
  have plain₃ : Turned (w₃.client false) := other₃ ▸ turned₂
  obtain ⟨w₄, step₄, other₄, at₄, _, count₄, finished₄⟩ :=
    turn_exists inv.blocks plain 64#32 false running₃
      (at_continue at₃ (plain₃ running₃))
  have running₄ : (w₄.client true).finished = false := other₄ ▸ more finished₃ (by omega)
  have plain₄ : Turned (w₄.client true) := other₄ ▸ turned₃
  obtain ⟨w₅, step₅, other₅, _, _, _, finished₅⟩ :=
    turn_exists inv.blocks plain 64#32 true running₄
      (at_continue at₄ (plain₄ running₄))
  refine ⟨s, w₅, inv, ids, .cons step₁ (.cons step₂ (.cons step₃ (.cons step₄ (.single step₅)))),
    ?_, ?_⟩
  · refine either true (finished₅.mpr (by omega)) ?_
    rw [other₅]
    exact finished₄.mpr (by omega)
  · intro complete
    have equal := congrArg List.length complete
    have begun : (w₁.client false).ids.length = 0 := by rw [fresh]; rfl
    have kept : (w₃.client false).ids.length = (w₂.client false).ids.length :=
      congrArg (fun p => p.ids.length) other₃
    have last : (w₅.client false).ids.length = (w₄.client false).ids.length :=
      congrArg (fun p => p.ids.length) other₅
    rw [s.length_ids] at equal
    omega

end SessionOffload
