import SessionOffload.SessionServer
import SessionOffload.TestUtil

/-! The stream of closed sessions between one client and the server, step by step. The
handler dequeues a page before it writes it, the client's deadline may expire at any
moment, and nothing is acknowledged: the loop of opof_test10 calls again, once, with the
same array. -/
namespace SessionOffload
open Transition SessionTableImpl

inductive Handler where
  | called
  | admitted
  | writing (unsent : List SessionResponse) (status : GrpcStatus)
  | returned (status : GrpcStatus)

def pageRequest (pageSize : Word32) : SessionRequestArgs := ⟨pageSize, 0#32, 0#64⟩

def Handler.step (pageSize : Word32) (cancelled : Bool) (s : Server) :
    Handler → Option (Handler × List SessionResponse × Server)
  | .called => some (if cancelled then .returned abandoned else .admitted, [], s)
  | .admitted => do
    let (status, messages, t) ← getClosedSessions false (pageRequest pageSize) s
    some (.writing messages status, [], t)
  | .writing (message :: unsent) status => some (.writing unsent status, [message], s)
  | .writing [] status => some (.returned status, [], s)
  | .returned _ => none

def handlerStep (pageSize : Word32) (a : Handler × List SessionResponse × Server) (_ : Unit)
    (b : Handler × List SessionResponse × Server) : Prop :=
  ∃ written, a.1.step pageSize false a.2.2 = some (b.1, written, b.2.2) ∧
    b.2.1 = a.2.1 ++ written

theorem writing_path (pageSize : Word32) (status : GrpcStatus)
    (unsent sent : List SessionResponse) (s : Server) :
    ∃ ls, Path (handlerStep pageSize) (.writing unsent status, sent, s) ls
      (.returned status, sent ++ unsent, s) := by
  induction unsent generalizing sent with
  | nil => exact ⟨[()], .single ⟨[], rfl, rfl⟩⟩
  | cons message unsent ih =>
    obtain ⟨ls, rest⟩ := ih (sent ++ [message])
    rw [List.append_assoc] at rest
    exact ⟨() :: ls, .cons ⟨[message], rfl, rfl⟩ rest⟩

/-- The steps make up the handler: same status, same messages, same store. -/
theorem handler_path {pageSize : Word32} {s t : Server} {status : GrpcStatus}
    {messages : List SessionResponse}
    (run : getClosedSessions false (pageRequest pageSize) s = some (status, messages, t)) :
    ∃ ls, Path (handlerStep pageSize) (.called, [], s) ls (.returned status, messages, t) := by
  obtain ⟨ls, rest⟩ := writing_path pageSize status messages [] t
  have dequeue : handlerStep pageSize (.admitted, [], s) () (.writing messages status, [], t) := by
    refine ⟨[], ?_, rfl⟩
    simp [Handler.step, run]
  exact ⟨() :: () :: ls, .cons ⟨[], rfl, rfl⟩ (.cons dequeue rest)⟩

structure Rpc where
  handler : Handler
  stream : List SessionResponse

/-- The store, the client in its loop, and the handlers of calls it has given up. -/
structure Net where
  server : Server
  rpc : Option Rpc
  orphans : List Handler
  retrying : Bool
  responses : List SessionResponseT
  /-- what the loop has processed -/
  handed : List SessionResponseT

def Net.begin (s : Server) : Net := ⟨s, some ⟨.called, []⟩, [], false, [], []⟩

/-- opof_get_closed_sessions is called: it counts from zero in the array. -/
def Net.request (w : Net) (retrying : Bool) : Net :=
  { w with rpc := some ⟨.called, []⟩, retrying := retrying, responses := [] }

/-- What opof_test10 does when a call returns. -/
def Net.completed (w : Net) (status : Int) : Net :=
  if status = 4 ∧ w.retrying = false then w.request true
  else
    let u := { w with handed := w.handed ++ w.responses }
    if w.responses.length > 0 then u.request false
    else { u with rpc := none }

inductive NetEvent where
  | serve
  | read
  | finish
  | expire
  | orphan (i : Nat) (cancelled : Bool)

/-- `orphan` is a step of a handler whose client has given up; `cancelled` is what
IsCancelled would answer it. What it writes is not delivered. -/
def netStep (pageSize : Word32) (w : Net) : NetEvent → Option Net
  | .serve => do
    let c ← w.rpc
    let (handler, written, t) ← c.handler.step pageSize false w.server
    some { w with server := t, rpc := some ⟨handler, c.stream ++ written⟩ }
  | .read =>
    match w.rpc with
    | some ⟨handler, message :: stream⟩ => some { w with
        rpc := some ⟨handler, stream⟩
        responses := w.responses ++ [convertSessionResponse2c message] }
    | _ => none
  | .finish =>
    match w.rpc with
    | some ⟨.returned status, []⟩ => some (w.completed status.errorCode.code)
    | _ => none
  | .expire => do
    let c ← w.rpc
    some ({ w with orphans := w.orphans ++ [c.handler] }.completed
      SessionStatus.deadlineExceeded.code)
  | .orphan i cancelled => do
    let h ← w.orphans[i]?
    let (handler, _, t) ← h.step pageSize cancelled w.server
    some { w with server := t, orphans := w.orphans.set i handler }

abbrev NetStep (pageSize : Word32) (w : Net) (e : NetEvent) (u : Net) : Prop :=
  netStep pageSize w e = some u

def Handler.unsent : Handler → List Word64
  | .writing unsent _ => unsent.map SessionResponse.sessionId
  | _ => []

def Rpc.underway (c : Rpc) : List Word64 :=
  c.stream.map SessionResponse.sessionId ++ c.handler.unsent

def Net.read (w : Net) : List Word64 := w.responses.map SessionResponseT.sessionId

def Net.pending (w : Net) : List Word64 :=
  match w.rpc with
  | none => []
  | some c => w.read ++ c.underway

def Net.processed (w : Net) : List Word64 := w.handed.map SessionResponseT.sessionId

/-- The sessions an event drops: those of a call that is given up, and a page that a
handler dequeues for nobody. -/
def Net.dropped (pageSize : Word32) (w : Net) : NetEvent → List Word64
  | .expire =>
    match w.rpc with
    | none => []
    | some c => (if w.retrying then [] else w.read) ++ c.underway
  | .orphan i _ =>
    match w.orphans[i]? with
    | some .admitted => w.server.ids.take (closedCount pageSize w.server.sessions.length)
    | _ => []
  | _ => []

theorem filterMap_lookup {α β κ : Type*} [DecidableEq κ] (f : α → β) (l : List (κ × α))
    (distinct : (l.map Prod.fst).Nodup) :
    (l.map Prod.fst).filterMap (fun k => (l.lookup k).map f) = l.map (fun e => f e.2) := by
  induction l with
  | nil => rfl
  | cons e l ih =>
    obtain ⟨k, a⟩ := e
    obtain ⟨fresh, rest⟩ := List.nodup_cons.mp distinct
    have others : (l.map Prod.fst).filterMap (fun j => (((k, a) :: l).lookup j).map f) =
        (l.map Prod.fst).filterMap (fun j => (l.lookup j).map f) := by
      apply List.filterMap_congr
      intro j hj
      have apart : (j == k) = false := by
        simpa using fun same : j = k => fresh (same ▸ hj)
      rw [List.lookup_cons, apart]
    have first : (((k, a) :: l).lookup k).map f = some (f a) := by simp
    simp only [List.map_cons, List.filterMap_cons, first]
    exact congrArg (f a :: ·) (others.trans (ih rest))

def answerOf (scan : ClosedScan) : Option (GrpcStatus × List SessionResponse × Server) :=
  if (closedStores scan ++ closedReads scan).all (· < bufferMax) then
    if scan.i = 0 then some (⟨.notFound, "No Closed Sessions"⟩, [], scan.server)
    else some (.OK,
      (closedReads scan).filterMap (fun i => (scan.stores.lookup i).map closedMessage),
      scan.server)
  else none

theorem getClosedSessions_spec {s t : Server} (inv : s.Inv) {pageSize : Word32}
    {status : GrpcStatus} {messages : List SessionResponse}
    (run : getClosedSessions false (pageRequest pageSize) s = some (status, messages, t)) :
    t.Inv ∧ messages.map SessionResponse.sessionId =
        s.ids.take (closedCount pageSize s.sessions.length) ∧
      t.ids = s.ids.drop (closedCount pageSize s.sessions.length) ∧
      status.errorCode ≠ .deadlineExceeded := by
  obtain ⟨table, stores, names, count, _⟩ := closed_spec inv pageSize
  have after := closed_inv inv pageSize
  have answer : getClosedSessions false (pageRequest pageSize) s =
      answerOf (opofGetClosedSessionsServer pageSize s) := rfl
  rw [answer] at run
  generalize opofGetClosedSessionsServer pageSize s = scan at *
  have left : scan.server.ids = s.ids.drop (closedCount pageSize s.sessions.length) := by
    rw [Server.ids, table, List.map_drop]
    rfl
  have written := filterMap_lookup closedMessage scan.stores
    (by rw [stores]; exact List.nodup_range)
  unfold answerOf at run
  split at run
  · split at run
    · rename_i empty
      cases Option.some.inj run
      rw [count] at empty
      rw [empty] at left ⊢
      exact ⟨after, rfl, left, by decide⟩
    · cases Option.some.inj run
      refine ⟨after, ?_, left, by decide⟩
      rw [closedReads, count, ← stores, written, List.map_map, ← names]
      rfl
  · cases run

theorem getClosedSessions_inside {s : Server} (inv : s.Inv) {pageSize : Word32}
    (few : closedCount pageSize s.sessions.length ≤ bufferMax) :
    ∃ status messages t,
      getClosedSessions false (pageRequest pageSize) s = some (status, messages, t) ∧
      (messages ≠ [] → status = .OK) := by
  obtain ⟨_, stores, _, count, _⟩ := closed_spec inv pageSize
  have answer : getClosedSessions false (pageRequest pageSize) s =
      answerOf (opofGetClosedSessionsServer pageSize s) := rfl
  rw [answer]
  generalize opofGetClosedSessionsServer pageSize s = scan at *
  have inside : (closedStores scan ++ closedReads scan).all (· < bufferMax) = true := by
    rw [closedStores, closedReads, stores, count, List.all_eq_true]
    intro i hi
    have below : i < closedCount pageSize s.sessions.length := by simpa using hi
    exact decide_eq_true (by omega)
  rw [answerOf, if_pos inside]
  split
  · exact ⟨_, _, _, rfl, fun some => (some rfl).elim⟩
  · exact ⟨_, _, _, rfl, fun _ => rfl⟩

theorem getClosedSessions_defined {s : Server} (inv : s.Inv) {pageSize : Word32}
    (page : 1 ≤ pageSize.toNat ∧ pageSize.toNat ≤ bufferMax) :
    ∃ status messages t,
      getClosedSessions false (pageRequest pageSize) s = some (status, messages, t) ∧
      (messages ≠ [] → status = .OK) := by
  apply getClosedSessions_inside inv
  rw [closedCount_of_pos inv page.1]
  exact Nat.le_trans (Nat.min_le_left _ _) page.2

def Handler.Honest : Handler → Prop
  | .writing _ status | .returned status => status.errorCode ≠ .deadlineExceeded
  | _ => True

theorem handler_step {s t : Server} {h h' : Handler} {written : List SessionResponse}
    {pageSize : Word32} {cancelled : Bool} (inv : s.Inv)
    (step : h.step pageSize cancelled s = some (h', written, t)) (x : Word64) :
    t.Inv ∧ (h.Honest → h'.Honest) ∧ s.ids.count x + h.unsent.count x =
      t.ids.count x + (written.map SessionResponse.sessionId).count x + h'.unsent.count x := by
  cases h with
  | called =>
    cases Option.some.inj step
    cases cancelled with
    | true => exact ⟨inv, fun _ => by simp [Handler.Honest, abandoned], by simp [Handler.unsent]⟩
    | false => exact ⟨inv, fun _ => trivial, by simp [Handler.unsent]⟩
  | admitted =>
    simp only [Handler.step, Option.bind_eq_bind, Option.bind_eq_some_iff] at step
    obtain ⟨⟨status, messages, u⟩, run, out⟩ := step
    cases Option.some.inj out
    obtain ⟨after, page, left, honest⟩ := getClosedSessions_spec inv run
    refine ⟨after, fun _ => honest, ?_⟩
    have split := List.take_append_drop (closedCount pageSize s.sessions.length) s.ids
    have count := congrArg (List.count x) split
    rw [List.count_append] at count
    simp only [Handler.unsent, page, left, List.map_nil, List.count_nil]
    omega
  | writing unsent status =>
    cases unsent with
    | nil =>
      cases Option.some.inj step
      exact ⟨inv, fun honest => honest, by simp [Handler.unsent]⟩
    | cons message unsent =>
      cases Option.some.inj step
      refine ⟨inv, fun honest => honest, ?_⟩
      simp only [Handler.unsent, List.map_cons, List.map_nil, List.count_cons, List.count_nil]
      omega
  | returned status => cases step

/-- Every session is in the table, processed, or on its way to the loop. -/
def Net.total (w : Net) (x : Word64) : Nat :=
  w.server.ids.count x + w.processed.count x + w.pending.count x

theorem completed_total (w : Net) (status : Int) (x : Word64) :
    (w.completed status).server = w.server ∧
      w.server.ids.count x + w.processed.count x + w.read.count x =
        (w.completed status).total x +
          (if status = 4 ∧ w.retrying = false then w.read.count x else 0) := by
  unfold Net.completed
  split
  · refine ⟨rfl, ?_⟩
    simp [Net.total, Net.request, Net.processed, Net.pending, Net.read, Rpc.underway,
      Handler.unsent]
  · split
    · refine ⟨rfl, ?_⟩
      simp [Net.total, Net.request, Net.processed, Net.pending, Net.read, Rpc.underway,
        Handler.unsent]
      omega
    · refine ⟨rfl, ?_⟩
      simp [Net.total, Net.processed, Net.pending, Net.read]
      omega

structure Net.Sound (w : Net) : Prop where
  server : w.server.Inv
  honest : ∀ c, w.rpc = some c → c.handler.Honest

theorem completed_sound {w : Net} (inv : w.server.Inv) (status : Int) :
    (w.completed status).Sound := by
  refine ⟨(completed_total w status 0).1 ▸ inv, ?_⟩
  intro c here
  unfold Net.completed at here
  split at here
  · cases here
    trivial
  · split at here
    · cases here
      trivial
    · cases here

inductive NetEffect (pageSize : Word32) (w u : Net) : NetEvent → Prop where
  | served (c : Rpc) (h : Handler) (written : List SessionResponse) (t : Server)
      (here : w.rpc = some c)
      (ran : c.handler.step pageSize false w.server = some (h, written, t))
      (next : u = { w with server := t, rpc := some ⟨h, c.stream ++ written⟩ }) :
      NetEffect pageSize w u .serve
  | received (handler : Handler) (message : SessionResponse) (stream : List SessionResponse)
      (here : w.rpc = some ⟨handler, message :: stream⟩)
      (next : u = { w with
        rpc := some ⟨handler, stream⟩
        responses := w.responses ++ [convertSessionResponse2c message] }) :
      NetEffect pageSize w u .read
  | finished (status : GrpcStatus) (here : w.rpc = some ⟨.returned status, []⟩)
      (next : u = w.completed status.errorCode.code) : NetEffect pageSize w u .finish
  | expired (c : Rpc) (here : w.rpc = some c)
      (next : u = { w with orphans := w.orphans ++ [c.handler] }.completed 4) :
      NetEffect pageSize w u .expire
  | orphaned (i : Nat) (cancelled : Bool) (h h' : Handler) (written : List SessionResponse)
      (t : Server) (here : w.orphans[i]? = some h)
      (ran : h.step pageSize cancelled w.server = some (h', written, t))
      (next : u = { w with server := t, orphans := w.orphans.set i h' }) :
      NetEffect pageSize w u (.orphan i cancelled)

theorem netStep_effect {pageSize : Word32} {w u : Net} {e : NetEvent}
    (step : NetStep pageSize w e u) : NetEffect pageSize w u e := by
  cases e with
  | serve =>
    simp only [NetStep, netStep, Option.bind_eq_bind, Option.bind_eq_some_iff] at step
    obtain ⟨c, here, ⟨h, written, t⟩, ran, out⟩ := step
    exact .served c h written t here ran (Option.some.inj out).symm
  | read =>
    simp only [NetStep, netStep] at step
    split at step
    · rename_i handler message stream here
      exact .received handler message stream here (Option.some.inj step).symm
    · cases step
  | finish =>
    simp only [NetStep, netStep] at step
    split at step
    · rename_i status here
      exact .finished status here (Option.some.inj step).symm
    · cases step
  | expire =>
    simp only [NetStep, netStep, Option.bind_eq_bind, Option.bind_eq_some_iff] at step
    obtain ⟨c, here, out⟩ := step
    exact .expired c here (Option.some.inj out).symm
  | orphan i cancelled =>
    simp only [NetStep, netStep, Option.bind_eq_bind, Option.bind_eq_some_iff] at step
    obtain ⟨h, here, ⟨h', written, t⟩, ran, out⟩ := step
    exact .orphaned i cancelled h h' written t here ran (Option.some.inj out).symm

theorem netStep_sound {pageSize : Word32} {w u : Net} {e : NetEvent} (sound : w.Sound)
    (step : NetStep pageSize w e u) : u.Sound := by
  cases netStep_effect step with
  | served c h written t here ran next =>
    subst next
    obtain ⟨inv, honest, _⟩ := handler_step sound.server ran 0
    refine ⟨inv, ?_⟩
    intro d same
    cases Option.some.inj same
    exact honest (sound.honest c here)
  | received handler message stream here next =>
    subst next
    refine ⟨sound.server, ?_⟩
    intro d same
    cases Option.some.inj same
    exact sound.honest ⟨handler, message :: stream⟩ here
  | finished status here next => exact next ▸ completed_sound sound.server _
  | expired c here next =>
    exact next ▸ completed_sound (w := { w with orphans := w.orphans ++ [c.handler] })
      sound.server 4
  | orphaned i cancelled h h' written t here ran next =>
    subst next
    exact ⟨(handler_step sound.server ran 0).1, sound.honest⟩

theorem orphan_drops {pageSize : Word32} {w : Net} (inv : w.server.Inv) {i : Nat} {cancelled : Bool}
    {h h' : Handler} {written : List SessionResponse} {t : Server} (here : w.orphans[i]? = some h)
    (ran : h.step pageSize cancelled w.server = some (h', written, t)) (x : Word64) :
    w.server.ids.count x =
      t.ids.count x + (w.dropped pageSize (.orphan i cancelled)).count x := by
  cases h with
  | called =>
    cases Option.some.inj ran
    simp [Net.dropped, here]
  | admitted =>
    simp only [Handler.step, Option.bind_eq_bind, Option.bind_eq_some_iff] at ran
    obtain ⟨⟨status, messages, v⟩, run, out⟩ := ran
    cases Option.some.inj out
    obtain ⟨_, _, left, _⟩ := getClosedSessions_spec inv run
    have split := List.take_append_drop
      (closedCount pageSize w.server.sessions.length) w.server.ids
    have count := congrArg (List.count x) split
    rw [List.count_append] at count
    simp only [Net.dropped, here, left]
    omega
  | writing unsent status =>
    cases unsent <;> cases Option.some.inj ran <;> simp [Net.dropped, here]
  | returned status => cases ran

theorem netStep_total {pageSize : Word32} {w u : Net} {e : NetEvent} (sound : w.Sound)
    (step : NetStep pageSize w e u) (x : Word64) :
    w.total x = u.total x + (w.dropped pageSize e).count x := by
  cases netStep_effect step with
  | served c h written t here ran next =>
    subst next
    obtain ⟨_, _, moved⟩ := handler_step sound.server ran x
    simp only [Net.total, Net.pending, here, Net.processed, Net.read, Rpc.underway, Net.dropped,
      List.count_append, List.map_append, List.count_nil]
    omega
  | received handler message stream here next =>
    subst next
    have named : (convertSessionResponse2c message).sessionId = message.sessionId := rfl
    simp only [Net.total, Net.pending, here, Net.processed, Net.read, Rpc.underway, Net.dropped,
      List.count_append, List.map_append, List.map_cons, List.map_nil, List.count_cons,
      List.count_nil, named]
    omega
  | finished status here next =>
    have honest : status.errorCode ≠ .deadlineExceeded := sound.honest _ here
    have other : status.errorCode.code ≠ 4 := by
      revert honest
      cases status.errorCode <;> simp [SessionStatus.code]
    have moved := (completed_total w status.errorCode.code x).2
    rw [← next] at moved
    simp only [other, false_and, if_false] at moved
    simp only [Net.total, Net.pending, here, Rpc.underway, Handler.unsent, Net.dropped,
      List.map_nil, List.append_nil, List.count_nil] at moved ⊢
    omega
  | expired c here next =>
    have moved : w.server.ids.count x + w.processed.count x + w.read.count x =
        u.total x + (if (4 : Int) = 4 ∧ w.retrying = false then w.read.count x else 0) :=
      next ▸ (completed_total { w with orphans := w.orphans ++ [c.handler] } 4 x).2
    have whole : w.total x = w.server.ids.count x + w.processed.count x +
        (w.read.count x + c.underway.count x) := by
      simp [Net.total, Net.pending, here]
    have lost : (w.dropped pageSize .expire).count x =
        (if w.retrying = false then w.read.count x else 0) + c.underway.count x := by
      cases retry : w.retrying <;> simp [Net.dropped, here, retry]
    simp only [true_and] at moved
    omega
  | orphaned i cancelled h h' written t here ran next =>
    have table := orphan_drops sound.server here ran x
    subst next
    simp only [Net.total, Net.pending, Net.processed, Net.read] at table ⊢
    omega

def NothingLost (s : Server) (w : Net) : Prop :=
  ∀ x ∈ s.ids, x ∉ w.server.ids → w.processed.count x + w.pending.count x = 1

/-- No deadline expires when its call has dequeued sessions that the loop is not going to
process, and no handler dequeues sessions for a client that has given up. -/
def Undropped (pageSize : Word32) (w : Net) (e : NetEvent) (_ : Net) : Prop :=
  w.dropped pageSize e = []

structure Balanced (s : Server) (w : Net) : Prop where
  sound : w.Sound
  total : ∀ x, w.total x = s.ids.count x

theorem begin_balanced {s : Server} (inv : s.Inv) : Balanced s (.begin s) := by
  refine ⟨⟨inv, ?_⟩, ?_⟩
  · intro c here
    cases here
    trivial
  · intro x
    simp [Net.total, Net.begin, Net.processed, Net.pending, Net.read, Rpc.underway,
      Handler.unsent]

theorem balanced_nothingLost {s : Server} {w : Net} (balanced : Balanced s w)
    (inv : s.Inv) : NothingLost s w := by
  intro x present gone
  have total := balanced.total x
  rw [List.count_eq_one_of_mem inv.distinct present, Net.total,
    List.count_eq_zero_of_not_mem gone] at total
  omega

theorem netStep_balanced {s : Server} {pageSize : Word32} {w u : Net} {e : NetEvent}
    (balanced : Balanced s w) (step : NetStep pageSize w e u)
    (undropped : Undropped pageSize w e u) : Balanced s u := by
  refine ⟨netStep_sound balanced.sound step, ?_⟩
  intro x
  have total := netStep_total balanced.sound step x
  rw [undropped, List.count_nil, balanced.total x] at total
  exact total.symm

theorem netStep_nothingLost {s : Server} (inv : s.Inv) {pageSize : Word32} {w u : Net}
    {e : NetEvent} (balanced : Balanced s w) (step : NetStep pageSize w e u) :
    NothingLost s u ↔ Undropped pageSize w e u := by
  constructor
  · intro kept
    apply List.eq_nil_iff_forall_not_mem.mpr
    intro x lost
    have some_lost := List.count_pos_iff.mpr lost
    have once := List.nodup_iff_count_le_one.mp inv.distinct x
    have total := netStep_total balanced.sound step x
    rw [balanced.total x] at total
    have present : x ∈ s.ids := List.count_pos_iff.mp (by omega)
    have nowhere : u.total x = 0 := by omega
    rw [Net.total] at nowhere
    have gone : x ∉ u.server.ids := List.count_eq_zero.mp (by omega)
    have found := kept x present gone
    omega
  · intro undropped
    exact balanced_nothingLost (netStep_balanced balanced step undropped) inv

structure Bounded (s : Server) (w : Net) : Prop where
  sound : w.Sound
  total : ∀ x, w.total x ≤ s.ids.count x

theorem balanced_bounded {s : Server} {w : Net} (balanced : Balanced s w) : Bounded s w :=
  ⟨balanced.sound, fun x => Nat.le_of_eq (balanced.total x)⟩

theorem netStep_bounded {s : Server} {pageSize : Word32} {w u : Net} {e : NetEvent}
    (bounded : Bounded s w) (step : NetStep pageSize w e u) : Bounded s u := by
  refine ⟨netStep_sound bounded.sound step, ?_⟩
  intro x
  have moved := netStep_total bounded.sound step x
  have before := bounded.total x
  omega

theorem bounded_processed {s : Server} {w : Net} (inv : s.Inv) (bounded : Bounded s w) :
    w.processed.Nodup ∧ ∀ x ∈ w.processed, x ∈ s.ids ∧ x ∉ w.server.ids := by
  have within (x : Word64) : w.server.ids.count x + w.processed.count x ≤ s.ids.count x := by
    have total := bounded.total x
    rw [Net.total] at total
    omega
  have once := List.nodup_iff_count_le_one.mp inv.distinct
  constructor
  · apply List.nodup_iff_count_le_one.mpr
    intro x
    have room := within x
    have single := once x
    omega
  · intro x handed
    have room := within x
    have found := List.count_pos_iff.mpr handed
    constructor
    · exact List.count_pos_iff.mp (by omega)
    · intro left
      have single := once x
      have kept := List.count_pos_iff.mpr left
      omega

/-- Whatever deadlines expire, a session is handed over at most once and only after it has
left the table. A run loses no report, in any of its states, exactly when none of its
events drops a dequeued session; and then every session that has left the table is handed
over exactly once by the time the loop ends. -/
theorem closed_reports (s : Server) (inv : s.Inv) (pageSize : Word32) :
    (∀ es w, Path (NetStep pageSize) (.begin s) es w →
      w.processed.Nodup ∧ ∀ x ∈ w.processed, x ∈ s.ids ∧ x ∉ w.server.ids) ∧
    (∀ es w, Path (restrict (NetStep pageSize) (fun _ _ u => NothingLost s u)) (.begin s) es w ↔
      Path (restrict (NetStep pageSize) (Undropped pageSize)) (.begin s) es w) ∧
    (∀ es w, Path (restrict (NetStep pageSize) (Undropped pageSize)) (.begin s) es w →
      w.rpc = none → ∀ x ∈ s.ids, x ∉ w.server.ids → w.processed.count x = 1) := by
  have start := begin_balanced inv
  refine ⟨?_, ?_, ?_⟩
  · intro es w path
    have bounded := path.invariant (Bounded s)
      (fun _ _ _ bounded step => netStep_bounded bounded step) (balanced_bounded start)
    exact bounded_processed inv bounded
  · intro es w
    exact Path.restrict_iff (Balanced s)
      (fun _ _ _ balanced step => netStep_nothingLost inv balanced step)
      (fun _ _ _ balanced step undropped => netStep_balanced balanced step undropped) start
  · intro es w path ended x present gone
    have balanced := path.invariant (Balanced s)
      (fun _ _ _ balanced step => netStep_balanced balanced step.1 step.2) start
    have found := balanced_nothingLost balanced inv x present gone
    have idle : w.pending = [] := by rw [Net.pending, ended]
    rwa [idle, List.count_nil, Nat.add_zero] at found

def netStepUndropped (pageSize : Word32) (w : Net) (e : NetEvent) : Option Net :=
  if w.dropped pageSize e = [] then netStep pageSize w e else none

theorem netStepUndropped_sound (pageSize : Word32) (w : Net) (e : NetEvent) (u : Net)
    (run : netStepUndropped pageSize w e = some u) :
    restrict (NetStep pageSize) (Undropped pageSize) w e u := by
  unfold netStepUndropped at run
  split at run
  · exact ⟨run, ‹_›⟩
  · cases run

/-- Three sessions in pages of two. The first call and the one that is to find the table empty
miss their deadlines before anything is dequeued. -/
theorem closed_reports_three : ∃ es w,
    Path (restrict (NetStep 2#32) (Undropped 2#32))
        (.begin (tableOf [7#64, 8#64, 9#64] none)) es w ∧
      w.rpc = none ∧ NetEvent.expire ∈ es ∧ w.processed.count 8#64 = 1 := by
  have run : ∃ w, [.expire, .orphan 0 true, .serve, .serve, .serve, .read, .serve, .serve, .read,
      .finish, .serve, .serve, .serve, .read, .serve, .finish, .serve, .expire, .serve, .serve,
      .serve, .finish].foldlM (netStepUndropped 2#32) (.begin (tableOf [7#64, 8#64, 9#64] none)) =
        some w ∧ w.rpc = none ∧ w.server.ids = [] := ⟨_, rfl, rfl, rfl⟩
  obtain ⟨w, run, ended, empty⟩ := run
  have path := Path.of_foldlM (netStepUndropped_sound 2#32) run
  have inv : (tableOf [7#64, 8#64, 9#64] none).Inv := tableOf_inv (by decide) (by decide) none
  refine ⟨_, w, path, ended, List.mem_cons_self, ?_⟩
  refine (closed_reports _ inv 2#32).2.2 _ _ path ended 8#64 ?_ ?_
  · rw [tableOf_ids]
    decide
  · rw [empty]
    exact List.not_mem_nil

/-- A deadline that expires after the page is dequeued: the retry finds an empty table,
the loop ends, and the session was never handed over. -/
theorem closed_report_lost : ∃ w,
    Path (NetStep 1#32) (.begin (singleTable 7#64))
      [.serve, .serve, .expire, .serve, .serve, .serve, .finish] w ∧
      w.rpc = none ∧ 7#64 ∈ (singleTable 7#64).ids ∧ 7#64 ∉ w.server.ids ∧ w.handed = [] := by
  have path : Path (NetStep 1#32) (.begin (singleTable 7#64))
      [.serve, .serve, .expire, .serve, .serve, .serve, .finish] _ :=
    .cons rfl (.cons rfl (.cons rfl (.cons rfl (.cons rfl (.cons rfl (.single rfl))))))
  exact ⟨_, path, rfl, by decide, by decide, rfl⟩

end SessionOffload
