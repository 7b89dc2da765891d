import SessionOffload.SummaryScan
import SessionOffload.TunnelReads
import SessionOffload.Lib.Arena

/-! The service of tunnels_server.py with its Tunnel objects and its calls side by side. The
table has references to the objects, and an update changes an object in place. A stream of
statistics copies the list of references and goes over it one turn at a time, with other calls
in between; a request of a createIpTunnel stream and a summary are served in one go. -/
namespace SessionOffload
open Transition

abbrev TunnelObjects := Arena Word64 Tunnel

/-- One turn of the createIpTunnel loop. -/
def applyToObjects (call : TunnelCall) (tunnels : TunnelObjects) : Except Raised TunnelObjects :=
  if call.2.operation = operationCreate then do
    let tunnelType ← checkTunnelValidity call.2
    .ok (tunnels.insert call.id (call.tunnel tunnelType))
  else if call.2.operation = operationUpdate then
    match tunnels.read call.id with
    | none => .error .keyError
    | some _ => .ok (tunnels.modify call.id (·.copyIpsec call.2))
  else .ok (tunnels.erase call.id)

def readIpTunnel (tunnels : TunnelObjects) (tunnelId : Word64) : Except Raised IpTunnelResponse :=
  match tunnels.read tunnelId with
  | none => .error .keyError
  | some tunnel => .ok ⟨tunnelId, tunnel.tunnelProto, tunnel.counters⟩

def readIpTunnelStats (tunnels : TunnelObjects) (tunnelId : Word64) :
    Except Raised IpTunnelStatsResponse :=
  match tunnels.read tunnelId with
  | none => .error .keyError
  | some tunnel => .ok ⟨tunnelId, tunnel.counters⟩

structure StatsGenerator where
  iterationCount : Nat
  tunnelsToIterate : List Nat
  i : Nat
  tunnelsToSend : List IpTunnelStatsResponse

inductive StatsTurn where
  | sent (message : IpTunnelStatsResponses)
  | held
  | finished
  deriving DecidableEq, Repr

def StatsGenerator.start (tunnelsPerRequest : Word32) (tunnels : TunnelObjects) : StatsGenerator :=
  ⟨tunnelsPerRequest.toNat, tunnels.names.values, 0, []⟩

/-- The response is filled from the object as it is at this turn. -/
def StatsGenerator.advance (tunnel : Tunnel) (g : StatsGenerator) : StatsGenerator × StatsTurn :=
  let tunnelsToSend := g.tunnelsToSend ++ [tunnel.statsResponse]
  if tunnelsToSend.length = g.iterationCount ∨ g.i = g.tunnelsToIterate.length - 1 then
    ({ g with i := g.i + 1, tunnelsToSend := [] }, .sent ⟨tunnelsToSend⟩)
  else ({ g with i := g.i + 1, tunnelsToSend := tunnelsToSend }, .held)

/-- None is a reference to no object, of which there are none. -/
def StatsGenerator.turn (objects : List Tunnel) (g : StatsGenerator) :
    Option (StatsGenerator × StatsTurn) :=
  match g.tunnelsToIterate[g.i]? with
  | none => some (g, .finished)
  | some reference => objects[reference]?.map fun tunnel => g.advance tunnel

structure TunnelService where
  tunnels : TunnelObjects
  streams : List StatsGenerator

def TunnelService.empty : TunnelService := ⟨.empty, []⟩

inductive ServiceCall where
  | capabilities
  | request (call : TunnelCall)
  | summary
  | getIpTunnel (tunnelId : Word64)
  | getIpTunnelStats (tunnelId : Word64)
  | getAllIpTunnelsStats (tunnelsPerRequest : Word32)
  | next (stream : Nat)
  deriving DecidableEq, Repr

inductive ServiceReply where
  | capabilities (response : CapabilityResponse)
  | applied (raised : Option Raised)
  | printed (lines : Except Raised (List String))
  | tunnel (response : Except Raised IpTunnelResponse)
  | stats (response : Except Raised IpTunnelStatsResponse)
  | opened (stream : Nat)
  | turned (turn : StatsTurn)

def serviceServe (s : TunnelService) : ServiceCall → Option (TunnelService × ServiceReply)
  | .capabilities => some (s, .capabilities capabilities)
  | .request call =>
    match applyToObjects call s.tunnels with
    | .error e => some (s, .applied (some e))
    | .ok changed => some ({ s with tunnels := changed }, .applied none)
  | .summary => some (s, .printed (printedSummary s.tunnels.contents))
  | .getIpTunnel tunnelId => some (s, .tunnel (readIpTunnel s.tunnels tunnelId))
  | .getIpTunnelStats tunnelId => some (s, .stats (readIpTunnelStats s.tunnels tunnelId))
  | .getAllIpTunnelsStats tunnelsPerRequest =>
    some ({ s with streams := s.streams ++ [.start tunnelsPerRequest s.tunnels] },
      .opened s.streams.length)
  | .next stream => do
    let g ← s.streams[stream]?
    let (g, turn) ← g.turn s.tunnels.objects
    some ({ s with streams := s.streams.set stream g }, .turned turn)

abbrev ServiceLabel := ServiceCall × ServiceReply

abbrev ServiceStep : TunnelService → ServiceLabel → TunnelService → Prop := serves serviceServe

section Objects

theorem applyToObjects_contents (call : TunnelCall) (tunnels : TunnelObjects) :
    (applyToObjects call tunnels).map Arena.contents = applyCall tunnels.contents call := by
  unfold applyToObjects applyCall applyRequest
  split
  · cases checkTunnelValidity call.2 with
    | error e => rfl
    | ok tunnelType => exact congrArg Except.ok (tunnels.contents_insert call.id _)
  · split
    · have same := tunnels.read_contents call.id
      rw [TunnelCall.id] at same ⊢
      cases stored : tunnels.read call.2.tunnelId with
      | none =>
        rw [stored] at same
        simp only [← same]
        rfl
      | some tunnel =>
        rw [stored] at same
        simp only [← same]
        exact congrArg Except.ok (Arena.contents_modify stored _)
    · exact congrArg Except.ok (tunnels.contents_erase call.id)

theorem readIpTunnel_contents (tunnels : TunnelObjects) (tunnelId : Word64) :
    readIpTunnel tunnels tunnelId = getIpTunnel tunnels.contents tunnelId := by
  have same := tunnels.read_contents tunnelId
  cases stored : tunnels.contents.get? tunnelId with
  | none => simp only [readIpTunnel, getIpTunnel, same, stored]
  | some tunnel => simp only [readIpTunnel, getIpTunnel, same, stored]

theorem readIpTunnelStats_contents (tunnels : TunnelObjects) (tunnelId : Word64) :
    readIpTunnelStats tunnels tunnelId = getIpTunnelStats tunnels.contents tunnelId := by
  have same := tunnels.read_contents tunnelId
  cases stored : tunnels.contents.get? tunnelId with
  | none => simp only [readIpTunnelStats, getIpTunnelStats, same, stored]
  | some tunnel => simp only [readIpTunnelStats, getIpTunnelStats, same, stored]

/-- What the statistics say of an object, no request changes. -/
theorem applyToObjects_aspects {call : TunnelCall} {tunnels changed : TunnelObjects}
    (run : applyToObjects call tunnels = .ok changed) :
    tunnels.aspects Tunnel.statsResponse <+: changed.aspects Tunnel.statsResponse := by
  unfold applyToObjects at run
  split at run
  · cases check : checkTunnelValidity call.2 with
    | error e =>
      rw [check] at run
      cases run
    | ok tunnelType =>
      rw [check] at run
      cases run
      rw [Arena.aspects_insert]
      exact List.prefix_append _ _
  · split at run
    · split at run
      · cases run
      · cases run
        have same : ∀ tunnel : Tunnel, (tunnel.copyIpsec call.2).statsResponse =
            tunnel.statsResponse := fun _ => rfl
        have kept := tunnels.aspects_modify Tunnel.statsResponse call.id same
        exact kept ▸ List.prefix_refl _
    · cases run
      exact List.prefix_refl _

end Objects

def ServiceLabel.request? : ServiceLabel → Option (TunnelCall × Option Raised)
  | (.request call, .applied raised) => some (call, raised)
  | _ => none

def requestsOf (ls : List ServiceLabel) : List (TunnelCall × Option Raised) :=
  ls.filterMap ServiceLabel.request?

def ServiceLabel.sent? (stream : Nat) : ServiceLabel → Option IpTunnelStatsResponses
  | (.next k, .turned (.sent message)) => if k = stream then some message else none
  | _ => none

def messagesOf (stream : Nat) (ls : List ServiceLabel) : List IpTunnelStatsResponses :=
  ls.filterMap (ServiceLabel.sent? stream)

def turnsOf (stream : Nat) (ls : List ServiceLabel) : Nat :=
  ls.countP fun l => l.1 = .next stream

theorem service_tunnelStep {s t : TunnelService} {l : ServiceLabel} (step : ServiceStep s l t) :
    Path TunnelStep s.tunnels.contents l.request?.toList t.tunnels.contents := by
  obtain ⟨call, reply⟩ := l
  have same (unchanged : (t.tunnels, ServiceLabel.request? (call, reply)) = (s.tunnels, none)) :
      Path TunnelStep s.tunnels.contents (ServiceLabel.request? (call, reply)).toList
        t.tunnels.contents := by
    obtain ⟨tunnels, request⟩ := Prod.mk.inj unchanged
    rw [tunnels, request]
    exact .nil _
  cases call with
  | request call =>
    have spec := applyToObjects_contents call s.tunnels
    simp only [serves, serviceServe] at step
    cases run : applyToObjects call s.tunnels with
    | error e =>
      simp only [run, Option.some.injEq, Prod.mk.injEq] at step
      obtain ⟨rfl, rfl⟩ := step
      rw [run] at spec
      have raised : applyRequest call.1 call.2 s.tunnels.contents = .error e := spec.symm
      exact .single (by simp only [serves, tunnelServe, raised])
    | ok changed =>
      simp only [run, Option.some.injEq, Prod.mk.injEq] at step
      obtain ⟨rfl, rfl⟩ := step
      rw [run] at spec
      have done : applyRequest call.1 call.2 s.tunnels.contents = .ok changed.contents := spec.symm
      exact .single (by simp only [serves, tunnelServe, done])
  | next stream =>
    simp only [serves, serviceServe, Option.bind_eq_bind, Option.bind_eq_some_iff] at step
    obtain ⟨g, _, ⟨g', turn⟩, _, done⟩ := step
    cases done
    exact same rfl
  | capabilities =>
    cases step
    exact same rfl
  | summary =>
    cases step
    exact same rfl
  | getIpTunnel tunnelId =>
    cases step
    exact same rfl
  | getIpTunnelStats tunnelId =>
    cases step
    exact same rfl
  | getAllIpTunnelsStats tunnelsPerRequest =>
    cases step
    exact same rfl

theorem service_requests {s t : TunnelService} {ls : List ServiceLabel}
    (path : Path ServiceStep s ls t) :
    Path TunnelStep s.tunnels.contents (requestsOf ls) t.tunnels.contents := by
  induction path with
  | nil => exact .nil _
  | @cons s u t l ls step _ ih =>
    have split : requestsOf (l :: ls) = l.request?.toList ++ requestsOf ls := by
      rw [requestsOf, List.filterMap_cons]
      cases l.request? <;> rfl
    rw [split]
    exact (service_tunnelStep step).append ih

section Streams
variable {values : List Tunnel} {stream : Nat} {s t : TunnelService} {g : StatsGenerator}

/-- The objects that a stream goes over still say what the values said when it was opened. -/
structure Reading (values : List Tunnel) (stream : Nat) (s : TunnelService) (g : StatsGenerator) :
    Prop where
  generator : s.streams[stream]? = some g
  length : g.tunnelsToIterate.length = values.length
  frozen : ∀ (i reference : Nat) (v : Tunnel), g.tunnelsToIterate[i]? = some reference →
    values[i]? = some v →
    (s.tunnels.aspects Tunnel.statsResponse)[reference]? = some v.statsResponse
  within : g.i ≤ values.length

def StatsGenerator.rest (values : List Tunnel) (g : StatsGenerator) :
    List IpTunnelStatsResponses :=
  statsLoop g.iterationCount values.length g.i g.tunnelsToSend (values.drop g.i)

def StatsTurn.message? : StatsTurn → Option IpTunnelStatsResponses
  | .sent message => some message
  | .held => none
  | .finished => none

theorem rest_finished (finished : g.i = values.length) : g.rest values = [] := by
  rw [StatsGenerator.rest, finished, List.drop_length]
  rfl

structure Advanced (values : List Tunnel) (g g' : StatsGenerator) (turn : StatsTurn) : Prop where
  next : g'.i = g.i + 1
  more : g.i < values.length
  same : g'.tunnelsToIterate = g.tunnelsToIterate
  sends : g.rest values = turn.message?.toList ++ g'.rest values
  goesOn : turn ≠ .finished

theorem advance_spec {tunnel v : Tunnel} (length : g.tunnelsToIterate.length = values.length)
    (there : values[g.i]? = some v) (same : tunnel.statsResponse = v.statsResponse) :
    Advanced values g (g.advance tunnel).1 (g.advance tunnel).2 := by
  obtain ⟨more, here⟩ := List.getElem?_eq_some_iff.mp there
  have split : values.drop g.i = v :: values.drop (g.i + 1) := by
    rw [List.drop_eq_getElem_cons more, here]
  unfold StatsGenerator.advance
  simp only [same]
  split
  · next flush =>
    refine ⟨rfl, more, rfl, ?_, fun ended => by cases ended⟩
    rw [length] at flush
    rw [StatsGenerator.rest, split]
    simp only [statsLoop, if_pos flush]
    rfl
  · next hold =>
    refine ⟨rfl, more, rfl, ?_, fun ended => by cases ended⟩
    rw [length] at hold
    rw [StatsGenerator.rest, split]
    simp only [statsLoop, if_neg hold]
    rfl

theorem turn_spec (reading : Reading values stream s g) {g' : StatsGenerator} {turn : StatsTurn}
    (run : g.turn s.tunnels.objects = some (g', turn)) :
    (g.i = values.length ∧ g' = g ∧ turn = .finished) ∨ Advanced values g g' turn := by
  unfold StatsGenerator.turn at run
  cases named : g.tunnelsToIterate[g.i]? with
  | none =>
    rw [named] at run
    cases run
    have past := List.getElem?_eq_none_iff.mp named
    rw [reading.length] at past
    exact .inl ⟨Nat.le_antisymm reading.within past, rfl, rfl⟩
  | some reference =>
    rw [named] at run
    obtain ⟨tunnel, object, done⟩ := Option.map_eq_some_iff.mp run
    obtain ⟨within, _⟩ := List.getElem?_eq_some_iff.mp named
    rw [reading.length] at within
    have there := List.getElem?_eq_getElem within
    have said := reading.frozen g.i reference _ named there
    rw [Arena.aspects, List.getElem?_map, object, Option.map_some, Option.some.injEq] at said
    have advanced := advance_spec reading.length there said
    rw [done] at advanced
    exact .inr advanced

theorem reading_other (reading : Reading values stream s g)
    (kept : s.tunnels.aspects Tunnel.statsResponse <+: t.tunnels.aspects Tunnel.statsResponse)
    (generator : t.streams[stream]? = some g) : Reading values stream t g where
  generator := generator
  length := reading.length
  within := reading.within
  frozen := by
    intro i reference v named there
    have said := reading.frozen i reference v named there
    obtain ⟨more, grown⟩ := kept
    rw [← grown, List.getElem?_append_left (List.getElem?_eq_some_iff.mp said).1]
    exact said

structure Progress (values : List Tunnel) (stream : Nat) (g : StatsGenerator)
    (ls : List ServiceLabel) (g' : StatsGenerator) : Prop where
  sends : g.rest values = messagesOf stream ls ++ g'.rest values
  moves : g'.i = min (g.i + turnsOf stream ls) values.length
  ends : (.next stream, .turned .finished) ∈ ls → g'.i = values.length

theorem progress_none (reading : Reading values stream s g) {l : ServiceLabel}
    (other : l.1 ≠ .next stream) : Progress values stream g [l] g := by
  have silent : l.sent? stream = none := by
    unfold ServiceLabel.sent?
    split
    · next k message =>
      have apart : k ≠ stream := fun same => other (congrArg ServiceCall.next same)
      rw [if_neg apart]
    · rfl
  have still : turnsOf stream [l] = 0 := by
    rw [turnsOf, List.countP_singleton, if_neg (by simpa using other)]
  refine ⟨?_, ?_, fun member => ?_⟩
  · rw [messagesOf, List.filterMap_cons_none silent]
    rfl
  · rw [still, Nat.add_zero, Nat.min_eq_left reading.within]
  · rw [← List.mem_singleton.mp member] at other
    exact absurd rfl other

theorem progress_turn (reading : Reading values stream s g) {g' : StatsGenerator}
    {turn : StatsTurn} (run : g.turn s.tunnels.objects = some (g', turn)) :
    Progress values stream g [(.next stream, .turned turn)] g' := by
  have one : turnsOf stream [((.next stream, .turned turn) : ServiceLabel)] = 1 := by
    rw [turnsOf, List.countP_singleton, if_pos (decide_eq_true rfl)]
  have sent : messagesOf stream [(.next stream, .turned turn)] = turn.message?.toList := by
    cases turn with
    | sent message =>
      have here : ServiceLabel.sent? stream (.next stream, .turned (.sent message)) =
          some message := if_pos rfl
      rw [messagesOf, List.filterMap_cons_some here]
      rfl
    | held => rfl
    | finished => rfl
  rcases turn_spec reading run with ⟨past, rfl, rfl⟩ | advanced
  · refine ⟨?_, ?_, fun _ => past⟩
    · rw [sent]
      rfl
    · rw [one, past, Nat.min_eq_right (Nat.le_succ _)]
  · refine ⟨by rw [sent, advanced.sends], ?_, fun member => ?_⟩
    · rw [one, advanced.next, Nat.min_eq_left advanced.more]
    · cases List.mem_singleton.mp member
      exact absurd rfl advanced.goesOn

theorem progress_trans {g' g'' : StatsGenerator} {l : ServiceLabel} {ls : List ServiceLabel}
    (first : Progress values stream g [l] g') (later : Progress values stream g' ls g'') :
    Progress values stream g (l :: ls) g'' := by
  have messages : messagesOf stream (l :: ls) = messagesOf stream [l] ++ messagesOf stream ls := by
    rw [messagesOf, messagesOf, messagesOf, ← List.filterMap_append, List.singleton_append]
  have turns : turnsOf stream (l :: ls) = turnsOf stream [l] + turnsOf stream ls := by
    rw [turnsOf, turnsOf, turnsOf, ← List.countP_append, List.singleton_append]
  have here := first.moves
  have there := later.moves
  refine ⟨?_, by omega, fun member => ?_⟩
  · rw [messages, List.append_assoc, ← later.sends, first.sends]
  · rcases List.mem_cons.mp member with rfl | member
    · have ended := first.ends (List.mem_singleton_self _)
      omega
    · exact later.ends member

theorem service_frame {l : ServiceLabel} (step : ServiceStep s l t) (other : l.1 ≠ .next stream)
    (generator : s.streams[stream]? = some g) :
    s.tunnels.aspects Tunnel.statsResponse <+: t.tunnels.aspects Tunnel.statsResponse ∧
      t.streams[stream]? = some g := by
  obtain ⟨call, reply⟩ := l
  cases call with
  | request call =>
    simp only [serves, serviceServe] at step
    cases run : applyToObjects call s.tunnels with
    | error e =>
      rw [run] at step
      cases step
      exact ⟨List.prefix_refl _, generator⟩
    | ok changed =>
      rw [run] at step
      cases step
      exact ⟨applyToObjects_aspects run, generator⟩
  | getAllIpTunnelsStats tunnelsPerRequest =>
    cases step
    refine ⟨List.prefix_refl _, ?_⟩
    rw [List.getElem?_append_left (List.getElem?_eq_some_iff.mp generator).1]
    exact generator
  | next k =>
    simp only [serves, serviceServe, Option.bind_eq_bind, Option.bind_eq_some_iff] at step
    obtain ⟨_, _, ⟨g', turn⟩, _, done⟩ := step
    cases done
    have apart : k ≠ stream := fun same => other (congrArg ServiceCall.next same)
    refine ⟨List.prefix_refl _, ?_⟩
    rw [List.getElem?_set_ne apart]
    exact generator
  | capabilities =>
    cases step
    exact ⟨List.prefix_refl _, generator⟩
  | summary =>
    cases step
    exact ⟨List.prefix_refl _, generator⟩
  | getIpTunnel tunnelId =>
    cases step
    exact ⟨List.prefix_refl _, generator⟩
  | getIpTunnelStats tunnelId =>
    cases step
    exact ⟨List.prefix_refl _, generator⟩

theorem reading_step {l : ServiceLabel} (step : ServiceStep s l t)
    (reading : Reading values stream s g) :
    ∃ g', Reading values stream t g' ∧ Progress values stream g [l] g' := by
  by_cases here : l.1 = .next stream
  · obtain ⟨call, reply⟩ := l
    cases here
    simp only [serves, serviceServe, Option.bind_eq_bind, Option.bind_eq_some_iff] at step
    obtain ⟨_, same, ⟨g', turn⟩, run, done⟩ := step
    cases done
    cases reading.generator.symm.trans same
    obtain ⟨known, _⟩ := List.getElem?_eq_some_iff.mp reading.generator
    have generator : (s.streams.set stream g')[stream]? = some g' := List.getElem?_set_self known
    refine ⟨g', ?_, progress_turn reading run⟩
    rcases turn_spec reading run with ⟨_, rfl, _⟩ | advanced
    · exact ⟨generator, reading.length, reading.frozen, reading.within⟩
    · refine ⟨generator, ?_, ?_, ?_⟩
      · rw [advanced.same, reading.length]
      · rw [advanced.same]
        exact reading.frozen
      · rw [advanced.next]
        exact advanced.more
  · obtain ⟨kept, generator⟩ := service_frame step here reading.generator
    exact ⟨g, reading_other reading kept generator, progress_none reading here⟩

theorem reading_run {ls : List ServiceLabel} (path : Path ServiceStep s ls t)
    (reading : Reading values stream s g) :
    ∃ g', Reading values stream t g' ∧ Progress values stream g ls g' := by
  induction path generalizing g with
  | nil =>
    refine ⟨g, reading, rfl, ?_, fun member => absurd member List.not_mem_nil⟩
    exact (Nat.min_eq_left reading.within).symm
  | cons step _ ih =>
    obtain ⟨g', next, first⟩ := reading_step step reading
    obtain ⟨g'', last, later⟩ := ih next
    exact ⟨g'', last, progress_trans first later⟩

theorem reading_start (tunnelsPerRequest : Word32) (s : TunnelService) :
    Reading s.tunnels.contents.values s.streams.length
      { s with streams := s.streams ++ [.start tunnelsPerRequest s.tunnels] }
      (.start tunnelsPerRequest s.tunnels) where
  generator := List.getElem?_concat_length
  length := by
    have same := congrArg List.length s.tunnels.contents_values
    rw [List.length_map, List.length_map] at same
    exact same.symm
  within := Nat.zero_le _
  frozen := by
    intro i reference v named there
    have values := congrArg (·[i]?) s.tunnels.contents_values
    have named : s.tunnels.names.values[i]? = some reference := named
    simp only [List.getElem?_map, there, named, Option.map_some, Option.some.injEq] at values
    rw [Arena.aspects, List.getElem?_map, ← values, Option.map_some]

end Streams

/-- What a table of values would have answered. A stream answers as if it had been read at once
when it was opened: what it sends are the first of those messages, and all of them from the
turn on that is past the last tunnel. -/
inductive AnsweredAt (tunnels : TunnelTable) (after : List ServiceLabel) :
    ServiceCall → ServiceReply → Prop where
  | capabilities : AnsweredAt tunnels after .capabilities (.capabilities capabilities)
  | applied {call : TunnelCall} {raised : Option Raised}
      (outcome : (tunnelServe tunnels call).map Prod.snd = some raised) :
      AnsweredAt tunnels after (.request call) (.applied raised)
  | printed : AnsweredAt tunnels after .summary (.printed (printedSummary tunnels))
  | tunnel {tunnelId : Word64} :
      AnsweredAt tunnels after (.getIpTunnel tunnelId) (.tunnel (getIpTunnel tunnels tunnelId))
  | stats {tunnelId : Word64} :
      AnsweredAt tunnels after (.getIpTunnelStats tunnelId)
        (.stats (getIpTunnelStats tunnels tunnelId))
  | opened {tunnelsPerRequest : Word32} {stream : Nat}
      (sends : messagesOf stream after <+: getAllIpTunnelsStats tunnelsPerRequest tunnels)
      (turns : tunnels.values.length ≤ turnsOf stream after →
        messagesOf stream after = getAllIpTunnelsStats tunnelsPerRequest tunnels)
      (ended : (.next stream, .turned .finished) ∈ after →
        messagesOf stream after = getAllIpTunnelsStats tunnelsPerRequest tunnels) :
      AnsweredAt tunnels after (.getAllIpTunnelsStats tunnelsPerRequest) (.opened stream)
  | turned {stream : Nat} {turn : StatsTurn} :
      AnsweredAt tunnels after (.next stream) (.turned turn)

theorem opened_answered {s t : TunnelService} {after : List ServiceLabel}
    (tunnelsPerRequest : Word32)
    (path : Path ServiceStep
      { s with streams := s.streams ++ [.start tunnelsPerRequest s.tunnels] } after t) :
    AnsweredAt s.tunnels.contents after (.getAllIpTunnelsStats tunnelsPerRequest)
      (.opened s.streams.length) := by
  obtain ⟨g', reading, progress⟩ := reading_run path (reading_start tunnelsPerRequest s)
  have all : getAllIpTunnelsStats tunnelsPerRequest s.tunnels.contents =
      messagesOf s.streams.length after ++ g'.rest s.tunnels.contents.values := progress.sends
  have sent (finished : g'.i = s.tunnels.contents.values.length) :
      messagesOf s.streams.length after =
        getAllIpTunnelsStats tunnelsPerRequest s.tunnels.contents := by
    rw [all, rest_finished finished, List.append_nil]
  refine .opened ⟨_, all.symm⟩ (fun turns => sent ?_) fun ended => sent (progress.ends ended)
  have moves := progress.moves
  rw [moves]
  exact Nat.min_eq_right (Nat.le_trans turns (Nat.le_add_left _ _))

theorem answered_step {s t u : TunnelService} {l : ServiceLabel} {after : List ServiceLabel}
    (step : ServiceStep s l t) (path : Path ServiceStep t after u) :
    AnsweredAt s.tunnels.contents after l.1 l.2 := by
  obtain ⟨call, reply⟩ := l
  cases call with
  | request call =>
    have spec := applyToObjects_contents call s.tunnels
    simp only [serves, serviceServe] at step
    cases run : applyToObjects call s.tunnels with
    | error e =>
      rw [run] at step spec
      cases step
      have raised : applyRequest call.1 call.2 s.tunnels.contents = .error e := spec.symm
      exact .applied (by simp only [tunnelServe, raised, Option.map_some])
    | ok changed =>
      rw [run] at step spec
      cases step
      have done : applyRequest call.1 call.2 s.tunnels.contents = .ok changed.contents := spec.symm
      exact .applied (by simp only [tunnelServe, done, Option.map_some])
  | next stream =>
    simp only [serves, serviceServe, Option.bind_eq_bind, Option.bind_eq_some_iff] at step
    obtain ⟨_, _, ⟨g', turn⟩, _, done⟩ := step
    cases done
    exact .turned
  | getAllIpTunnelsStats tunnelsPerRequest =>
    cases step
    exact opened_answered tunnelsPerRequest path
  | getIpTunnel tunnelId =>
    cases step
    rw [readIpTunnel_contents]
    exact .tunnel
  | getIpTunnelStats tunnelId =>
    cases step
    rw [readIpTunnelStats_contents]
    exact .stats
  | capabilities =>
    cases step
    exact .capabilities
  | summary =>
    cases step
    exact .printed

/-- A run of the service with its objects is one of a table of values: the requests do to the
table what they would do there, and each call is answered as the table at that moment would
answer it, a stream of statistics as if it were read in one go. -/
theorem service_refines (ls : List ServiceLabel) (t : TunnelService)
    (path : Path ServiceStep .empty ls t) :
    Path TunnelStep .empty (requestsOf ls) t.tunnels.contents ∧
    ∀ before call reply after, ls = before ++ (call, reply) :: after →
      ∃ tunnels, Path TunnelStep .empty (requestsOf before) tunnels ∧
        AnsweredAt tunnels after call reply := by
  refine ⟨service_requests path, fun before call reply after split => ?_⟩
  rw [split] at path
  obtain ⟨s, first, second⟩ := path.split
  cases second with
  | cons step later => exact ⟨s.tunnels.contents, service_requests first, answered_step step later⟩

def removedWhileRead : List ServiceLabel :=
  [(.request (zeroTunnelCounters, decRequest operationCreate oldKey), .applied none),
    (.getAllIpTunnelsStats 1#32, .opened 0),
    (.request (zeroTunnelCounters, decRequest operationDelete []), .applied none),
    (.next 0, .turned (.sent ⟨[⟨10003#64, zeroTunnelCounters⟩]⟩)),
    (.next 0, .turned .finished)]

theorem removedWhileRead_refines : ∃ t : TunnelService,
    Path TunnelStep .empty (requestsOf removedWhileRead) t.tunnels.contents ∧
    ∀ before call reply after, removedWhileRead = before ++ (call, reply) :: after →
      ∃ tunnels, Path TunnelStep .empty (requestsOf before) tunnels ∧
        AnsweredAt tunnels after call reply := by
  have path : ∃ t, Path ServiceStep .empty removedWhileRead t :=
    ⟨_, .cons rfl (.cons rfl (.cons rfl (.cons rfl (.cons rfl (.nil _)))))⟩
  obtain ⟨t, path⟩ := path
  exact ⟨t, service_refines removedWhileRead t path⟩

end SessionOffload
