import SessionOffload.Rekey
import SessionOffload.StatsStream

/-! The counters of the tunnels, as getIpTunnel, getIpTunnelStats and getAllIpTunnelsStats of
tunnels_server.py report them. They are drawn when a tunnel is created and stay with it. -/
namespace SessionOffload
open Transition

def getIpTunnelStats (tunnels : TunnelTable) (tunnelId : Word64) :
    Except Raised IpTunnelStatsResponse :=
  match tunnels.get? tunnelId with
  | none => .error .keyError
  | some tunnel => .ok ⟨tunnelId, tunnel.counters⟩

def allStats (tunnelsPerRequest : Word32) (tunnels : TunnelTable) : List IpTunnelStatsResponse :=
  (getAllIpTunnelsStats tunnelsPerRequest tunnels).flatMap IpTunnelStatsResponses.responses

def countersOf (tunnels : TunnelTable) (tunnelId : Word64) : Option TunnelCounters :=
  (tunnels.get? tunnelId).map Tunnel.counters

/-- The counters that are to be reported for an id after one more request: those of the last
tunnel created under it, until a request removes it. -/
def reportedAfter (tunnelId : Word64) (reported : Option TunnelCounters)
    (l : TunnelCall × Option Raised) : Option TunnelCounters :=
  if l.2.isSome ∨ l.1.id ≠ tunnelId then reported
  else if l.1.2.operation = operationCreate then some l.1.1
  else if l.1.2.operation = operationUpdate then reported
  else none

def reportedBy (tunnelId : Word64) (ls : List (TunnelCall × Option Raised)) :
    Option TunnelCounters :=
  ls.foldl (reportedAfter tunnelId) none

theorem tunnelStep_outcome {s t : TunnelTable} {call : TunnelCall} {answer : Option Raised}
    (step : TunnelStep s (call, answer) t) :
    (answer = none ∧ applyCall s call = .ok t) ∨ (answer.isSome ∧ t = s) := by
  simp only [serves, tunnelServe] at step
  cases run : applyRequest call.1 call.2 s with
  | error e =>
    rw [run] at step
    cases step
    exact .inr ⟨rfl, rfl⟩
  | ok changed =>
    rw [run] at step
    cases step
    exact .inl ⟨rfl, run⟩

theorem onTunnel_counters {s t : TunnelTable} {call : TunnelCall}
    (run : applyCall s call = .ok t) (stored : Option Tunnel) :
    (call.onTunnel stored).map Tunnel.counters =
      reportedAfter call.id (stored.map Tunnel.counters) (call, none) := by
  have result := applyCall_result s call
  rw [run] at result
  have here : ¬ ((none : Option Raised).isSome ∨ call.id ≠ call.id) := by simp
  rw [reportedAfter, if_neg here, TunnelCall.onTunnel]
  cases result with
  | created tunnelType create check =>
    rw [if_pos create, if_pos create, check]
    rfl
  | updated tunnel update _ =>
    have noCreate : call.2.operation ≠ operationCreate := update ▸ update_ne_create
    rw [if_neg noCreate, if_pos update, if_neg noCreate, if_pos update, Option.map_map]
    rfl
  | removed noCreate noUpdate =>
    rw [if_neg noCreate, if_neg noUpdate, if_neg noCreate, if_neg noUpdate]
    rfl

theorem countersOf_step {s t : TunnelTable} {l : TunnelCall × Option Raised}
    (step : TunnelStep s l t) (tunnelId : Word64) :
    countersOf t tunnelId = reportedAfter tunnelId (countersOf s tunnelId) l := by
  obtain ⟨call, answer⟩ := l
  rcases tunnelStep_outcome step with ⟨rfl, run⟩ | ⟨raised, rfl⟩
  · rw [countersOf, applyCall_get? run]
    by_cases here : tunnelId = call.id
    · rw [if_pos here, onTunnel_counters run, here]
      rfl
    · have other : (none : Option Raised).isSome ∨ call.id ≠ tunnelId := .inr (Ne.symm here)
      rw [if_neg here, reportedAfter, if_pos other]
      rfl
  · have same : answer.isSome ∨ call.id ≠ tunnelId := .inl raised
    rw [reportedAfter, if_pos same]

theorem countersOf_run {s t : TunnelTable} {ls : List (TunnelCall × Option Raised)}
    (path : Path TunnelStep s ls t) (tunnelId : Word64) :
    countersOf t tunnelId = ls.foldl (reportedAfter tunnelId) (countersOf s tunnelId) := by
  induction path with
  | nil => rfl
  | cons step _ ih => rw [ih, countersOf_step step, List.foldl_cons]

def Named (tunnels : TunnelTable) : Prop := ∀ e ∈ tunnels.entries, e.2.tunnelId = e.1

theorem named_set {tunnels : TunnelTable} (named : Named tunnels) {tunnelId : Word64}
    {tunnel : Tunnel} (same : tunnel.tunnelId = tunnelId) :
    Named (tunnels.set tunnelId tunnel) := by
  rintro ⟨k, v⟩ member
  rcases Dict.mem_set.mp member with ⟨rfl, rfl⟩ | ⟨old, _⟩
  · exact same
  · exact named _ old

theorem named_step {s t : TunnelTable} {l : TunnelCall × Option Raised} (named : Named s)
    (step : TunnelStep s l t) : Named t := by
  obtain ⟨⟨counters, request⟩, answer⟩ := l
  cases tunnelStep_effect step with
  | raised _ same => exact same ▸ named
  | created tunnelType _ _ table => exact table ▸ named_set named rfl
  | updated tunnel _ stored table =>
    have same : tunnel.tunnelId = request.tunnelId := named _ (Dict.get?_eq_some_iff.mp stored)
    exact table ▸ named_set named same
  | removed _ table =>
    rw [table]
    exact fun e member => named e (List.mem_of_mem_filter member)

theorem named_run {ls : List (TunnelCall × Option Raised)} {tunnels : TunnelTable}
    (path : Path TunnelStep .empty ls tunnels) : Named tunnels :=
  path.invariant Named (fun _ _ _ => named_step) fun _ member => absurd member List.not_mem_nil

theorem getIpTunnelStats_iff {tunnels : TunnelTable} {tunnelId : Word64}
    {response : IpTunnelStatsResponse} :
    getIpTunnelStats tunnels tunnelId = .ok response ↔ response.tunnelId = tunnelId ∧
      countersOf tunnels tunnelId = some response.tunnelCounters := by
  unfold getIpTunnelStats countersOf
  cases tunnels.get? tunnelId with
  | none => exact iff_of_false nofun (fun both => by cases both.2)
  | some tunnel =>
    obtain ⟨id, counters⟩ := response
    simp [eq_comm]

theorem getIpTunnel_counters {tunnels : TunnelTable} {tunnelId : Word64}
    {counters : TunnelCounters} :
    (∃ request, getIpTunnel tunnels tunnelId = .ok ⟨tunnelId, request, counters⟩) ↔
      countersOf tunnels tunnelId = some counters := by
  unfold getIpTunnel countersOf
  cases tunnels.get? tunnelId with
  | none => exact iff_of_false (fun ⟨_, run⟩ => by cases run) nofun
  | some tunnel => simp

theorem allStats_eq (tunnelsPerRequest : Word32) (tunnels : TunnelTable) :
    allStats tunnelsPerRequest tunnels = tunnels.values.map Tunnel.statsResponse := by
  rw [allStats, List.flatMap_def, stats_flush, Chunks.flush_nil_flatten]

theorem allStats_entries (tunnelsPerRequest : Word32) {tunnels : TunnelTable}
    (named : Named tunnels) :
    allStats tunnelsPerRequest tunnels = tunnels.entries.map fun e => ⟨e.1, e.2.counters⟩ := by
  rw [allStats_eq, Dict.values, List.map_map]
  refine List.map_congr_left fun e member => ?_
  rw [Function.comp_apply, Tunnel.statsResponse, named e member]

theorem mem_allStats {tunnelsPerRequest : Word32} {tunnels : TunnelTable} (named : Named tunnels)
    {response : IpTunnelStatsResponse} :
    response ∈ allStats tunnelsPerRequest tunnels ↔
      countersOf tunnels response.tunnelId = some response.tunnelCounters := by
  obtain ⟨id, counters⟩ := response
  rw [allStats_entries _ named, countersOf, Option.map_eq_some_iff, List.mem_map]
  simp only [Dict.get?_eq_some_iff]
  constructor
  · rintro ⟨e, member, same⟩
    cases same
    exact ⟨e.2, member, rfl⟩
  · rintro ⟨tunnel, member, same⟩
    exact ⟨_, member, by rw [same]⟩

/-- Each of the three reads reports of an id the counters that are to be reported, and of one
without any nothing; the stream has each id once, in the order of the table. -/
structure ReadsAgree (reported : Word64 → Option TunnelCounters) (tunnels : TunnelTable) :
    Prop where
  stats : ∀ tunnelId response, getIpTunnelStats tunnels tunnelId = .ok response ↔
    response.tunnelId = tunnelId ∧ reported tunnelId = some response.tunnelCounters
  tunnel : ∀ tunnelId counters,
    (∃ request, getIpTunnel tunnels tunnelId = .ok ⟨tunnelId, request, counters⟩) ↔
      reported tunnelId = some counters
  all : ∀ tunnelsPerRequest response, response ∈ allStats tunnelsPerRequest tunnels ↔
    reported response.tunnelId = some response.tunnelCounters
  order : ∀ tunnelsPerRequest,
    (allStats tunnelsPerRequest tunnels).map IpTunnelStatsResponse.tunnelId = tunnels.keys
  known : ∀ tunnelId, tunnelId ∈ tunnels.keys ↔ (reported tunnelId).isSome

theorem countersOf_agree {tunnels : TunnelTable} (named : Named tunnels) :
    ReadsAgree (countersOf tunnels) tunnels where
  stats _ _ := getIpTunnelStats_iff
  tunnel _ _ := getIpTunnel_counters
  all _ _ := mem_allStats named
  order tunnelsPerRequest := by
    rw [allStats_entries _ named, List.map_map]
    rfl
  known tunnelId := by
    rw [countersOf, Option.isSome_map, ← not_iff_not, ← Dict.get?_eq_none_iff,
      Option.not_isSome_iff_eq_none]

/-- However a table came about, its reads agree on the counters that were drawn at the last
create of each id. -/
theorem reads_agree (ls : List (TunnelCall × Option Raised)) (tunnels : TunnelTable)
    (path : Path TunnelStep .empty ls tunnels) :
    ReadsAgree (fun tunnelId => reportedBy tunnelId ls) tunnels := by
  have counted : countersOf tunnels = fun tunnelId => reportedBy tunnelId ls :=
    funext fun tunnelId => countersOf_run path tunnelId
  exact counted ▸ countersOf_agree (named_run path)

def createdTwice : List (TunnelCall × Option Raised) :=
  [((⟨5, 1, 40, 8, 7, 2, 56, 16⟩, decRequest operationCreate oldKey), none),
    ((zeroTunnelCounters, decRequest operationUpdate newKey), none),
    ((⟨9, 3, 72, 24, 4, 1, 32, 8⟩, decRequest operationCreate newKey), none)]

theorem createdTwice_agree : ∃ tunnels : TunnelTable,
    reportedBy 10003#64 createdTwice = some ⟨9, 3, 72, 24, 4, 1, 32, 8⟩ ∧
    ReadsAgree (fun tunnelId => reportedBy tunnelId createdTwice) tunnels := by
  have path : ∃ tunnels, Path TunnelStep .empty createdTwice tunnels :=
    ⟨_, .cons rfl (.cons rfl (.cons rfl (.nil _)))⟩
  obtain ⟨tunnels, path⟩ := path
  exact ⟨tunnels, rfl, reads_agree createdTwice tunnels path⟩

end SessionOffload
