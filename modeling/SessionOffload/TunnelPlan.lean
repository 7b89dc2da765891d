import SessionOffload.SummaryChains
import SessionOffload.TunnelService

/-! Clients of the tunnel service side by side. They agree on what tunnel an id stands for, and
each creates a tunnel after the one it is matched from and removes none. Whatever the order of
their calls, no call raises and every summary shows the chains as they are. -/
namespace SessionOffload
open Transition

structure PlannedTunnel where
  upstream : Option Word64
  byIp : Bool
  tunnelType : TunnelType
  deriving DecidableEq, Repr

def PlannedTunnel.link (p : PlannedTunnel) (id : Word64) : Link := ⟨id, p.upstream, p.byIp⟩

abbrev TunnelPlan := Dict Word64 PlannedTunnel

/-- Plans whose chains the summary shows whichever part of them there is: of the tunnels matched
from the same tunnel at most one is without IP as well, and then that tunnel is not itself
matched by both, and continues a chain if another one has IP. -/
structure Plain (plan : TunnelPlan) : Prop where
  single : ∀ e ∈ plan.entries, e.2.byIp = false → e.2.upstream ≠ none →
    ∀ f ∈ plan.entries, f.2.byIp = false → e.2.upstream = f.2.upstream → e.1 = f.1
  whole : ∀ e ∈ plan.entries, e.2.byIp = false → ∀ f ∈ plan.entries, e.2.upstream = some f.1 →
    f.2.byIp = true → f.2.upstream = none
  leads : ∀ e ∈ plan.entries, e.2.byIp = true → e.2.upstream ≠ none →
    ∀ f ∈ plan.entries, f.2.byIp = false → e.2.upstream = f.2.upstream →
      ∀ g ∈ plan.entries, e.2.upstream = some g.1 → g.2.upstream ≠ none

/-- A table in the making: its tunnels are those of the plan, each valid, and none comes before
the tunnel it is matched from. -/
structure Planned (plan : TunnelPlan) (tunnels : TunnelTable) : Prop where
  known : ∀ e ∈ tunnels.entries, ∃ p, plan.get? e.1 = some p ∧ e.2.link e.1 = p.link e.1 ∧
    e.2.tunnelType = p.tunnelType
  valid : ValidTable tunnels
  present : ∀ x ∈ links tunnels, ¬ Dangling tunnels x
  proper : ∀ x ∈ links tunnels, x.upstream ≠ some x.id
  forwards : (links tunnels).Pairwise fun y x => y.upstream ≠ some x.id

section Tables
variable {plan : TunnelPlan} {tunnels : TunnelTable}

theorem planned_empty : Planned plan .empty where
  known _ member := absurd member List.not_mem_nil
  valid _ member := absurd member List.not_mem_nil
  present _ member := absurd member List.not_mem_nil
  proper _ member := absurd member List.not_mem_nil
  forwards := .nil

theorem mem_links {x : Link} : x ∈ links tunnels ↔
    ∃ tunnel, tunnels.get? x.id = some tunnel ∧ tunnel.link x.id = x := by
  simp only [links, List.mem_map, Dict.get?_eq_some_iff]
  constructor
  · rintro ⟨e, member, rfl⟩
    exact ⟨e.2, member, rfl⟩
  · rintro ⟨tunnel, member, same⟩
    exact ⟨_, member, same⟩

theorem links_set_fresh {id : Word64} (fresh : id ∉ tunnels.keys) (tunnel : Tunnel) :
    links (tunnels.set id tunnel) = links tunnels ++ [tunnel.link id] := by
  rw [links, Dict.set_fresh fresh, List.map_append]
  rfl

theorem links_set_present {id : Word64} {old tunnel : Tunnel} (stored : tunnels.get? id = some old)
    (same : tunnel.link id = old.link id) : links (tunnels.set id tunnel) = links tunnels := by
  have present : id ∈ tunnels.keys := Dict.mem_keys.mpr ⟨old, Dict.get?_eq_some_iff.mp stored⟩
  rw [links, Dict.set_present present, Dict.mapValues, List.map_map]
  refine List.map_congr_left fun e member => ?_
  rw [Function.comp_apply]
  by_cases here : e.1 = id
  · rw [if_pos here, Dict.value_unique stored member here, here, same]
  · rw [if_neg here]

theorem Planned.entry {id : Word64} {tunnel : Tunnel} (planned : Planned plan tunnels)
    (stored : tunnels.get? id = some tunnel) : ∃ p, plan.get? id = some p ∧
      tunnel.link id = p.link id ∧ tunnel.tunnelType = p.tunnelType :=
  planned.known _ (Dict.get?_eq_some_iff.mp stored)

theorem planned_set (planned : Planned plan tunnels) {id : Word64} {p : PlannedTunnel}
    {tunnel : Tunnel} (listed : plan.get? id = some p) (link : tunnel.link id = p.link id)
    (tunnelType : tunnel.tunnelType = p.tunnelType)
    (check : checkTunnelValidity tunnel.tunnelProto = .ok tunnel.tunnelType)
    (upstream : ∀ m, p.upstream = some m → m ∈ tunnels.keys) :
    Planned plan (tunnels.set id tunnel) := by
  have known : ∀ e ∈ (tunnels.set id tunnel).entries, ∃ p, plan.get? e.1 = some p ∧
      e.2.link e.1 = p.link e.1 ∧ e.2.tunnelType = p.tunnelType := by
    rintro ⟨k, v⟩ member
    rcases Dict.mem_set.mp member with ⟨rfl, rfl⟩ | ⟨old, _⟩
    · exact ⟨p, listed, link, tunnelType⟩
    · exact planned.known _ old
  have valid := (set_valid planned.valid id tunnel).mpr check
  have widen {x : Link} (found : ¬ Dangling tunnels x) : ¬ Dangling (tunnels.set id tunnel) x :=
    fun ⟨m, refers, missing⟩ =>
      found ⟨m, refers, fun there => missing (Dict.mem_keys_set.mpr (.inr there))⟩
  cases stored : tunnels.get? id with
  | some old =>
    obtain ⟨p', listed', link', _⟩ := planned.entry stored
    cases listed.symm.trans listed'
    have same := links_set_present stored (link.trans link'.symm)
    refine ⟨known, valid, ?_, ?_, ?_⟩
    · rw [same]
      exact fun x member => widen (planned.present x member)
    · rw [same]
      exact planned.proper
    · rw [same]
      exact planned.forwards
  | none =>
    have fresh := Dict.get?_eq_none_iff.mp stored
    have each {P : Link → Prop} (old : ∀ x ∈ links tunnels, P x) (new : P (tunnel.link id)) :
        ∀ x ∈ links (tunnels.set id tunnel), P x := by
      rw [links_set_fresh fresh, List.forall_mem_append]
      exact ⟨old, List.forall_mem_singleton.mpr new⟩
    have refers : (tunnel.link id).upstream = p.upstream := congrArg Link.upstream link
    refine ⟨known, valid, each (fun x member => widen (planned.present x member)) ?_,
      each planned.proper ?_, ?_⟩
    · rintro ⟨m, matched, missing⟩
      exact missing (Dict.mem_keys_set.mpr (.inr (upstream m (refers ▸ matched))))
    · exact fun self => fresh (upstream id (refers ▸ self))
    · rw [links_set_fresh fresh]
      refine List.pairwise_append.mpr ⟨planned.forwards, List.pairwise_singleton _ _, ?_⟩
      intro y member x last matched
      cases List.mem_singleton.mp last
      exact planned.present y member ⟨id, matched, fresh⟩

theorem planned_links (planned : Planned plan tunnels) {x : Link} (member : x ∈ links tunnels) :
    ∃ p, (x.id, p) ∈ plan.entries ∧ x.upstream = p.upstream ∧ x.byIp = p.byIp := by
  obtain ⟨tunnel, stored, same⟩ := mem_links.mp member
  obtain ⟨p, listed, link, _⟩ := planned.entry stored
  rw [same] at link
  refine ⟨p, Dict.get?_eq_some_iff.mp listed, ?_, ?_⟩
  · exact congrArg Link.upstream link
  · exact congrArg Link.byIp link

theorem planned_chainable (plain : Plain plan) (planned : Planned plan tunnels) :
    Chainable (links tunnels) where
  forward := planned.forwards.imp fun apart matched => absurd matched apart
  single := by
    refine (links_distinct tunnels).imp_of_mem fun {y x} there here apart onlyY onlyX same => ?_
    by_contra refers
    obtain ⟨p, listed, upstream, byIp⟩ := planned_links planned there
    obtain ⟨q, listed', upstream', byIp'⟩ := planned_links planned here
    rw [upstream] at refers same
    rw [upstream'] at same
    exact apart (plain.single _ listed (byIp ▸ onlyY) refers _ listed' (byIp' ▸ onlyX) same)
  whole := by
    intro x here onlyTunnel w there matched also
    obtain ⟨p, listed, upstream, byIp⟩ := planned_links planned here
    obtain ⟨q, listed', upstream', byIp'⟩ := planned_links planned there
    rw [upstream']
    exact plain.whole _ listed (byIp ▸ onlyTunnel) _ listed' (upstream ▸ matched) (byIp' ▸ also)
  leads := by
    refine (links_distinct tunnels).imp_of_mem fun {y x} there here _ also onlyTunnel same => ?_
    cases refers : y.upstream with
    | none => exact .inl rfl
    | some m =>
      right
      obtain ⟨tunnel, entry⟩ := Dict.mem_keys.mp (by_contra fun missing =>
        planned.present y there ⟨m, refers, missing⟩)
      have member : tunnel.link m ∈ links tunnels := List.mem_map_of_mem entry
      refine ⟨tunnel.link m, member, rfl, ?_⟩
      obtain ⟨p, listed, upstream, byIp⟩ := planned_links planned there
      obtain ⟨q, listed', upstream', byIp'⟩ := planned_links planned here
      obtain ⟨r, listed'', upstream'', _⟩ := planned_links planned member
      rw [upstream'']
      have matched : p.upstream = some m := upstream ▸ refers
      exact plain.leads _ listed (byIp ▸ also) (by simp [matched]) _ listed' (byIp' ▸ onlyTunnel)
        (by rw [← upstream, same, upstream']) _ listed'' matched

/-- The summary of such a table raises nothing and shows its chains. -/
theorem planned_summary (plain : Plain plan) (planned : Planned plan tunnels) :
    Reconstructed tunnels ∧ ∃ lines, printedSummary tunnels = .ok lines := by
  have exact := chainable_reconstructed planned.present planned.proper
    (planned_chainable plain planned)
  refine ⟨exact, ?_⟩
  obtain ⟨_, _, printed, _⟩ := exact
  cases outcome : printedSummary tunnels with
  | ok lines => exact ⟨lines, rfl⟩
  | error e =>
    rw [printedSummary_raises, printed] at outcome
    cases outcome

end Tables

structure TunnelClient where
  reading : Option Nat
  todo : List ServiceCall

def TunnelClient.call (client : TunnelClient) : Option ServiceCall :=
  match client.reading with
  | some stream => some (.next stream)
  | none => client.todo.head?

def ServiceReply.raised? : ServiceReply → Option Raised
  | .applied raised => raised
  | .printed (.error e) => some e
  | .tunnel (.error e) => some e
  | .stats (.error e) => some e
  | _ => none

def ServiceReply.finishes : ServiceReply → Bool
  | .turned .finished => true
  | _ => false

def ServiceReply.opened? : ServiceReply → Option Nat
  | .opened stream => some stream
  | _ => none

/-- The client after the answer to its call. It reads a stream to its end, and an exception ends
the client. -/
def TunnelClient.after (client : TunnelClient) (reply : ServiceReply) : TunnelClient :=
  if client.reading.isSome then
    if reply.finishes then { client with reading := none } else client
  else if reply.raised?.isSome then ⟨none, []⟩
  else ⟨reply.opened?, client.todo.tail⟩

structure TunnelSystem where
  service : TunnelService
  clients : List TunnelClient

def clientsServe (s : TunnelSystem) (client : Nat) : Option (TunnelSystem × ServiceLabel) := do
  let c ← s.clients[client]?
  let call ← c.call
  let (service, reply) ← serviceServe s.service call
  some (⟨service, s.clients.set client (c.after reply)⟩, (call, reply))

abbrev ClientsStep : TunnelSystem → Nat × ServiceLabel → TunnelSystem → Prop := serves clientsServe

def TunnelSystem.start (programs : List (List ServiceCall)) : TunnelSystem :=
  ⟨.empty, programs.map fun program => ⟨none, program⟩⟩

def IpTunnelRequest.link (request : IpTunnelRequest) : Link where
  id := request.tunnelId
  upstream :=
    if request.matchCriteria.tunnelId = 0#64 then none else some request.matchCriteria.tunnelId
  byIp := request.matchCriteria.ipv4Match.sourceIp ≠ 0#32

/-- A program that keeps to the plan, after it has created some tunnels. -/
inductive Disciplined (plan : TunnelPlan) : List Word64 → List ServiceCall → Prop where
  | done (made : List Word64) : Disciplined plan made []
  | create {made : List Word64} {call : TunnelCall} {rest : List ServiceCall} {p : PlannedTunnel}
      (operation : call.2.operation = operationCreate) (listed : plan.get? call.id = some p)
      (link : call.2.link = p.link call.id)
      (check : checkTunnelValidity call.2 = .ok p.tunnelType)
      (upstream : ∀ m, p.upstream = some m → m ∈ made)
      (later : Disciplined plan (call.id :: made) rest) :
      Disciplined plan made (.request call :: rest)
  | update {made : List Word64} {call : TunnelCall} {rest : List ServiceCall} {p : PlannedTunnel}
      (operation : call.2.operation = operationUpdate) (listed : plan.get? call.id = some p)
      (check : checkIpsecTunnelValidity call.2.ipsecTunnel = .ok p.tunnelType)
      (known : call.id ∈ made) (later : Disciplined plan made rest) :
      Disciplined plan made (.request call :: rest)
  | summary {made : List Word64} {rest : List ServiceCall} (later : Disciplined plan made rest) :
      Disciplined plan made (.summary :: rest)
  | capabilities {made : List Word64} {rest : List ServiceCall}
      (later : Disciplined plan made rest) : Disciplined plan made (.capabilities :: rest)
  | tunnel {made : List Word64} {id : Word64} {rest : List ServiceCall} (known : id ∈ made)
      (later : Disciplined plan made rest) : Disciplined plan made (.getIpTunnel id :: rest)
  | stats {made : List Word64} {id : Word64} {rest : List ServiceCall} (known : id ∈ made)
      (later : Disciplined plan made rest) : Disciplined plan made (.getIpTunnelStats id :: rest)
  | allStats {made : List Word64} {tunnelsPerRequest : Word32} {rest : List ServiceCall}
      (later : Disciplined plan made rest) :
      Disciplined plan made (.getAllIpTunnelsStats tunnelsPerRequest :: rest)

def ServiceCall.creates? : ServiceCall → Option Word64
  | .request call => if call.2.operation = operationCreate then some call.id else none
  | _ => none

def createdIds (program : List ServiceCall) : List Word64 :=
  program.filterMap ServiceCall.creates?

def Underway (plan : TunnelPlan) (keys : List Word64) (program : List ServiceCall)
    (client : TunnelClient) : Prop :=
  ∃ done made, program = done ++ client.todo ∧ (∀ id ∈ createdIds done, id ∈ keys) ∧
    (∀ id ∈ made, id ∈ keys) ∧ Disciplined plan made client.todo

def Grounded (s : TunnelService) : Prop :=
  ∀ g ∈ s.streams, ∀ reference ∈ g.tunnelsToIterate, reference < s.tunnels.objects.length

structure Coordinated (plan : TunnelPlan) (programs : List (List ServiceCall))
    (s : TunnelSystem) : Prop where
  planned : Planned plan s.service.tunnels.contents
  grounded : Grounded s.service
  count : s.clients.length = programs.length
  clients : ∀ (j : Nat) (program : List ServiceCall) (client : TunnelClient),
    programs[j]? = some program → s.clients[j]? = some client →
    Underway plan s.service.tunnels.contents.keys program client
  streams : ∀ client ∈ s.clients, ∀ stream, client.reading = some stream →
    stream < s.service.streams.length
  created : ∀ id ∈ s.service.tunnels.contents.keys, ∃ program ∈ programs, id ∈ createdIds program

section Served
variable {plan : TunnelPlan} {s t : TunnelService} {reply : ServiceReply}

structure Served (plan : TunnelPlan) (s t : TunnelService) (call : ServiceCall)
    (reply : ServiceReply) : Prop where
  planned : Planned plan t.tunnels.contents
  grounded : Grounded t
  longer : s.streams.length ≤ t.streams.length
  keys : ∀ id, id ∈ t.tunnels.contents.keys ↔
    id ∈ s.tunnels.contents.keys ∨ call.creates? = some id
  quiet : reply.raised? = none
  opened : ∀ stream, reply.opened? = some stream → stream < t.streams.length

theorem served_same (planned : Planned plan s.tunnels.contents) (grounded : Grounded s)
    {call : ServiceCall} (creates : call.creates? = none) (quiet : reply.raised? = none)
    (opened : reply.opened? = none) : Served plan s s call reply where
  planned := planned
  grounded := grounded
  longer := Nat.le_refl _
  keys id := by simp [creates]
  quiet := quiet
  opened stream impossible := by
    rw [opened] at impossible
    cases impossible

theorem turn_references {objects : List Tunnel} {g g' : StatsGenerator} {turn : StatsTurn}
    (run : g.turn objects = some (g', turn)) : g'.tunnelsToIterate = g.tunnelsToIterate := by
  unfold StatsGenerator.turn at run
  split at run
  · cases run
    rfl
  · obtain ⟨tunnel, _, done⟩ := Option.map_eq_some_iff.mp run
    have first : (g.advance tunnel).1 = g' := congrArg Prod.fst done
    rw [← first, StatsGenerator.advance]
    split <;> rfl

theorem served_next (planned : Planned plan s.tunnels.contents) (grounded : Grounded s)
    {stream : Nat} (step : serviceServe s (.next stream) = some (t, reply)) :
    Served plan s t (.next stream) reply := by
  simp only [serviceServe, Option.bind_eq_bind, Option.bind_eq_some_iff] at step
  obtain ⟨g, there, ⟨g', turn⟩, run, done⟩ := step
  cases done
  refine ⟨planned, fun h member reference iterated => ?_, ?_, fun id => ?_, rfl,
    fun _ opened => by cases opened⟩
  · rcases List.mem_or_eq_of_mem_set member with old | rfl
    · exact grounded h old reference iterated
    · rw [turn_references run] at iterated
      exact grounded g (List.mem_of_getElem? there) reference iterated
  · rw [List.length_set]
  · simp [ServiceCall.creates?]

theorem served_request {call : TunnelCall} {changed : TunnelTable} (grounded : Grounded s)
    (run : applyCall s.tunnels.contents call = .ok changed) (planned : Planned plan changed)
    (keys : ∀ id, id ∈ changed.keys ↔
      id ∈ s.tunnels.contents.keys ∨ (ServiceCall.request call).creates? = some id)
    (step : serviceServe s (.request call) = some (t, reply)) :
    Served plan s t (.request call) reply := by
  have spec := applyToObjects_contents call s.tunnels
  simp only [serviceServe] at step
  cases objects : applyToObjects call s.tunnels with
  | error e =>
    rw [objects, run] at spec
    cases spec
  | ok tunnels =>
    rw [objects, run] at spec
    rw [objects] at step
    cases step
    have same : tunnels.contents = changed := Except.ok.inj spec
    have more := (applyToObjects_aspects objects).length_le
    rw [Arena.aspects, Arena.aspects, List.length_map, List.length_map] at more
    refine ⟨same ▸ planned, fun g member reference iterated => ?_, Nat.le_refl _, same ▸ keys, rfl,
      fun _ opened => by cases opened⟩
    exact Nat.lt_of_lt_of_le (grounded g member reference iterated) more

theorem create_request {tunnels : TunnelTable} (planned : Planned plan tunnels) {call : TunnelCall}
    {p : PlannedTunnel} (operation : call.2.operation = operationCreate)
    (listed : plan.get? call.id = some p) (link : call.2.link = p.link call.id)
    (check : checkTunnelValidity call.2 = .ok p.tunnelType)
    (upstream : ∀ m, p.upstream = some m → m ∈ tunnels.keys) :
    ∃ changed, applyCall tunnels call = .ok changed ∧ Planned plan changed ∧
      ∀ id, id ∈ changed.keys ↔
        id ∈ tunnels.keys ∨ (ServiceCall.request call).creates? = some id := by
  refine ⟨tunnels.set call.id (call.tunnel p.tunnelType), ?_, ?_, fun id => ?_⟩
  · rw [applyCall, applyRequest, if_pos operation, check]
    rfl
  · exact planned_set planned listed link rfl check upstream
  · rw [Dict.mem_keys_set, ServiceCall.creates?, if_pos operation, Option.some.injEq, or_comm,
      @eq_comm _ id]

theorem update_request {tunnels : TunnelTable} (planned : Planned plan tunnels) {call : TunnelCall}
    {p : PlannedTunnel} (operation : call.2.operation = operationUpdate)
    (listed : plan.get? call.id = some p)
    (check : checkIpsecTunnelValidity call.2.ipsecTunnel = .ok p.tunnelType)
    (known : call.id ∈ tunnels.keys) :
    ∃ changed, applyCall tunnels call = .ok changed ∧ Planned plan changed ∧
      ∀ id, id ∈ changed.keys ↔
        id ∈ tunnels.keys ∨ (ServiceCall.request call).creates? = some id := by
  have noCreate : call.2.operation ≠ operationCreate := operation ▸ update_ne_create
  obtain ⟨tunnel, entry⟩ := Dict.mem_keys.mp known
  have stored : tunnels.get? call.id = some tunnel := Dict.get?_eq_some_iff.mpr entry
  obtain ⟨q, listed', link, tunnelType⟩ := planned.entry stored
  cases listed.symm.trans listed'
  have upstream : ∀ m, p.upstream = some m → m ∈ tunnels.keys := by
    intro m refers
    by_contra missing
    have member : tunnel.link call.id ∈ links tunnels := List.mem_map_of_mem entry
    exact planned.present _ member ⟨m, (congrArg Link.upstream link).trans refers, missing⟩
  refine ⟨tunnels.set call.id (tunnel.copyIpsec call.2), ?_, ?_, fun id => ?_⟩
  · have stored : tunnels.get? call.2.tunnelId = some tunnel := stored
    rw [applyCall, applyRequest, if_neg noCreate, if_pos operation, stored]
    rfl
  · exact planned_set planned listed link tunnelType (check.trans (by rw [← tunnelType]; rfl))
      upstream
  · have creates : (ServiceCall.request call).creates? = none := if_neg noCreate
    rw [Dict.mem_keys_set, creates]
    constructor
    · rintro (rfl | member)
      · exact .inl known
      · exact .inl member
    · rintro (member | impossible)
      · exact .inr member
      · cases impossible

theorem read_quiet {id : Word64} (known : id ∈ s.tunnels.contents.keys) :
    (ServiceReply.tunnel (readIpTunnel s.tunnels id)).raised? = none ∧
      (ServiceReply.stats (readIpTunnelStats s.tunnels id)).raised? = none := by
  obtain ⟨tunnel, entry⟩ := Dict.mem_keys.mp known
  have stored : s.tunnels.read id = some tunnel := by
    rw [Arena.read_contents]
    exact Dict.get?_eq_some_iff.mpr entry
  rw [readIpTunnel, readIpTunnelStats, stored]
  exact ⟨rfl, rfl⟩

theorem served_call (plain : Plain plan) (planned : Planned plan s.tunnels.contents)
    (grounded : Grounded s) {made : List Word64} {call : ServiceCall} {rest : List ServiceCall}
    (disciplined : Disciplined plan made (call :: rest))
    (there : ∀ id ∈ made, id ∈ s.tunnels.contents.keys)
    (step : serviceServe s call = some (t, reply)) :
    Served plan s t call reply ∧ ∃ made', (∀ id ∈ made', id ∈ t.tunnels.contents.keys) ∧
      Disciplined plan made' rest := by
  have kept (served : Served plan s t call reply) (later : Disciplined plan made rest) :
      Served plan s t call reply ∧ ∃ made', (∀ id ∈ made', id ∈ t.tunnels.contents.keys) ∧
        Disciplined plan made' rest :=
    ⟨served, made, fun id member => (served.keys id).mpr (.inl (there id member)), later⟩
  cases disciplined with
  | @create _ request _ p operation listed link check upstream later =>
    obtain ⟨changed, run, planned', keys⟩ := create_request planned operation listed link check
      fun m refers => there m (upstream m refers)
    have served := served_request grounded run planned' keys step
    refine ⟨served, _, List.forall_mem_cons.mpr ⟨?_, fun id member => ?_⟩, later⟩
    · exact (served.keys request.id).mpr (.inr (if_pos operation))
    · exact (served.keys id).mpr (.inl (there id member))
  | update operation listed check known later =>
    obtain ⟨changed, run, planned', keys⟩ :=
      update_request planned operation listed check (there _ known)
    exact kept (served_request grounded run planned' keys step) later
  | summary later =>
    obtain ⟨_, lines, printed⟩ := planned_summary plain planned
    rw [serviceServe, printed] at step
    cases step
    exact kept (served_same planned grounded rfl rfl rfl) later
  | capabilities later =>
    cases step
    exact kept (served_same planned grounded rfl rfl rfl) later
  | tunnel known later =>
    cases step
    exact kept (served_same planned grounded rfl (read_quiet (there _ known)).1 rfl) later
  | stats known later =>
    cases step
    exact kept (served_same planned grounded rfl (read_quiet (there _ known)).2 rfl) later
  | @allStats _ tunnelsPerRequest _ later =>
    cases step
    refine kept ⟨planned, fun g member reference iterated => ?_, ?_, fun id => ?_, rfl, ?_⟩ later
    · rcases List.mem_append.mp member with old | new
      · exact grounded g old reference iterated
      · cases List.mem_singleton.mp new
        exact s.tunnels.placed reference iterated
    · rw [List.length_append]
      exact Nat.le_add_right _ _
    · simp [ServiceCall.creates?]
    · rintro stream ⟨⟩
      rw [List.length_append]
      exact Nat.lt_succ_self _

end Served

section Clients
variable {plan : TunnelPlan} {programs : List (List ServiceCall)} {s t : TunnelSystem}

theorem clientsServe_some {client : Nat} {l : ServiceLabel}
    (step : clientsServe s client = some (t, l)) : ∃ c service,
      s.clients[client]? = some c ∧ c.call = some l.1 ∧
      serviceServe s.service l.1 = some (service, l.2) ∧
      t = ⟨service, s.clients.set client (c.after l.2)⟩ := by
  simp only [clientsServe, Option.bind_eq_bind, Option.bind_eq_some_iff] at step
  obtain ⟨c, there, call, calls, ⟨service, reply⟩, served, done⟩ := step
  cases done
  exact ⟨c, service, there, calls, served, rfl⟩

theorem after_turn {c : TunnelClient} {stream : Nat} (reading : c.reading = some stream)
    (reply : ServiceReply) :
    c.after reply = if reply.finishes then { c with reading := none } else c := by
  rw [TunnelClient.after, reading]
  rfl

theorem after_call {c : TunnelClient} {reply : ServiceReply} (reading : c.reading = none)
    (quiet : reply.raised? = none) : c.after reply = ⟨reply.opened?, c.todo.tail⟩ := by
  rw [TunnelClient.after, reading, quiet]
  rfl

theorem call_todo {c : TunnelClient} {call : ServiceCall} (reading : c.reading = none)
    (calls : c.call = some call) : ∃ rest, c.todo = call :: rest := by
  rw [TunnelClient.call, reading] at calls
  cases todo : c.todo with
  | nil =>
    rw [todo] at calls
    cases calls
  | cons first rest =>
    rw [todo] at calls
    cases calls
    exact ⟨rest, rfl⟩

theorem Underway.mono {keys keys' : List Word64} {program : List ServiceCall}
    {client client' : TunnelClient} (underway : Underway plan keys program client)
    (more : ∀ id ∈ keys, id ∈ keys') (same : client'.todo = client.todo) :
    Underway plan keys' program client' := by
  obtain ⟨done, made, split, created, there, disciplined⟩ := underway
  exact ⟨done, made, same ▸ split, fun id member => more id (created id member),
    fun id member => more id (there id member), same ▸ disciplined⟩

theorem planned_step (plain : Plain plan) {service service' : TunnelService} {c : TunnelClient}
    {program : List ServiceCall} {call : ServiceCall} {reply : ServiceReply}
    (planned : Planned plan service.tunnels.contents) (grounded : Grounded service)
    (underway : Underway plan service.tunnels.contents.keys program c)
    (calls : c.call = some call) (step : serviceServe service call = some (service', reply)) :
    Served plan service service' call reply ∧
    Underway plan service'.tunnels.contents.keys program (c.after reply) ∧
    (∀ id, call.creates? = some id → id ∈ createdIds program) ∧
    ∀ stream, (c.after reply).reading = some stream →
      c.reading = some stream ∨ reply.opened? = some stream := by
  cases reading : c.reading with
  | some stream =>
    rw [TunnelClient.call, reading] at calls
    cases calls
    have served := served_next planned grounded step
    rw [after_turn reading]
    refine ⟨served, underway.mono (fun id old => (served.keys id).mpr (.inl old)) ?_, nofun, ?_⟩
    · split <;> rfl
    · intro k still
      split at still
      · cases still
      · exact .inl (reading.symm.trans still)
  | none =>
    obtain ⟨done, made, split, created, there, disciplined⟩ := underway
    obtain ⟨rest, todo⟩ := call_todo reading calls
    rw [todo] at split disciplined
    obtain ⟨served, made', there', later⟩ :=
      served_call plain planned grounded disciplined there step
    have after : c.after reply = ⟨reply.opened?, rest⟩ := by
      rw [after_call reading served.quiet, todo]
      rfl
    have listed {id : Word64} (creates : call.creates? = some id) :
        id ∈ createdIds (done ++ call :: rest) :=
      List.mem_filterMap.mpr ⟨call, List.mem_append_right _ List.mem_cons_self, creates⟩
    rw [after]
    refine ⟨served, ⟨done ++ [call], made', ?_, fun id member => ?_, there', later⟩,
      fun id creates => split ▸ listed creates, fun stream opened => .inr opened⟩
    · rw [split, List.append_assoc, List.singleton_append]
    · rw [createdIds, List.filterMap_append, List.mem_append] at member
      rcases member with old | new
      · exact (served.keys id).mpr (.inl (created id old))
      · obtain ⟨_, last, creates⟩ := List.mem_filterMap.mp new
        rw [List.mem_singleton.mp last] at creates
        exact (served.keys id).mpr (.inr creates)

theorem coordinated_step (plain : Plain plan) (coordinated : Coordinated plan programs s)
    {l : Nat × ServiceLabel} (step : ClientsStep s l t) :
    Coordinated plan programs t ∧ l.2.2.raised? = none := by
  obtain ⟨j, call, reply⟩ := l
  obtain ⟨c, service, there, calls, served, rfl⟩ := clientsServe_some step
  obtain ⟨within, _⟩ := List.getElem?_eq_some_iff.mp there
  obtain ⟨program, runs⟩ : ∃ program, programs[j]? = some program :=
    ⟨_, List.getElem?_eq_getElem (coordinated.count ▸ within)⟩
  obtain ⟨outcome, goesOn, creates, opens⟩ := planned_step plain coordinated.planned
    coordinated.grounded (coordinated.clients j program c runs there) calls served
  refine ⟨⟨outcome.planned, outcome.grounded, ?_, ?_, ?_, ?_⟩, outcome.quiet⟩
  · rw [List.length_set]
    exact coordinated.count
  · intro i program' client runs' there'
    by_cases here : j = i
    · subst here
      cases runs.symm.trans runs'
      rw [List.getElem?_set_self within] at there'
      cases there'
      exact goesOn
    · rw [List.getElem?_set_ne here] at there'
      exact (coordinated.clients i program' client runs' there').mono
        (fun id old => (outcome.keys id).mpr (.inl old)) rfl
  · intro client member stream reading
    rcases List.mem_or_eq_of_mem_set member with old | rfl
    · exact Nat.lt_of_lt_of_le (coordinated.streams client old stream reading) outcome.longer
    · rcases opens stream reading with old | new
      · have known := coordinated.streams c (List.mem_of_getElem? there) stream old
        exact Nat.lt_of_lt_of_le known outcome.longer
      · exact outcome.opened stream new
  · intro id member
    rcases (outcome.keys id).mp member with old | new
    · exact coordinated.created id old
    · exact ⟨program, List.mem_of_getElem? runs, creates id new⟩

theorem coordinated_start (disciplined : ∀ program ∈ programs, Disciplined plan [] program) :
    Coordinated plan programs (.start programs) where
  planned := planned_empty
  grounded _ member := absurd member List.not_mem_nil
  count := List.length_map ..
  clients j program client runs there := by
    rw [TunnelSystem.start, List.getElem?_map, runs] at there
    cases there
    exact ⟨[], [], rfl, nofun, nofun, disciplined program (List.mem_of_getElem? runs)⟩
  streams client member stream reading := by
    obtain ⟨program, _, rfl⟩ := List.mem_map.mp member
    cases reading
  created _ member := absurd member List.not_mem_nil

theorem next_answers {service : TunnelService} (grounded : Grounded service) {stream : Nat}
    (opened : stream < service.streams.length) :
    ∃ out, serviceServe service (.next stream) = some out := by
  have found := List.getElem?_eq_getElem opened
  have ground := grounded _ (List.getElem_mem opened)
  generalize service.streams[stream] = g at found ground
  obtain ⟨out, run⟩ : ∃ out, g.turn service.tunnels.objects = some out := by
    unfold StatsGenerator.turn
    cases named : g.tunnelsToIterate[g.i]? with
    | none => exact ⟨_, rfl⟩
    | some reference =>
      have below := ground reference (List.mem_of_getElem? named)
      simp only [List.getElem?_eq_getElem below, Option.map_some]
      exact ⟨_, rfl⟩
  refine ⟨({ service with streams := service.streams.set stream out.1 }, .turned out.2), ?_⟩
  simp only [serviceServe, found, Option.bind_eq_bind, Option.bind_some, run]

theorem call_next (coordinated : Coordinated plan programs s) {j stream : Nat} {c : TunnelClient}
    (there : s.clients[j]? = some c) (calls : c.call = some (.next stream)) :
    c.reading = some stream := by
  cases reading : c.reading with
  | some k =>
    rw [TunnelClient.call, reading] at calls
    cases calls
    rfl
  | none =>
    obtain ⟨rest, todo⟩ := call_todo reading calls
    obtain ⟨within, _⟩ := List.getElem?_eq_some_iff.mp there
    have runs := List.getElem?_eq_getElem (coordinated.count ▸ within)
    obtain ⟨_, _, _, _, _, disciplined⟩ := coordinated.clients j _ c runs there
    rw [todo] at disciplined
    cases disciplined

theorem coordinated_progress (coordinated : Coordinated plan programs s) {j : Nat}
    {c : TunnelClient} (there : s.clients[j]? = some c) (busy : c.call ≠ none) :
    ∃ l t, ClientsStep s (j, l) t := by
  obtain ⟨call, calls⟩ := Option.ne_none_iff_exists'.mp busy
  have answered : ∃ out, serviceServe s.service call = some out := by
    cases call with
    | next stream =>
      have reading := call_next coordinated there calls
      exact next_answers coordinated.grounded
        (coordinated.streams c (List.mem_of_getElem? there) stream reading)
    | request call =>
      rw [serviceServe]
      cases applyToObjects call s.service.tunnels <;> exact ⟨_, rfl⟩
    | capabilities => exact ⟨_, rfl⟩
    | summary => exact ⟨_, rfl⟩
    | getIpTunnel id => exact ⟨_, rfl⟩
    | getIpTunnelStats id => exact ⟨_, rfl⟩
    | getAllIpTunnelsStats tunnelsPerRequest => exact ⟨_, rfl⟩
  obtain ⟨⟨service, reply⟩, served⟩ := answered
  refine ⟨(call, reply), ⟨service, s.clients.set j (c.after reply)⟩, ?_⟩
  simp only [serves, clientsServe, there, calls, served, Option.bind_eq_bind, Option.bind_some]

theorem finished_created (coordinated : Coordinated plan programs s)
    (finished : ∀ client ∈ s.clients, client.call = none) (id : Word64) :
    id ∈ s.service.tunnels.contents.keys ↔ ∃ program ∈ programs, id ∈ createdIds program := by
  constructor
  · exact coordinated.created id
  · rintro ⟨program, member, created⟩
    obtain ⟨j, runs⟩ := List.mem_iff_getElem?.mp member
    obtain ⟨c, there⟩ : ∃ c, s.clients[j]? = some c :=
      ⟨_, List.getElem?_eq_getElem (coordinated.count.symm ▸
        (List.getElem?_eq_some_iff.mp runs).1)⟩
    obtain ⟨done, made, split, all, _, _⟩ := coordinated.clients j program c runs there
    have ended : c.todo = [] := by
      have idle := finished c (List.mem_of_getElem? there)
      rw [TunnelClient.call] at idle
      cases reading : c.reading with
      | some stream =>
        rw [reading] at idle
        cases idle
      | none =>
        rw [reading] at idle
        exact List.head?_eq_none_iff.mp idle
    rw [ended, List.append_nil] at split
    exact all id (split ▸ created)

end Clients

end SessionOffload
