import Mathlib.Algebra.BigOperators.Ring.List
import Mathlib.Algebra.Ring.Nat
import SessionOffload.TunnelPlan
import SessionOffload.Lib.Turns

/-! How many calls clients of the tunnel service make. A stream takes a turn for each tunnel
that there was when it was opened, and one more in which it ends. -/
namespace SessionOffload
open Transition

def StatsGenerator.turnsLeft (g : StatsGenerator) : Nat := g.tunnelsToIterate.length - g.i + 1

def TunnelClient.turnsLeft (streams : List StatsGenerator) (client : TunnelClient) : Nat :=
  match client.reading.bind (streams[·]?) with
  | some g => g.turnsLeft
  | none => 0

def TunnelClient.stepsLeft (most : Nat) (streams : List StatsGenerator) (client : TunnelClient) :
    Nat :=
  client.todo.length * (most + 2) + client.turnsLeft streams

def TunnelSystem.stepsLeft (most : Nat) (s : TunnelSystem) : Nat :=
  (s.clients.map (TunnelClient.stepsLeft most s.service.streams)).sum

section Streams
variable {s t : TunnelService} {g g' : StatsGenerator}

theorem turn_counts {objects : List Tunnel} {turn : StatsTurn}
    (run : g.turn objects = some (g', turn)) :
    turn = .finished ∧ g' = g ∨ turn ≠ .finished ∧ g'.turnsLeft < g.turnsLeft := by
  unfold StatsGenerator.turn at run
  cases named : g.tunnelsToIterate[g.i]? with
  | none =>
    rw [named] at run
    cases run
    exact .inl ⟨rfl, rfl⟩
  | some reference =>
    rw [named] at run
    obtain ⟨tunnel, _, done⟩ := Option.map_eq_some_iff.mp run
    obtain ⟨within, _⟩ := List.getElem?_eq_some_iff.mp named
    have fewer : g.tunnelsToIterate.length - (g.i + 1) < g.tunnelsToIterate.length - g.i := by omega
    rw [StatsGenerator.advance] at done
    split at done <;> cases done <;>
      exact .inr ⟨(fun ended => by cases ended), Nat.succ_lt_succ fewer⟩

theorem streams_fewer {call : ServiceCall} {reply : ServiceReply}
    (step : serviceServe s call = some (t, reply)) {stream : Nat}
    (there : s.streams[stream]? = some g) :
    ∃ g', t.streams[stream]? = some g' ∧ g'.turnsLeft ≤ g.turnsLeft := by
  cases call with
  | next k =>
    simp only [serviceServe, Option.bind_eq_bind, Option.bind_eq_some_iff] at step
    obtain ⟨h, found, ⟨h', turn⟩, run, done⟩ := step
    cases done
    by_cases same : k = stream
    · subst same
      cases there.symm.trans found
      obtain ⟨within, _⟩ := List.getElem?_eq_some_iff.mp there
      refine ⟨h', List.getElem?_set_self within, ?_⟩
      rcases turn_counts run with ⟨_, rfl⟩ | ⟨_, fewer⟩
      · exact Nat.le_refl _
      · exact Nat.le_of_lt fewer
    · exact ⟨g, (List.getElem?_set_ne same).trans there, Nat.le_refl _⟩
  | getAllIpTunnelsStats tunnelsPerRequest =>
    cases step
    obtain ⟨within, _⟩ := List.getElem?_eq_some_iff.mp there
    exact ⟨g, (List.getElem?_append_left within).trans there, Nat.le_refl _⟩
  | request call =>
    rw [serviceServe] at step
    split at step <;> cases step <;> exact ⟨g, there, Nat.le_refl _⟩
  | capabilities =>
    cases step
    exact ⟨g, there, Nat.le_refl _⟩
  | summary =>
    cases step
    exact ⟨g, there, Nat.le_refl _⟩
  | getIpTunnel id =>
    cases step
    exact ⟨g, there, Nat.le_refl _⟩
  | getIpTunnelStats id =>
    cases step
    exact ⟨g, there, Nat.le_refl _⟩

theorem turnsLeft_fewer {call : ServiceCall} {reply : ServiceReply}
    (step : serviceServe s call = some (t, reply)) {client : TunnelClient}
    (known : ∀ stream, client.reading = some stream → stream < s.streams.length) :
    client.turnsLeft t.streams ≤ client.turnsLeft s.streams := by
  unfold TunnelClient.turnsLeft
  cases reading : client.reading with
  | none => exact Nat.le_refl _
  | some stream =>
    have there := List.getElem?_eq_getElem (known stream reading)
    obtain ⟨g', there', fewer⟩ := streams_fewer step there
    simp only [Option.bind_some, there, there']
    exact fewer

theorem opened_turns {call : ServiceCall} {reply : ServiceReply}
    (step : serviceServe s call = some (t, reply)) (todo : List ServiceCall) :
    (TunnelClient.mk reply.opened? todo).turnsLeft t.streams ≤
      s.tunnels.contents.keys.length + 1 := by
  unfold TunnelClient.turnsLeft
  cases opened : reply.opened? with
  | none => exact Nat.zero_le _
  | some stream =>
    cases call with
    | getAllIpTunnelsStats tunnelsPerRequest =>
      cases step
      cases opened
      rw [Option.bind_some, List.getElem?_concat_length, Arena.contents_keys]
      simp [StatsGenerator.turnsLeft, StatsGenerator.start, Dict.values, Dict.keys]
    | request call =>
      rw [serviceServe] at step
      split at step <;> cases step <;> cases opened
    | next stream =>
      simp only [serviceServe, Option.bind_eq_bind, Option.bind_eq_some_iff] at step
      obtain ⟨_, _, _, _, done⟩ := step
      cases done
      cases opened
    | capabilities =>
      cases step
      cases opened
    | summary =>
      cases step
      cases opened
    | getIpTunnel id =>
      cases step
      cases opened
    | getIpTunnelStats id =>
      cases step
      cases opened

theorem turn_less {most stream : Nat} {c : TunnelClient} {reply : ServiceReply}
    (reading : c.reading = some stream) (step : serviceServe s (.next stream) = some (t, reply)) :
    (c.after reply).stepsLeft most t.streams < c.stepsLeft most s.streams := by
  simp only [serviceServe, Option.bind_eq_bind, Option.bind_eq_some_iff] at step
  obtain ⟨g, found, ⟨g', turn⟩, run, done⟩ := step
  cases done
  have before : c.turnsLeft s.streams = g.turnsLeft := by
    simp only [TunnelClient.turnsLeft, reading, Option.bind_some, found]
  rw [after_turn reading, TunnelClient.stepsLeft, TunnelClient.stepsLeft, before]
  rcases turn_counts run with ⟨rfl, rfl⟩ | ⟨goesOn, fewer⟩
  · exact Nat.add_lt_add_left (Nat.succ_pos _) _
  · have more : (ServiceReply.turned turn).finishes = false := by
      cases turn with
      | finished => exact absurd rfl goesOn
      | _ => rfl
    obtain ⟨within, _⟩ := List.getElem?_eq_some_iff.mp found
    have after : c.turnsLeft (s.streams.set stream g') = g'.turnsLeft := by
      simp only [TunnelClient.turnsLeft, reading, Option.bind_some, List.getElem?_set_self within]
    rw [if_neg (more ▸ Bool.false_ne_true), after]
    exact Nat.add_lt_add_left fewer _

theorem call_less {most : Nat} {c : TunnelClient} {call : ServiceCall} {reply : ServiceReply}
    (reading : c.reading = none) (calls : c.call = some call) (quiet : reply.raised? = none)
    (few : s.tunnels.contents.keys.length ≤ most)
    (step : serviceServe s call = some (t, reply)) :
    (c.after reply).stepsLeft most t.streams < c.stepsLeft most s.streams := by
  obtain ⟨rest, todo⟩ := call_todo reading calls
  have opened := opened_turns step rest
  have less : (TunnelClient.mk reply.opened? rest).turnsLeft t.streams < most + 2 := by omega
  rw [after_call reading quiet, TunnelClient.stepsLeft, TunnelClient.stepsLeft, todo,
    List.length_cons, List.tail_cons, Nat.succ_mul]
  exact Nat.lt_of_lt_of_le (Nat.add_lt_add_left less _) (Nat.le_add_right _ _)

end Streams

section Clients
variable {plan : TunnelPlan} {programs : List (List ServiceCall)} {s t : TunnelSystem}

theorem planned_few {tunnels : TunnelTable} (planned : Planned plan tunnels) :
    tunnels.keys.length ≤ plan.entries.length := by
  have listed : tunnels.keys ⊆ plan.keys := by
    intro id member
    obtain ⟨tunnel, entry⟩ := Dict.mem_keys.mp member
    obtain ⟨p, known, _⟩ := planned.known _ entry
    exact Dict.mem_keys.mpr ⟨p, Dict.get?_eq_some_iff.mp known⟩
  have few := (List.subperm_of_subset tunnels.distinct listed).length_le
  exact few.trans_eq (List.length_map ..)

theorem coordinated_less (plain : Plain plan) (coordinated : Coordinated plan programs s)
    {l : Nat × ServiceLabel} (step : ClientsStep s l t) :
    t.stepsLeft plan.entries.length < s.stepsLeft plan.entries.length := by
  obtain ⟨j, call, reply⟩ := l
  obtain ⟨c, service, there, calls, served, rfl⟩ := clientsServe_some step
  have known := coordinated.streams
  refine sum_turn ?_ there fun client member => ?_
  · cases reading : c.reading with
    | some stream =>
      rw [TunnelClient.call, reading] at calls
      cases calls
      exact turn_less reading served
    | none =>
      obtain ⟨_, quiet⟩ := coordinated_step plain coordinated step
      exact call_less reading calls quiet (planned_few coordinated.planned) served
  · exact Nat.add_le_add_left (turnsLeft_fewer served (known client member)) _

theorem coordinated_bound (plain : Plain plan)
    (disciplined : ∀ program ∈ programs, Disciplined plan [] program)
    {ls : List (Nat × ServiceLabel)} (path : Path ClientsStep (.start programs) ls t) :
    ls.length ≤ (programs.map List.length).sum * (plan.entries.length + 2) := by
  have spent := path.bounded (Coordinated plan programs) (·.stepsLeft plan.entries.length)
    (fun _ _ _ here step =>
      ⟨(coordinated_step plain here step).1, coordinated_less plain here step⟩)
    (coordinated_start disciplined)
  have whole : (TunnelSystem.start programs).stepsLeft plan.entries.length =
      (programs.map List.length).sum * (plan.entries.length + 2) := by
    rw [TunnelSystem.stepsLeft, TunnelSystem.start, List.map_map, ← List.sum_map_mul_right]
    rfl
  rw [whole] at spent
  exact (Nat.le_add_right _ _).trans spent

theorem coordinated_run (plain : Plain plan)
    (disciplined : ∀ program ∈ programs, Disciplined plan [] program)
    {ls : List (Nat × ServiceLabel)} (path : Path ClientsStep (.start programs) ls t) :
    Coordinated plan programs t ∧ ∀ l ∈ ls, l.2.2.raised? = none :=
  path.invariant_labels (Coordinated plan programs) (fun l => l.2.2.raised? = none)
    (fun _ _ _ here step => coordinated_step plain here step) (coordinated_start disciplined)

end Clients

/-- Clients that keep to a plain plan, from the empty table on and in any order of their calls:
no call raises, every stored tunnel is valid, a summary would show the chains as they are, no
client gets stuck, and the run comes to an end, where the tunnels are those they created. -/
theorem clients_coordinate (plan : TunnelPlan) (plain : Plain plan)
    (programs : List (List ServiceCall))
    (disciplined : ∀ program ∈ programs, Disciplined plan [] program)
    (ls : List (Nat × ServiceLabel)) (t : TunnelSystem)
    (path : Path ClientsStep (.start programs) ls t) :
    (∀ l ∈ ls, l.2.2.raised? = none) ∧
    ValidTable t.service.tunnels.contents ∧
    Reconstructed t.service.tunnels.contents ∧
    (∀ (j : Nat) (client : TunnelClient), t.clients[j]? = some client → client.call ≠ none →
      ∃ l u, ClientsStep t (j, l) u) ∧
    ls.length ≤ (programs.map List.length).sum * (plan.entries.length + 2) ∧
    ((∀ client ∈ t.clients, client.call = none) → ∀ id,
      id ∈ t.service.tunnels.contents.keys ↔
        ∃ program ∈ programs, id ∈ createdIds program) := by
  obtain ⟨coordinated, quiet⟩ := coordinated_run plain disciplined path
  exact ⟨quiet, coordinated.planned.valid, (planned_summary plain coordinated.planned).1,
    fun j client there busy => coordinated_progress coordinated there busy,
    coordinated_bound plain disciplined path, finished_created coordinated⟩

def decapCall : TunnelCall :=
  (zeroTunnelCounters, ⟨7#64, operationCreate, .empty, 1#32, some (.geneve ⟨some .geneveDecap⟩)⟩)

/-- A call for a tunnel that is matched from the one above. -/
def decryptCall (operation : Operation) (encryptionKey : List Byte) : TunnelCall :=
  (⟨5, 1, 40, 8, 7, 2, 56, 16⟩, { decRequest operation encryptionKey with
    matchCriteria := { MatchCriteria.empty with tunnelId := 7#64 } })

def decryptPlan : TunnelPlan :=
  ⟨[(7#64, ⟨none, false, .geneveDecap⟩), (10003#64, ⟨some 7#64, false, .ipsecDecryption⟩)],
    by decide⟩

def makerProgram : List ServiceCall :=
  [.request decapCall, .request (decryptCall operationCreate oldKey),
    .request (decryptCall operationUpdate newKey), .summary]

def watcherProgram : List ServiceCall :=
  [.request decapCall, .request (decryptCall operationCreate oldKey), .getIpTunnelStats 10003#64,
    .getAllIpTunnelsStats 1#32]

/-- Both clients create the two tunnels. One then updates the second tunnel and asks for the
summary while the other reads. -/
def makerAndWatcher : List (Nat × ServiceLabel) :=
  [(0, (.request decapCall, .applied none)), (1, (.request decapCall, .applied none)),
    (0, (.request (decryptCall operationCreate oldKey), .applied none)),
    (1, (.request (decryptCall operationCreate oldKey), .applied none)),
    (1, (.getIpTunnelStats 10003#64, .stats (.ok ⟨10003#64, ⟨5, 1, 40, 8, 7, 2, 56, 16⟩⟩))),
    (1, (.getAllIpTunnelsStats 1#32, .opened 0)),
    (1, (.next 0, .turned (.sent ⟨[⟨7#64, zeroTunnelCounters⟩]⟩))),
    (0, (.request (decryptCall operationUpdate newKey), .applied none)),
    (1, (.next 0, .turned (.sent ⟨[⟨10003#64, ⟨5, 1, 40, 8, 7, 2, 56, 16⟩⟩]⟩))),
    (0, (.summary, .printed (.ok ([saHeader] ++ (Chain.list [7#64, 10003#64]).header ++
      [tunnelFormatted 7#64 .geneveDecap, tunnelChainSeperator,
        tunnelFormatted 10003#64 .ipsecDecryption, "\n"])))),
    (1, (.next 0, .turned .finished))]

theorem makerAndWatcher_coordinate : ∃ t : TunnelSystem,
    Path ClientsStep (.start [makerProgram, watcherProgram]) makerAndWatcher t ∧
    ValidTable t.service.tunnels.contents ∧ Reconstructed t.service.tunnels.contents ∧
    ∀ id, id ∈ t.service.tunnels.contents.keys ↔
      ∃ program ∈ [makerProgram, watcherProgram], id ∈ createdIds program := by
  have made : ∀ m, some 7#64 = some m → m ∈ [7#64] :=
    fun _ same => Option.some.inj same ▸ List.mem_singleton_self _
  have maker : Disciplined decryptPlan [] makerProgram :=
    .create rfl rfl rfl rfl nofun (.create rfl rfl rfl rfl made
      (.update rfl rfl rfl (by decide) (.summary (.done _))))
  have watcher : Disciplined decryptPlan [] watcherProgram :=
    .create rfl rfl rfl rfl nofun (.create rfl rfl rfl rfl made
      (.stats (by decide) (.allStats (.done _))))
  have path : ∃ t, Path ClientsStep (.start [makerProgram, watcherProgram]) makerAndWatcher t ∧
      ∀ client ∈ t.clients, client.call = none :=
    ⟨_, .cons rfl (.cons rfl (.cons rfl (.cons rfl (.cons rfl (.cons rfl (.cons rfl (.cons rfl
      (.cons rfl (.cons rfl (.cons rfl (.nil _))))))))))), by decide⟩
  obtain ⟨t, path, finished⟩ := path
  obtain ⟨_, valid, shown, _, _, created⟩ := clients_coordinate decryptPlan
    ⟨by decide, by decide, by decide⟩ _
    (List.forall_mem_cons.mpr ⟨maker, List.forall_mem_singleton.mpr watcher⟩) makerAndWatcher t path
  exact ⟨t, path, valid, shown, created finished⟩

end SessionOffload
