import SessionOffload.TunnelValidity

/-! Streams of tunnel requests. A stream is applied request by request and stays applied up to
the request that raises; each tunnel is what the requests that address it made of it. -/
namespace SessionOffload

/-- A request of a stream, with the counters that a tunnel it creates would draw. -/
abbrev TunnelCall := TunnelCounters × IpTunnelRequest

def TunnelCall.id (call : TunnelCall) : Word64 := call.2.tunnelId

def TunnelCall.tunnel (call : TunnelCall) (tunnelType : TunnelType) : Tunnel :=
  ⟨call.2, call.id, tunnelType, call.1⟩

def applyCall (tunnels : TunnelTable) (call : TunnelCall) : Except Raised TunnelTable :=
  applyRequest call.1 call.2 tunnels

/-- Why a request raises: a create that fails its check, or an update of no tunnel. -/
inductive Refused (tunnels : TunnelTable) (call : TunnelCall) : Raised → Prop where
  | invalid {e : Raised} (operation : call.2.operation = operationCreate)
      (check : checkTunnelValidity call.2 = .error e) : Refused tunnels call e
  | unknown (operation : call.2.operation = operationUpdate)
      (absent : tunnels.get? call.id = none) : Refused tunnels call .keyError

inductive CallResult (tunnels : TunnelTable) (call : TunnelCall) :
    Except Raised TunnelTable → Prop where
  | raised {e : Raised} (refused : Refused tunnels call e) : CallResult tunnels call (.error e)
  | created (tunnelType : TunnelType) (operation : call.2.operation = operationCreate)
      (check : checkTunnelValidity call.2 = .ok tunnelType) :
      CallResult tunnels call (.ok (tunnels.set call.id (call.tunnel tunnelType)))
  | updated (tunnel : Tunnel) (operation : call.2.operation = operationUpdate)
      (stored : tunnels.get? call.id = some tunnel) :
      CallResult tunnels call (.ok (tunnels.set call.id (tunnel.copyIpsec call.2)))
  | removed (noCreate : call.2.operation ≠ operationCreate)
      (noUpdate : call.2.operation ≠ operationUpdate) :
      CallResult tunnels call (.ok (tunnels.erase call.id))

theorem applyCall_result (tunnels : TunnelTable) (call : TunnelCall) :
    CallResult tunnels call (applyCall tunnels call) := by
  unfold applyCall applyRequest
  split
  · next create =>
    cases check : checkTunnelValidity call.2 with
    | error e => exact .raised (.invalid create check)
    | ok tunnelType => exact .created tunnelType create check
  · next noCreate =>
    split
    · next update =>
      cases stored : tunnels.get? call.2.tunnelId with
      | none => exact .raised (.unknown update stored)
      | some tunnel => exact .updated tunnel update stored
    · next noUpdate => exact .removed noCreate noUpdate

def TunnelCall.onTunnel (stored : Option Tunnel) (call : TunnelCall) : Option Tunnel :=
  if call.2.operation = operationCreate then (checkTunnelValidity call.2).toOption.map call.tunnel
  else if call.2.operation = operationUpdate then stored.map (·.copyIpsec call.2)
  else none

theorem applyCall_get? {tunnels changed : TunnelTable} {call : TunnelCall}
    (run : applyCall tunnels call = .ok changed) (id : Word64) :
    changed.get? id = if id = call.id then call.onTunnel (tunnels.get? id)
      else tunnels.get? id := by
  have result := applyCall_result tunnels call
  rw [run] at result
  unfold TunnelCall.onTunnel
  cases result with
  | created tunnelType create check =>
    rw [Dict.get?_set, if_pos create, check]
    rfl
  | updated tunnel update stored =>
    have noCreate : call.2.operation ≠ operationCreate := update ▸ update_ne_create
    rw [Dict.get?_set, if_neg noCreate, if_pos update]
    split
    · next here =>
      rw [here, stored]
      rfl
    · rfl
  | removed noCreate noUpdate =>
    rw [if_neg noCreate, if_neg noUpdate]
    split
    · next here => rw [here, Dict.get?_erase_self]
    · next other => exact Dict.get?_erase other

def applied (requests : List TunnelCall) (tunnels : TunnelTable) : Except Raised TunnelTable :=
  requests.foldlM applyCall tunnels

theorem applied_cons {call : TunnelCall} {rest : List TunnelCall} {tunnels changed : TunnelTable}
    (run : applyCall tunnels call = .ok changed) :
    applied (call :: rest) tunnels = applied rest changed := by
  unfold applied
  rw [List.foldlM_cons, run]
  rfl

theorem applied_get? {requests : List TunnelCall} {tunnels left : TunnelTable}
    (run : applied requests tunnels = .ok left) (id : Word64) :
    left.get? id = (requests.filter (fun call => call.id = id)).foldl TunnelCall.onTunnel
      (tunnels.get? id) := by
  induction requests generalizing tunnels with
  | nil =>
    cases run
    rfl
  | cons call rest ih =>
    cases first : applyCall tunnels call with
    | error e =>
      unfold applied at run
      rw [List.foldlM_cons, first] at run
      cases run
    | ok changed =>
      rw [applied_cons first] at run
      rw [ih run, applyCall_get? first]
      by_cases here : call.id = id
      · simp only [List.filter_cons, here, decide_true, if_true, List.foldl_cons]
      · simp only [List.filter_cons, here, decide_false, Bool.false_eq_true, if_false,
          if_neg (Ne.symm here)]

theorem createIpTunnel_done (tunnels : TunnelTable) : (createIpTunnel [] tunnels).2 = tunnels := by
  unfold createIpTunnel
  split <;> rfl

theorem createIpTunnel_raised {call : TunnelCall} {tunnels : TunnelTable} {e : Raised}
    (raised : applyCall tunnels call = .error e) (rest : List TunnelCall) :
    createIpTunnel (call :: rest) tunnels = (some e, tunnels) := by
  have raised : applyRequest call.1 call.2 tunnels = .error e := raised
  simp only [createIpTunnel, raised]

theorem createIpTunnel_changed {call : TunnelCall} {tunnels changed : TunnelTable}
    (run : applyCall tunnels call = .ok changed) (rest : List TunnelCall) :
    createIpTunnel (call :: rest) tunnels = createIpTunnel rest changed := by
  have run : applyRequest call.1 call.2 tunnels = .ok changed := run
  simp only [createIpTunnel, run]

inductive Ends (tunnels : TunnelTable) (requests : List TunnelCall) :
    Option Raised → TunnelTable → Prop where
  | summary {left : TunnelTable} {e : Option Raised} (run : applied requests tunnels = .ok left)
      (outcome : e = match printTunnelSummary left with
        | .error e => some e
        | .ok _ => none) : Ends tunnels requests e left
  | stopped {left : TunnelTable} {e : Raised} (before later : List TunnelCall) (call : TunnelCall)
      (split : requests = before ++ call :: later) (run : applied before tunnels = .ok left)
      (refused : Refused left call e) : Ends tunnels requests (some e) left

theorem createIpTunnel_ends (requests : List TunnelCall) (tunnels : TunnelTable) :
    Ends tunnels requests (createIpTunnel requests tunnels).1
      (createIpTunnel requests tunnels).2 := by
  induction requests generalizing tunnels with
  | nil =>
    unfold createIpTunnel
    cases outcome : printTunnelSummary tunnels with
    | error e => exact .summary rfl (by rw [outcome])
    | ok printed => exact .summary rfl (by rw [outcome])
  | cons call rest ih =>
    have result := applyCall_result tunnels call
    cases first : applyCall tunnels call with
    | error e =>
      rw [first] at result
      rw [createIpTunnel_raised first]
      cases result with
      | raised refused => exact .stopped [] rest call rfl rfl refused
    | ok changed =>
      rw [createIpTunnel_changed first]
      have tail := ih changed
      generalize createIpTunnel rest changed = out at tail
      obtain ⟨outcome, left⟩ := out
      cases tail with
      | summary run outcome => exact .summary ((applied_cons first).trans run) outcome
      | stopped before later next split run refused =>
        exact .stopped (call :: before) later next (by rw [split]; rfl)
          ((applied_cons first).trans run) refused

theorem applied_others {requests : List TunnelCall} {tunnels left : TunnelTable}
    (run : applied requests tunnels = .ok left) {id : Word64}
    (other : id ∉ requests.map TunnelCall.id) : left.get? id = tunnels.get? id := by
  have none : requests.filter (fun call => call.id = id) = [] := by
    rw [List.filter_eq_nil_iff]
    intro call member here
    exact other (List.mem_map.mpr ⟨call, member, by simpa using here⟩)
  rw [applied_get? run id, none]
  rfl

/-- The table a call leaves that raised after some of its requests: of each tunnel, what those
that address it made of it in their order, and the others untouched. -/
structure PartlyApplied (tunnels left : TunnelTable) (e : Raised)
    (before later : List TunnelCall) : Prop where
  run : applied before tunnels = .ok left
  cause : (later = [] ∧ printTunnelSummary left = .error e) ∨
    ∃ call rest, later = call :: rest ∧ Refused left call e
  addressed : ∀ id, left.get? id =
    (before.filter (fun call => call.id = id)).foldl TunnelCall.onTunnel (tunnels.get? id)
  others : ∀ id, id ∉ before.map TunnelCall.id → left.get? id = tunnels.get? id

/-- A call that raises leaves what the requests before the exception made of the table, all of
them when it is the summary that raises. -/
theorem createIpTunnel_partial (requests : List TunnelCall) (tunnels left : TunnelTable)
    (e : Raised) (raised : createIpTunnel requests tunnels = (some e, left)) :
    ∃ before later, requests = before ++ later ∧
      PartlyApplied tunnels left e before later := by
  have ends := createIpTunnel_ends requests tunnels
  rw [raised] at ends
  cases ends with
  | summary run outcome =>
    have failed : printTunnelSummary left = .error e := by
      cases summary : printTunnelSummary left with
      | error e' =>
        rw [summary] at outcome
        exact congrArg Except.error (Option.some.inj outcome).symm
      | ok printed =>
        rw [summary] at outcome
        cases outcome
    exact ⟨requests, [], (List.append_nil _).symm,
      ⟨run, .inl ⟨rfl, failed⟩, applied_get? run, fun _ => applied_others run⟩⟩
  | stopped before later call split run refused =>
    exact ⟨before, call :: later, split,
      ⟨run, .inr ⟨call, later, rfl, refused⟩, applied_get? run, fun _ => applied_others run⟩⟩

def createThenInvalid : List TunnelCall :=
  [(zeroTunnelCounters, decRequest operationCreate (List.replicate 64 97#8)),
    (zeroTunnelCounters, decRequest operationCreate [])]

theorem createThenInvalid_not_atomic : ∃ e left,
    createIpTunnel createThenInvalid .empty = (some e, left) ∧
    left.get? 10003#64 ≠ (Dict.empty : TunnelTable).get? 10003#64 := by
  refine ⟨_, _, rfl, ?_⟩
  decide

theorem createThenInvalid_partial : ∃ e left, createThenInvalid.length = 2 ∧
    createIpTunnel createThenInvalid .empty = (some e, left) ∧
    ∃ before later, createThenInvalid = before ++ later ∧
      PartlyApplied .empty left e before later :=
  ⟨_, _, rfl, rfl, createIpTunnel_partial createThenInvalid .empty _ _ rfl⟩

/-- The operations as they are named: create adds under an unused id and is refused under a
used one, update changes a tunnel that is there, delete removes it, and no other code does
anything. -/
def tunnelOp (tunnels : TunnelTable) (call : TunnelCall) : TunnelTable :=
  if call.2.operation = operationCreate then
    match tunnels.get? call.id, checkTunnelValidity call.2 with
    | none, .ok tunnelType => tunnels.set call.id (call.tunnel tunnelType)
    | _, _ => tunnels
  else if call.2.operation = operationUpdate then
    match tunnels.get? call.id with
    | some tunnel => tunnels.set call.id (tunnel.copyIpsec call.2)
    | none => tunnels
  else if call.2.operation = operationDelete then tunnels.erase call.id
  else tunnels

/-- A create finds its id unused, or what it would store; a request without one of the three
named operations finds its id unused. -/
def Expected (tunnels : TunnelTable) (call : TunnelCall) : Prop :=
  if call.2.operation = operationCreate then
    ∀ tunnelType stored, checkTunnelValidity call.2 = .ok tunnelType →
      tunnels.get? call.id = some stored → stored = call.tunnel tunnelType
  else if call.2.operation = operationUpdate ∨ call.2.operation = operationDelete then True
  else tunnels.get? call.id = none

/-- The operation has nothing to do: a create of a used id or one that fails its check, an
update of no tunnel or to what it is already, a delete of no tunnel, or none of the three. -/
def Idle (tunnels : TunnelTable) (call : TunnelCall) : Prop :=
  if call.2.operation = operationCreate then
    tunnels.get? call.id = none → ∀ tunnelType, checkTunnelValidity call.2 ≠ .ok tunnelType
  else if call.2.operation = operationUpdate then
    ∀ stored, tunnels.get? call.id = some stored → stored.copyIpsec call.2 = stored
  else call.2.operation = operationDelete → tunnels.get? call.id = none

/-- Each request finds what it expects in the table before it. After one that raises, which the
server answers with no further request, there is nothing left to do. -/
def Conforms : List TunnelCall → TunnelTable → Prop
  | [], _ => True
  | call :: rest, tunnels =>
    Expected tunnels call ∧ ((∃ e, Refused tunnels call e) → ∀ later ∈ rest, Idle tunnels later) ∧
      ((∀ e, ¬ Refused tunnels call e) → Conforms rest (tunnelOp tunnels call))

theorem tunnelOp_idle (tunnels : TunnelTable) (call : TunnelCall) :
    tunnelOp tunnels call = tunnels ↔ Idle tunnels call := by
  unfold tunnelOp Idle
  by_cases create : call.2.operation = operationCreate
  · simp only [if_pos create]
    cases stored : tunnels.get? call.id with
    | some tunnel => simp
    | none =>
      cases check : checkTunnelValidity call.2 with
      | error e => simp
      | ok tunnelType => simp [Dict.set_eq_self_iff, stored]
  · simp only [if_neg create]
    by_cases update : call.2.operation = operationUpdate
    · simp only [if_pos update]
      cases stored : tunnels.get? call.id with
      | none => simp
      | some tunnel =>
        rw [Dict.set_eq_self_iff, stored]
        simp [eq_comm]
    · simp only [if_neg update]
      by_cases delete : call.2.operation = operationDelete
      · simp [delete, Dict.erase_eq_self_iff]
      · simp [delete]

theorem tunnelOp_refused {tunnels : TunnelTable} {call : TunnelCall} {e : Raised}
    (refused : Refused tunnels call e) : tunnelOp tunnels call = tunnels := by
  unfold tunnelOp
  cases refused with
  | invalid create check =>
    rw [if_pos create, check]
    cases tunnels.get? call.id <;> rfl
  | unknown update absent =>
    have noCreate : call.2.operation ≠ operationCreate := update ▸ update_ne_create
    rw [if_neg noCreate, if_pos update, absent]

theorem refused_expected {tunnels : TunnelTable} {call : TunnelCall} {e : Raised}
    (refused : Refused tunnels call e) : Expected tunnels call := by
  unfold Expected
  cases refused with
  | invalid create check =>
    rw [if_pos create, check]
    intro tunnelType stored impossible
    cases impossible
  | unknown update absent =>
    have noCreate : call.2.operation ≠ operationCreate := update ▸ update_ne_create
    rw [if_neg noCreate, if_pos (.inl update)]
    trivial

theorem applyCall_expected {tunnels changed : TunnelTable} {call : TunnelCall}
    (run : applyCall tunnels call = .ok changed) :
    changed = tunnelOp tunnels call ↔ Expected tunnels call := by
  have result := applyCall_result tunnels call
  rw [run] at result
  unfold tunnelOp Expected
  cases result with
  | created tunnelType create check =>
    simp only [if_pos create, check]
    cases stored : tunnels.get? call.id with
    | none => simp
    | some tunnel => simp [Dict.set_eq_self_iff, stored]
  | updated tunnel update stored =>
    have noCreate : call.2.operation ≠ operationCreate := update ▸ update_ne_create
    rw [if_neg noCreate, if_pos update, stored, if_neg noCreate, if_pos (.inl update)]
    exact iff_true_intro rfl
  | removed noCreate noUpdate =>
    simp only [if_neg noCreate, noUpdate, if_false, false_or]
    by_cases delete : call.2.operation = operationDelete
    · simp [delete]
    · simp [delete, Dict.erase_eq_self_iff]

theorem refused_or_changed (tunnels : TunnelTable) (call : TunnelCall) :
    (∃ e, applyCall tunnels call = .error e ∧ Refused tunnels call e) ∨
    ∃ changed, applyCall tunnels call = .ok changed ∧ ∀ e, ¬ Refused tunnels call e := by
  have result := applyCall_result tunnels call
  cases run : applyCall tunnels call with
  | error e =>
    rw [run] at result
    cases result with
    | raised refused => exact .inl ⟨e, rfl, refused⟩
  | ok changed =>
    rw [run] at result
    refine .inr ⟨changed, rfl, fun e refused => ?_⟩
    cases refused with
    | invalid create check =>
      cases result with
      | created tunnelType _ accepted => cases check.symm.trans accepted
      | updated tunnel update _ => exact update_ne_create (update.symm.trans create)
      | removed noCreate _ => exact noCreate create
    | unknown update absent =>
      cases result with
      | created tunnelType create _ => exact update_ne_create (update.symm.trans create)
      | updated tunnel _ stored => cases absent.symm.trans stored
      | removed _ noUpdate => exact noUpdate update

theorem idle_stream (rest : List TunnelCall) (tunnels : TunnelTable) :
    (∀ n, (rest.take n).foldl tunnelOp tunnels = tunnels) ↔ ∀ call ∈ rest, Idle tunnels call := by
  induction rest with
  | nil => simp
  | cons call rest ih =>
    rw [List.forall_mem_cons, ← ih, ← tunnelOp_idle]
    constructor
    · intro same
      have first : tunnelOp tunnels call = tunnels := same 1
      refine ⟨first, fun n => ?_⟩
      have next := same (n + 1)
      rwa [List.take_succ_cons, List.foldl_cons, first] at next
    · rintro ⟨first, later⟩ n
      cases n with
      | zero => rfl
      | succ n => rw [List.take_succ_cons, List.foldl_cons, first, later]

theorem createIpTunnel_others (requests : List TunnelCall) (tunnels : TunnelTable) {id : Word64}
    (other : id ∉ requests.map TunnelCall.id) :
    (createIpTunnel requests tunnels).2.get? id = tunnels.get? id := by
  have ends := createIpTunnel_ends requests tunnels
  generalize createIpTunnel requests tunnels = out at ends
  obtain ⟨outcome, left⟩ := out
  cases ends with
  | summary run _ => exact applied_others run other
  | stopped before later call split run _ =>
    apply applied_others run
    intro member
    rw [split, List.map_append] at other
    exact other (List.mem_append_left _ member)

theorem prefixes_conform (requests : List TunnelCall) (tunnels : TunnelTable) :
    (∀ n, (createIpTunnel (requests.take n) tunnels).2 =
      (requests.take n).foldl tunnelOp tunnels) ↔ Conforms requests tunnels := by
  induction requests generalizing tunnels with
  | nil => simp [createIpTunnel_done, Conforms]
  | cons call rest ih =>
    rcases refused_or_changed tunnels call with ⟨e, raised, refused⟩ | ⟨changed, run, accepted⟩
    · have same := tunnelOp_refused refused
      have idle : Conforms (call :: rest) tunnels ↔ ∀ later ∈ rest, Idle tunnels later :=
        ⟨fun conforms => conforms.2.1 ⟨e, refused⟩,
          fun idle => ⟨refused_expected refused, fun _ => idle,
            fun none => absurd refused (none e)⟩⟩
      rw [idle, ← idle_stream]
      constructor
      · intro agree n
        have next := agree (n + 1)
        rw [List.take_succ_cons, createIpTunnel_raised raised, List.foldl_cons, same] at next
        exact next.symm
      · rintro quiet (_ | n)
        · exact createIpTunnel_done tunnels
        · rw [List.take_succ_cons, createIpTunnel_raised raised, List.foldl_cons, same]
          exact (quiet n).symm
    · constructor
      · intro agree
        have first := agree 1
        rw [List.take_succ_cons, List.take_zero, createIpTunnel_changed run,
          createIpTunnel_done] at first
        have first : changed = tunnelOp tunnels call := first
        refine ⟨(applyCall_expected run).mp first, fun ⟨e, refused⟩ => absurd refused (accepted e),
          fun _ => (ih _).mp fun n => ?_⟩
        have next := agree (n + 1)
        rwa [List.take_succ_cons, createIpTunnel_changed run, List.foldl_cons, first] at next
      · rintro ⟨expected, _, later⟩ (_ | n)
        · exact createIpTunnel_done tunnels
        · have first := (applyCall_expected run).mpr expected
          rw [List.take_succ_cons, createIpTunnel_changed run, List.foldl_cons, first]
          exact (ih _).mpr (later accepted) n

/-- The table after every part of a stream is what the operations of that part make of it one
after the other, if and only if each request finds what it expects. -/
theorem createIpTunnel_conforms (requests : List TunnelCall) (tunnels : TunnelTable) :
    ((∀ n, (createIpTunnel (requests.take n) tunnels).2 =
        (requests.take n).foldl tunnelOp tunnels) ↔ Conforms requests tunnels) ∧
    ∀ id, id ∉ requests.map TunnelCall.id →
      (createIpTunnel requests tunnels).2.get? id = tunnels.get? id :=
  ⟨prefixes_conform requests tunnels, fun _ other => createIpTunnel_others requests tunnels other⟩

def createThen (operation : Operation) : List TunnelCall :=
  [(zeroTunnelCounters, decRequest operationCreate (List.replicate 64 97#8)),
    (zeroTunnelCounters, decRequest operation (List.replicate 64 98#8))]

/-- A second create takes the place of the tunnel, and a request without an operation removes
it. -/
theorem createThen_diverges :
    (createIpTunnel (createThen operationCreate) .empty).2.entries ≠
      ((createThen operationCreate).foldl tunnelOp .empty).entries ∧
    (createIpTunnel (createThen operationNone) .empty).2.entries ≠
      ((createThen operationNone).foldl tunnelOp .empty).entries := by
  constructor <;> decide

end SessionOffload
