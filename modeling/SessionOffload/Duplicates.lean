import SessionOffload.NosLifecycle

/-! Which requests the offload device refuses as duplicates. It compares the 32-bit
address fields of every request, whatever its IP version, and never the 16-byte ones. -/
namespace SessionOffload
open Transition

inductive Addresses where
  | v4 (source destination : Word32)
  | v6 (source destination : List Byte)
  | unknown
  deriving DecidableEq

/-- Interfaces, ports, protocol, IP version, and the addresses of that version. -/
structure Flow where
  inLif : Word32
  outLif : Word32
  sourcePort : Word32
  destinationPort : Word32
  protocolId : ProtocolId
  ipVersion : IpVersion
  addresses : Addresses
  deriving DecidableEq

def addressesOf (ipVersion : IpVersion) (sourceIp destinationIp : Word32)
    (sourceIpV6 destinationIpV6 : List Byte) : Addresses :=
  if ipVersion = ipv4 then .v4 sourceIp destinationIp
  else if ipVersion = ipv6 then .v6 sourceIpV6 destinationIpV6
  else .unknown

def SessionRequest.flow (request : SessionRequest) : Flow where
  inLif := request.inLif
  outLif := request.outLif
  sourcePort := request.sourcePort
  destinationPort := request.destinationPort
  protocolId := request.protocolId
  ipVersion := request.ipVersion
  addresses := addressesOf request.ipVersion request.sourceIp request.destinationIp
    request.sourceIpV6 request.destinationIpV6

def OffloadSession.flow (session : OffloadSession) : Flow where
  inLif := session.inLif
  outLif := session.outLif
  sourcePort := session.sourcePort
  destinationPort := session.destinationPort
  protocolId := session.protocolId
  ipVersion := session.ipVersion
  addresses := addressesOf session.ipVersion session.sourceIp session.destinationIp
    session.sourceIpV6 session.destinationIpV6

def Stored (request : SessionRequest) (s : SessionTableServicer) : Prop :=
  ∃ e ∈ s.offloadSessionTable.values, e.flow = request.flow

def AnswersExists (timestamp : Timestamp) (request : SessionRequest)
    (s : SessionTableServicer) : Prop :=
  ∃ errors t, s.addRequest timestamp request = some (errors, t) ∧
    ⟨request.sessionId, AddSessionStatus.alreadyExists.code⟩ ∈ errors

/-- The seven compared fields tell the request's flow from those of the stored sessions. -/
structure Told (request : SessionRequest) (s : SessionTableServicer) : Prop where
  ipv4 : request.ipVersion = ipv4 → ∀ e ∈ s.offloadSessionTable.values,
    e.seven = request.seven → e.ipVersion = ipv4
  mistaken : request.ipVersion = ipv6 → printable request = true → s.Known request →
    Stored request s
  missed : request.ipVersion = ipv6 → Stored request s → s.Known request

def OffloadSession.Printed (e : OffloadSession) : Prop :=
  e.ipVersion = ipv4 ∨
    e.ipVersion = ipv6 ∧ e.sourceIpV6.length = 16 ∧ e.destinationIpV6.length = 16

theorem printable_iff (request : SessionRequest) : printable request = true ↔
    request.ipVersion = ipv4 ∨ request.ipVersion = ipv6 ∧ request.sourceIpV6.length = 16 ∧
      request.destinationIpV6.length = 16 :=
  decide_eq_true_iff

theorem ipv6_ne_ipv4 : ipv6 ≠ ipv4 := by decide

theorem act_flow (session : OffloadSession) (action : SessionAction) :
    (session.act action).flow = session.flow := by
  cases action <;> rfl

theorem act_printed (session : OffloadSession) (action : SessionAction)
    (printed : session.Printed) : (session.act action).Printed := by
  cases action <;> exact printed

theorem nosPath_printed {maxSessionId : Nat} {positive : 0 < maxSessionId}
    {ls : List (NosCall × NosReply)} {s : SessionTableServicer}
    (path : Path NosStep (.init maxSessionId positive) ls s) :
    ∀ e ∈ s.offloadSessionTable.values, e.Printed := by
  apply nosPath_values OffloadSession.Printed _ _ path
  · exact fun _ request shown => (printable_iff request).mp shown
  · exact fun session action _ printed => act_printed session action printed

theorem answersExists_iff {s : SessionTableServicer} (inv : s.Inv) (timestamp : Timestamp)
    (request : SessionRequest) : AnswersExists timestamp request s ↔
      printable request = true ∧ s.Known request := by
  rcases SessionTableServicer.addRequest_cases inv timestamp request with
    ⟨hidden, run⟩ | ⟨shown, errors, refusal, run⟩ | ⟨_, absent, _, slot, _, _, _, run⟩
  · constructor
    · rintro ⟨errors, t, run', _⟩
      rw [run] at run'
      cases run'
    · rintro ⟨shown, _⟩
      rw [hidden] at shown
      cases shown
  · have listed : AnswersExists timestamp request s ↔
        ⟨request.sessionId, AddSessionStatus.alreadyExists.code⟩ ∈ errors := by
      constructor
      · rintro ⟨errors', t, run', member⟩
        rw [run] at run'
        cases Option.some.inj run'
        exact member
      · exact fun member => ⟨errors, s.probed, run, member⟩
    rw [listed]
    cases refusal with
    | known present room => simp [shown, present]
    | full absent crowded => simp [absent, AddSessionStatus.code]
    | both present crowded => simp [shown, present]
  · constructor
    · rintro ⟨errors, t, run', member⟩
      rw [run] at run'
      cases Option.some.inj run'
      cases member
    · exact fun h => absurd h.2 absent

theorem flow_version {e : OffloadSession} {request : SessionRequest}
    (same : e.flow = request.flow) : e.ipVersion = request.ipVersion :=
  congrArg Flow.ipVersion same

theorem flow_iff_seven {e : OffloadSession} {request : SessionRequest}
    (version : request.ipVersion = ipv4) :
    e.flow = request.flow ↔ e.seven = request.seven ∧ e.ipVersion = ipv4 := by
  constructor
  · intro same
    have four := (flow_version same).trans version
    simp only [OffloadSession.flow, SessionRequest.flow, addressesOf, four, version, if_true,
      Flow.mk.injEq, Addresses.v4.injEq] at same
    obtain ⟨h₁, h₂, h₃, h₄, h₅, _, h₆, h₇⟩ := same
    exact ⟨by simp [OffloadSession.seven, SessionRequest.seven, *], four⟩
  · rintro ⟨same, four⟩
    simp only [OffloadSession.seven, SessionRequest.seven, SevenTuple.mk.injEq] at same
    obtain ⟨h₁, h₂, h₃, h₄, h₅, h₆, h₇⟩ := same
    simp [OffloadSession.flow, SessionRequest.flow, addressesOf, *]

theorem stored_v6_printable {s : SessionTableServicer}
    (printed : ∀ e ∈ s.offloadSessionTable.values, e.Printed) {request : SessionRequest}
    (stored : Stored request s) : printable request = true := by
  obtain ⟨e, member, same⟩ := stored
  have version := flow_version same
  rw [printable_iff]
  rcases printed e member with four | ⟨six, source, destination⟩
  · exact .inl (version ▸ four)
  · right
    have other : request.ipVersion = ipv6 := version ▸ six
    have addresses := congrArg Flow.addresses same
    simp only [OffloadSession.flow, SessionRequest.flow, addressesOf, six, other,
      if_neg ipv6_ne_ipv4, if_true, Addresses.v6.injEq] at addresses
    exact ⟨other, addresses.1 ▸ source, addresses.2 ▸ destination⟩

theorem seven_unique {s : SessionTableServicer} (inv : s.Inv) {e f : OffloadSession}
    (left : e ∈ s.offloadSessionTable.values) (right : f ∈ s.offloadSessionTable.values)
    (same : e.seven = f.seven) : e = f :=
  List.inj_on_of_nodup_map inv.distinct left right same

/-- Where no stored session of an IPv6 request's flow differs from it in the 32-bit fields,
as when every IPv6 message leaves them out, what goes wrong is that a stored session of
another flow compares equal. -/
theorem told_iff_of_plain {s : SessionTableServicer} (inv : s.Inv) {request : SessionRequest}
    (six : request.ipVersion = ipv6) (shown : printable request = true)
    (plain : ∀ e ∈ s.offloadSessionTable.values,
      e.flow = request.flow → e.seven = request.seven) :
    Told request s ↔
      ∀ e ∈ s.offloadSessionTable.values, e.seven = request.seven → e.flow = request.flow := by
  constructor
  · intro told e member same
    obtain ⟨f, stored, flow⟩ := told.mistaken six shown ⟨e, member, same⟩
    have equal : e = f := seven_unique inv member stored (same.trans (plain f stored flow).symm)
    rw [equal]
    exact flow
  · intro sound
    constructor
    · exact fun four => absurd (six.symm.trans four) ipv6_ne_ipv4
    · rintro _ _ ⟨e, member, same⟩
      exact ⟨e, member, sound e member same⟩
    · rintro _ ⟨e, member, flow⟩
      exact ⟨e, member, plain e member flow⟩

theorem answersExists_exact {s : SessionTableServicer} (inv : s.Inv)
    (printed : ∀ e ∈ s.offloadSessionTable.values, e.Printed) (timestamp : Timestamp)
    (request : SessionRequest) :
    (AnswersExists timestamp request s ↔ Stored request s) ↔ Told request s := by
  rw [answersExists_iff inv]
  by_cases four : request.ipVersion = ipv4
  · have shown := (printable_iff request).mpr (.inl four)
    have six : request.ipVersion ≠ ipv6 := fun six => ipv6_ne_ipv4 (six.symm.trans four)
    constructor
    · intro exact
      refine ⟨fun _ e member same => ?_, fun h => absurd h six, fun h => absurd h six⟩
      obtain ⟨f, stored, flow⟩ := exact.mp ⟨shown, e, member, same⟩
      obtain ⟨seven, version⟩ := (flow_iff_seven four).mp flow
      rw [seven_unique inv member stored (same.trans seven.symm)]
      exact version
    · intro told
      constructor
      · rintro ⟨_, e, member, same⟩
        exact ⟨e, member, (flow_iff_seven four).mpr ⟨same, told.ipv4 four e member same⟩⟩
      · rintro ⟨e, member, flow⟩
        exact ⟨shown, e, member, ((flow_iff_seven four).mp flow).1⟩
  · constructor
    · intro exact
      exact ⟨fun h => absurd h four, fun _ shown known => exact.mp ⟨shown, known⟩,
        fun _ stored => (exact.mpr stored).2⟩
    · intro told
      constructor
      · rintro ⟨shown, known⟩
        have six := ((printable_iff request).mp shown).resolve_left four
        exact told.mistaken six.1 shown known
      · intro stored
        have shown := stored_v6_printable printed stored
        have six := ((printable_iff request).mp shown).resolve_left four
        exact ⟨shown, told.missed six.1 stored⟩

def ToldAdd (s : SessionTableServicer) (l : NosCall × NosReply) (_ : SessionTableServicer) :
    Prop :=
  ∀ timestamp request, l.1 = .add timestamp request → Told request s

theorem told_distinct {s t : SessionTableServicer} {l : NosCall × NosReply} (inv : s.Inv)
    (step : NosStep s l t) (told : ToldAdd s l t)
    (before : (s.offloadSessionTable.values.map OffloadSession.flow).Nodup) :
    (t.offloadSessionTable.values.map OffloadSession.flow).Nodup := by
  apply effect_distinct (nosStep_effect inv step).1 OffloadSession.flow act_flow ?_ before
  rintro timestamp request rfl shown absent _ present
  obtain ⟨e, member, same⟩ := List.mem_map.mp present
  have flow : e.flow = request.flow := same
  rcases (printable_iff request).mp shown with four | ⟨six, _⟩
  · exact absent ⟨e, member, ((flow_iff_seven four).mp flow).1⟩
  · exact absent ((told timestamp request rfl).missed six ⟨e, member, flow⟩)

/-- In every reachable state a request is answered as already existing exactly when its
flow is stored, if and only if the compared fields tell it from the stored sessions; and
where they told every request of the run, no two stored sessions share a flow. -/
theorem duplicates_exact (maxSessionId : Nat) (positive : 0 < maxSessionId)
    (ls : List (NosCall × NosReply)) (s : SessionTableServicer)
    (path : Path NosStep (.init maxSessionId positive) ls s) :
    (∀ timestamp request,
      (AnswersExists timestamp request s ↔ Stored request s) ↔ Told request s) ∧
    (Path (restrict NosStep ToldAdd) (.init maxSessionId positive) ls s →
      (s.offloadSessionTable.values.map OffloadSession.flow).Nodup) := by
  constructor
  · intro timestamp request
    exact answersExists_exact (nosPath_inv path) (nosPath_printed path) timestamp request
  · intro told
    exact (nosPath_distinct OffloadSession.flow
      (fun _ _ _ inv step told before => told_distinct inv step told before) told).2

def ipv6Request (sessionId : Word64) (source destination : Byte) : SessionRequest :=
  { SessionRequest.empty with
    sessionId := sessionId
    inLif := 1#32
    outLif := 2#32
    ipVersion := ipv6
    sourceIpV6 := List.replicate 16 source
    sourcePort := 9000#32
    destinationIpV6 := List.replicate 16 destination
    destinationPort := 443#32
    protocolId := 6#32 }

theorem duplicates_exact_ipv6 : ∃ ls s, Path NosStep .simulator ls s ∧
    s.offloadSessionTable.values = [newOffloadSession dawn (ipv6Request 1000#64 1#8 2#8)] ∧
    (AnswersExists dawn (ipv6Request 1001#64 1#8 2#8) s ↔
      Stored (ipv6Request 1001#64 1#8 2#8) s) := by
  have path : Path NosStep .simulator
      [(.add dawn (ipv6Request 1000#64 1#8 2#8), .add (some []))] _ := .single rfl
  refine ⟨_, _, path, rfl, ((duplicates_exact 20 (by decide) _ _ path).1 dawn _).mpr ?_⟩
  refine ⟨fun four => absurd four (by decide), fun _ _ _ => ?_, fun _ _ => ?_⟩
  · exact ⟨_, List.mem_singleton_self _, rfl⟩
  · exact ⟨_, List.mem_singleton_self _, rfl⟩

/-- Two IPv6 sessions between the same ports but other addresses: the second is refused. -/
theorem other_addresses_refused : ∃ ls s, Path NosStep .simulator ls s ∧
    AnswersExists dawn (ipv6Request 1001#64 3#8 4#8) s ∧
    ¬ Stored (ipv6Request 1001#64 3#8 4#8) s := by
  refine ⟨[(.add dawn (ipv6Request 1000#64 1#8 2#8), .add (some []))], _, .single rfl,
    ⟨_, _, rfl, List.mem_singleton_self _⟩, ?_⟩
  rintro ⟨e, member, same⟩
  rw [List.mem_singleton.mp member] at same
  exact absurd same (by decide)

end SessionOffload
