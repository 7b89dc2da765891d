import SessionOffload.TunnelServer

/-! Validity of the stored tunnels. A create is validated before it is stored; an update
replaces the IPsec part of a stored tunnel, of whatever kind, as it comes. -/
namespace SessionOffload
open Transition

/-- Every stored tunnel would pass the check, with the type that is cached for it. -/
def ValidTable (tunnels : TunnelTable) : Prop :=
  ∀ tunnel ∈ tunnels.values, checkTunnelValidity tunnel.tunnelProto = .ok tunnel.tunnelType

def StaysValid (_ : TunnelTable) (_ : (TunnelCounters × IpTunnelRequest) × Option Raised)
    (t : TunnelTable) : Prop :=
  ValidTable t

/-- An update of a stored tunnel brings an IPsec part that the check accepts, for the
direction the tunnel has. -/
def SoundUpdate (s : TunnelTable) (l : (TunnelCounters × IpTunnelRequest) × Option Raised)
    (_ : TunnelTable) : Prop :=
  l.1.2.operation = operationUpdate → ∀ tunnel, s.get? l.1.2.tunnelId = some tunnel →
    checkIpsecTunnelValidity l.1.2.ipsecTunnel = .ok tunnel.tunnelType

inductive TunnelEffect (s t : TunnelTable) (counters : TunnelCounters)
    (request : IpTunnelRequest) : Prop where
  | raised (unknown : request.operation = operationUpdate → s.get? request.tunnelId = none)
      (same : t = s)
  | created (tunnelType : TunnelType) (operation : request.operation = operationCreate)
      (valid : checkTunnelValidity request = .ok tunnelType)
      (table : t = s.set request.tunnelId ⟨request, request.tunnelId, tunnelType, counters⟩)
  | updated (tunnel : Tunnel) (operation : request.operation = operationUpdate)
      (stored : s.get? request.tunnelId = some tunnel)
      (table : t = s.set request.tunnelId (tunnel.copyIpsec request))
  | removed (other : request.operation ≠ operationUpdate)
      (table : t = s.erase request.tunnelId)

theorem update_ne_create : operationUpdate ≠ operationCreate := by decide

theorem tunnelStep_effect {s t : TunnelTable} {counters : TunnelCounters}
    {request : IpTunnelRequest} {answer : Option Raised}
    (step : TunnelStep s ((counters, request), answer) t) : TunnelEffect s t counters request := by
  simp only [serves, tunnelServe] at step
  by_cases create : request.operation = operationCreate
  · simp only [applyRequest, if_pos create] at step
    cases valid : checkTunnelValidity request with
    | error e =>
      rw [valid] at step
      cases Option.some.inj step
      exact .raised (fun update => absurd (update.symm.trans create) update_ne_create) rfl
    | ok tunnelType =>
      rw [valid] at step
      cases Option.some.inj step
      exact .created tunnelType create valid rfl
  · by_cases update : request.operation = operationUpdate
    · simp only [applyRequest, if_neg create, if_pos update] at step
      cases stored : s.get? request.tunnelId with
      | none =>
        simp only [stored] at step
        cases Option.some.inj step
        exact .raised (fun _ => stored) rfl
      | some tunnel =>
        simp only [stored] at step
        cases Option.some.inj step
        exact .updated tunnel update stored rfl
    · simp only [applyRequest, if_neg create, if_neg update] at step
      cases Option.some.inj step
      exact .removed update rfl

theorem set_valid {s : TunnelTable} (valid : ValidTable s) (id : Word64) (tunnel : Tunnel) :
    ValidTable (s.set id tunnel) ↔
      checkTunnelValidity tunnel.tunnelProto = .ok tunnel.tunnelType := by
  constructor
  · intro after
    exact after tunnel (Dict.mem_values.mpr ⟨id, Dict.mem_set.mpr (.inl ⟨rfl, rfl⟩)⟩)
  · intro here other member
    obtain ⟨k, there⟩ := Dict.mem_values.mp member
    rcases Dict.mem_set.mp there with ⟨_, rfl⟩ | ⟨old, _⟩
    · exact here
    · exact valid other (Dict.mem_values.mpr ⟨k, old⟩)

theorem erase_valid {s : TunnelTable} (valid : ValidTable s) (id : Word64) :
    ValidTable (s.erase id) := by
  intro tunnel member
  obtain ⟨k, there⟩ := Dict.mem_values.mp member
  exact valid tunnel (Dict.mem_values.mpr ⟨k, (Dict.mem_erase.mp there).1⟩)

theorem staysValid_iff {s t : TunnelTable}
    {l : (TunnelCounters × IpTunnelRequest) × Option Raised} (valid : ValidTable s)
    (step : TunnelStep s l t) : StaysValid s l t ↔ SoundUpdate s l t := by
  obtain ⟨⟨counters, request⟩, answer⟩ := l
  cases tunnelStep_effect step with
  | raised unknown same =>
    constructor
    · intro _ update tunnel stored
      rw [unknown update] at stored
      cases stored
    · exact fun _ => same ▸ valid
  | created tunnelType create check table =>
    constructor
    · exact fun _ update => absurd (update.symm.trans create) update_ne_create
    · intro _
      rw [StaysValid, table]
      exact (set_valid valid _ _).mpr check
  | updated tunnel update stored table =>
    rw [StaysValid, table, set_valid valid]
    constructor
    · intro check _ other found
      rw [stored] at found
      cases Option.some.inj found
      exact check
    · exact fun sound => sound update tunnel stored
  | removed other table =>
    constructor
    · exact fun _ update => absurd update other
    · intro _
      rw [StaysValid, table]
      exact erase_valid valid _

/-- A run of requests keeps every stored tunnel valid, with the type cached for it the
right one, if and only if each update of a stored tunnel brings an IPsec part that passes
the check for the direction the tunnel has. -/
theorem tunnels_valid (ls : List ((TunnelCounters × IpTunnelRequest) × Option Raised))
    (tunnels : TunnelTable) :
    (Path (restrict TunnelStep StaysValid) .empty ls tunnels ↔
      Path (restrict TunnelStep SoundUpdate) .empty ls tunnels) ∧
    (Path (restrict TunnelStep SoundUpdate) .empty ls tunnels → ValidTable tunnels) := by
  have start : ValidTable .empty := fun _ member => by cases member
  constructor
  · exact Path.restrict_iff ValidTable (fun _ _ _ valid step => staysValid_iff valid step)
      (fun _ _ _ valid step sound => (staysValid_iff valid step).mpr sound) start
  · intro path
    exact path.invariant ValidTable
      (fun _ _ _ valid step => (staysValid_iff valid step.1).mpr step.2) start

def zeroTunnelCounters : TunnelCounters := ⟨0, 0, 0, 0, 0, 0, 0, 0⟩

def decRequest (operation : Operation) (encryptionKey : List Byte) : IpTunnelRequest where
  tunnelId := 10003#64
  operation := operation
  matchCriteria := .empty
  nextAction := 0#32
  tunnel := some (.ipsecTunnel
    ⟨some (.ipsecDec ⟨1#32, aes256gcm64, [⟨4589#32, encryptionKey, operationCreate⟩]⟩)⟩)

/-- An update whose key has 3 bytes is stored in place of one that was checked. -/
theorem update_unchecked : ∃ tunnels,
    createIpTunnel [(zeroTunnelCounters, decRequest operationCreate (List.replicate 64 97#8)),
      (zeroTunnelCounters, decRequest operationUpdate [1#8, 2#8, 3#8])] .empty = (none, tunnels) ∧
    ¬ ValidTable tunnels := by
  refine ⟨_, rfl, fun valid => ?_⟩
  have check := valid _ List.mem_cons_self
  exact absurd check (by decide)

end SessionOffload
