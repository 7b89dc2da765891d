import SessionOffload.TunnelProto
import SessionOffload.Lib.Dict
import SessionOffload.Lib.Transition

/-! The tunnel table of tunnels_server.py: what a request has to satisfy, what
createIpTunnel does with a stream of requests, and the summary it ends with. -/
namespace SessionOffload
open Transition

inductive Raised where
  | tunnelValidationExcp (message : String)
  | attributeError
  | typeError
  | keyError
  deriving DecidableEq, Repr

inductive TunnelType where
  | geneveEncap | geneveDecap | ipsecDecryption | ipsecEncryption
  deriving DecidableEq, Repr

structure TunnelCounters where
  inPackets : Nat
  inPacketsDrops : Nat
  inBytes : Nat
  inBytesDrops : Nat
  outPackets : Nat
  outPacketsDrops : Nat
  outBytes : Nat
  outBytesDrops : Nat
  deriving DecidableEq, Repr

structure Tunnel where
  tunnelProto : IpTunnelRequest
  tunnelId : Word64
  tunnelType : TunnelType
  counters : TunnelCounters
  deriving DecidableEq, Repr

/-- The submessage of the stored request, which no request replaces later. -/
def Tunnel.matchCriteria (tunnel : Tunnel) : MatchCriteria := tunnel.tunnelProto.matchCriteria

abbrev TunnelTable := Dict Word64 Tunnel

def supportedIpsecEnc : List EncType := [aes256gcm64, aes256gcm96, aes256gcm128]

def capabilities : CapabilityResponse where
  matchCapabilities :=
    { ingressInterfaceMatching := true
      vxlanMatching := false
      geneveMatching := true
      tunnelMatching := false
      spiMatching := true }
  ipsecCapabilities :=
    { tunnelTypeSupported := [transport, tunnelMode, transportNatTraversal, tunnelNatTraversal]
      encryptionSupported := supportedIpsecEnc }
  geneveCapabilities := { numberGeneveOptionsSupported := 5#32 }

def validateIpv6Pair (pair : IPV6Pair) : Except Raised Unit :=
  if pair.sourceIp.length ≠ 32 then
    .error (.tunnelValidationExcp "IPV6 Source IP Isn't valid")
  else if pair.destinationIp.length ≠ 32 then
    .error (.tunnelValidationExcp "IPV6 Destination IP Isn't valid")
  else .ok ()

def validateMacPair (pair : MacPair) : Except Raised Unit :=
  if pair.sourceMac.length ≠ 12 then
    .error (.tunnelValidationExcp "Source MAC isn't valid in geneveEncap")
  else if pair.destinationMac.length ≠ 12 then
    .error (.tunnelValidationExcp "Destination MAC isn't valid in geneveEncap")
  else .ok ()

def validateGeneveOption (option : GENEVEOption) : Except Raised Unit :=
  if option.optionClass.toNat ≥ 65536 then
    .error (.tunnelValidationExcp "Optionclass is only 16 bits!")
  else if option.type.toNat ≥ 256 then
    .error (.tunnelValidationExcp "Type is only 8 bits!")
  else if option.length.toNat ≥ 32 then
    .error (.tunnelValidationExcp "Length of option is only 5 bits!")
  else if option.data.length % 4 ≠ 0 then
    .error (.tunnelValidationExcp "Data of an option must be multiply of 4")
  else if option.data.length / 4 ≠ option.length.toNat then
    .error (.tunnelValidationExcp "Option data and length field aren't matched!")
  else .ok ()

def validateGeneveOptions : List GENEVEOption → Except Raised Unit
  | [] => .ok ()
  | option :: options => do
    validateGeneveOption option
    validateGeneveOptions options

def checkGeneveEncapValidity (encap : GENEVEEncap) : Except Raised Unit := do
  validateMacPair (encap.innerMacPair.getD .empty)
  if encap.vni.toNat > 16777215 then
    .error (.tunnelValidationExcp "VNI is more than 24 bit, invalid")
  else
    match encap.ip with
    | none =>
      .error (.tunnelValidationExcp "No outer IP encapsulation found on geneve encap, invalid")
    | some (.outerIpv6Pair pair) => do
      validateIpv6Pair pair
      validateGeneveOptions encap.geneveOption
    | some (.outerIpv4Pair _) => validateGeneveOptions encap.geneveOption

/-- With neither member set the attribute looked up has no name, a TypeError. -/
def checkGeneveValidity (geneve : GENEVE) : Except Raised TunnelType :=
  match geneve.encapDecap with
  | some (.geneveEncap encap) => do
    checkGeneveEncapValidity encap
    .ok .geneveEncap
  | some .geneveDecap => .ok .geneveDecap
  | none => .error .typeError

/-- The loop over the security associations; the test for a missing SPI is inside it. -/
def checkIpsecSAs : Bool → List IPSecSAParams → Except Raised Unit
  | _, [] => .ok ()
  | spiFound, sa :: sas =>
    if sa.spi ≠ 0#32 then
      if sa.operation ≠ operationDelete ∧ sa.encryptionKey.length ≠ 64 then
        .error (.tunnelValidationExcp "Key used for IPSec isnt in right size of 256-bit")
      else checkIpsecSAs true sas
    else if spiFound = false then .error (.tunnelValidationExcp "No SPI found on tunnel")
    else checkIpsecSAs spiFound sas

def checkEncryptionType (encryptionType : EncType) : Except Raised Unit :=
  if encryptionType ∈ supportedIpsecEnc then .ok ()
  else .error (.tunnelValidationExcp "Not encryption type set on tunnel")

/-- With neither member set the code goes on with an empty IPSecEnc, and then reads from it
the list of security associations that only an IPSecDec has. -/
def checkIpsecTunnelValidity (ipsec : IPSecTunnel) : Except Raised TunnelType :=
  match ipsec.ipsec with
  | some (.ipsecDec dec) => do
    checkEncryptionType dec.encryptionType
    checkIpsecSAs false dec.ipsecSAs
    .ok .ipsecDecryption
  | some (.ipsecEnc enc) => do
    checkEncryptionType enc.encryptionType
    checkIpsecSAs false [enc.ipsecSA.getD .empty]
    .ok .ipsecEncryption
  | none => do
    checkEncryptionType IPSecEnc.empty.encryptionType
    .error .attributeError

def checkTunnelValidity (tunnelProto : IpTunnelRequest) : Except Raised TunnelType :=
  match tunnelProto.tunnel with
  | none => .error (.tunnelValidationExcp "No tunnel type passed to tunnel")
  | some (.geneve geneve) => checkGeneveValidity geneve
  | some (.ipsecTunnel ipsec) => checkIpsecTunnelValidity ipsec
  | some (.nat _) =>
    .error (.tunnelValidationExcp "Internel problem in server, no validation to tunnel")

/-- `tunnel_proto.ipsecTunnel.CopyFrom(request.ipsecTunnel)`: whatever member of the oneof was
set, ipsecTunnel is set afterwards, and empty when the request has none. -/
def Tunnel.copyIpsec (tunnel : Tunnel) (request : IpTunnelRequest) : Tunnel :=
  { tunnel with
    tunnelProto := { tunnel.tunnelProto with tunnel := some (.ipsecTunnel request.ipsecTunnel) } }

/-- One turn of the createIpTunnel loop. The counters of a new tunnel are drawn at random.
Every operation but the two named ones, the unknown ones included, removes the tunnel. -/
def applyRequest (counters : TunnelCounters) (request : IpTunnelRequest) (tunnels : TunnelTable) :
    Except Raised TunnelTable :=
  if request.operation = operationCreate then do
    let tunnelType ← checkTunnelValidity request
    .ok (tunnels.set request.tunnelId ⟨request, request.tunnelId, tunnelType, counters⟩)
  else if request.operation = operationUpdate then
    match tunnels.get? request.tunnelId with
    | none => .error .keyError
    | some tunnel => .ok (tunnels.set request.tunnelId (tunnel.copyIpsec request))
  else .ok (tunnels.erase request.tunnelId)

/-- A chain of the summary: a list that can grow, or a pair that cannot. -/
inductive Chain where
  | list (ids : List Word64)
  | tuple (matchedTunnelId tunnelId : Word64)
  deriving DecidableEq, Repr

def Chain.ids : Chain → List Word64
  | .list ids => ids
  | .tuple matchedTunnelId tunnelId => [matchedTunnelId, tunnelId]

structure Summary where
  saTunnels : List Word64
  tunnelsChaining : List Chain
  scannedTunnels : List Word64
  deriving DecidableEq, Repr

/-- `for chain in tunnels_chaining` of a tunnel that is not partially chained: the chain that
holds the matched tunnel is appended to, which a pair does not allow. None is the else
branch of the loop. -/
def appendChain (matchedTunnelId tunnelId : Word64) :
    List Chain → Except Raised (Option (List Chain))
  | [] => .ok none
  | chain :: chains =>
    if chain.ids.contains matchedTunnelId then
      match chain with
      | .list ids => .ok (some (.list (ids ++ [tunnelId]) :: chains))
      | .tuple _ _ => .error .attributeError
    else do
      let appended ← appendChain matchedTunnelId tunnelId chains
      .ok (appended.map (chain :: ·))

def summaryTurn (tunnels : TunnelTable) (tunnelId : Word64) (tunnel : Tunnel) (s : Summary) :
    Except Raised Summary :=
  if s.scannedTunnels.contains tunnelId then .ok s
  else
    let s := { s with scannedTunnels := s.scannedTunnels ++ [tunnelId] }
    let matchedTunnelId := tunnel.matchCriteria.tunnelId
    if matchedTunnelId = 0#64 then .ok { s with saTunnels := s.saTunnels ++ [tunnelId] }
    else if !tunnels.keys.contains matchedTunnelId then
      .error (.tunnelValidationExcp (s!"Tunnel id {tunnelId.toNat} is matched traffic from " ++
        s!"tunnel id {matchedTunnelId.toNat} which not exists"))
    else
      let s := { s with saTunnels := s.saTunnels.erase matchedTunnelId }
      if tunnel.matchCriteria.ipv4Match.sourceIp ≠ 0#32 then
        .ok { s with
          tunnelsChaining := s.tunnelsChaining ++ [.tuple matchedTunnelId tunnelId]
          scannedTunnels := s.scannedTunnels ++ [matchedTunnelId] }
      else do
        match ← appendChain matchedTunnelId tunnelId s.tunnelsChaining with
        | some chains => .ok { s with tunnelsChaining := chains }
        | none =>
          .ok { s with
            tunnelsChaining := s.tunnelsChaining ++ [.list [matchedTunnelId, tunnelId]]
            scannedTunnels := s.scannedTunnels ++ [matchedTunnelId] }

def summaryLoop (tunnels : TunnelTable) : List (Word64 × Tunnel) → Summary → Except Raised Summary
  | [], s => .ok s
  | (tunnelId, tunnel) :: rest, s => do
    let s ← summaryTurn tunnels tunnelId tunnel s
    summaryLoop tunnels rest s

def printTunnelSummary (tunnels : TunnelTable) : Except Raised (List Word64 × List Chain) := do
  let s ← summaryLoop tunnels tunnels.entries ⟨[], [], []⟩
  .ok (s.saTunnels, s.tunnelsChaining)

/-- The exception that ends the call, if one does, and the table it leaves: the requests
before an exception keep their effect. -/
def createIpTunnel : List (TunnelCounters × IpTunnelRequest) → TunnelTable →
    Option Raised × TunnelTable
  | [], tunnels =>
    match printTunnelSummary tunnels with
    | .error e => (some e, tunnels)
    | .ok _ => (none, tunnels)
  | (counters, request) :: requests, tunnels =>
    match applyRequest counters request tunnels with
    | .error e => (some e, tunnels)
    | .ok changed => createIpTunnel requests changed

def tunnelServe (tunnels : TunnelTable) (call : TunnelCounters × IpTunnelRequest) :
    Option (TunnelTable × Option Raised) :=
  match applyRequest call.1 call.2 tunnels with
  | .error e => some (tunnels, some e)
  | .ok changed => some (changed, none)

abbrev TunnelStep :
    TunnelTable → (TunnelCounters × IpTunnelRequest) × Option Raised → TunnelTable → Prop :=
  serves tunnelServe

/-- A stream is a run of its requests, up to the one that raises. -/
theorem createIpTunnel_path (requests : List (TunnelCounters × IpTunnelRequest))
    (tunnels : TunnelTable) :
    ∃ ls, Path TunnelStep tunnels ls (createIpTunnel requests tunnels).2 := by
  induction requests generalizing tunnels with
  | nil =>
    refine ⟨[], ?_⟩
    rw [createIpTunnel]
    split <;> exact .nil tunnels
  | cons first rest ih =>
    obtain ⟨counters, request⟩ := first
    rw [createIpTunnel]
    split
    · exact ⟨[], .nil tunnels⟩
    · next changed run =>
      obtain ⟨ls, later⟩ := ih changed
      have step : TunnelStep tunnels ((counters, request), none) changed := by
        simp only [serves, tunnelServe, run]
      exact ⟨_, .cons step later⟩

end SessionOffload
