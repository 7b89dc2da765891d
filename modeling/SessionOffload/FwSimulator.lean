import SessionOffload.NosRun
import SessionOffload.Lib.Loop

/-! The firewall of fw_sessions_client_simulator.py, and the firewall and the offload
device together. The random values of a new session are arguments; its start time is a
float that is only printed and has no field here. -/
namespace SessionOffload
open Transition

structure FwSession where
  inLif : Word32
  outLif : Word32
  ipVersion : IpVersion
  sourceIp : Word32
  sourcePort : Word32
  destinationIp : Word32
  destinationPort : Word32
  protocolId : ProtocolId
  sourceIpV6 : Option (List Byte)
  destinationIpV6 : Option (List Byte)
  inPackets : Nat
  inBytes : Nat
  outPackets : Nat
  outBytes : Nat
  timeout : Nat
  offloaded : Bool
  deriving DecidableEq, Repr

structure Firewall where
  sessionTable : Dict Nat FwSession
  lastSessionId : Nat

namespace Firewall

def startSessionId : Nat := 1000
def maxSessionId : Nat := 999999

structure Draw where
  sourcePort : Word32
  destinationPort : Word32
  sourceIp : Word32
  destinationIp : Word32
  sourceIpV6 : In6Addr
  destinationIpV6 : In6Addr
  inBytes : Nat
  outBytes : Nat

/-- The `type` argument of session_addSessions; any other word than IPv4 is IPv6. -/
inductive SessionType where
  | ipv4 | ipv6
  deriving DecidableEq

/-- Looks upward from the last id for one that is not in the table; the counter starts
over only where a call finds it exactly at the maximum. -/
def nextSessionId (fw : Firewall) : Option Nat :=
  Loop.run (fun id => decide (id ∈ fw.sessionTable.keys)) (fun id => some (id + 1))
    fw.sessionTable.keys.length
    (if fw.lastSessionId = maxSessionId then startSessionId else fw.lastSessionId)

/-- 12.2.3.4 as a little-endian word. -/
def nextHop : Word32 := 67305996#32

def buildRequest (type : SessionType) (draw : Draw) (sessionId : Word64) : SessionRequest :=
  let session := { SessionRequest.empty with
    sessionId := sessionId
    inLif := 1#32
    outLif := 2#32
    sourcePort := draw.sourcePort
    destinationPort := draw.destinationPort
    protocolId := 6#32
    action := { ActionParameters.empty with
      actionType := actionForward
      actionNextHop := nextHop } }
  match type with
  | .ipv4 => { session with
      ipVersion := SessionOffload.ipv4, sourceIp := draw.sourceIp,
      destinationIp := draw.destinationIp }
  | .ipv6 => { session with
      ipVersion := SessionOffload.ipv6, sourceIpV6 := draw.sourceIpV6.toList,
      destinationIpV6 := draw.destinationIpV6.toList }

/-- The local entry of a request, marked as offloaded before the device has seen it. -/
def localSession (type : SessionType) (draw : Draw) (session : SessionRequest) : FwSession where
  inLif := session.inLif
  outLif := session.outLif
  ipVersion := session.ipVersion
  sourceIp := session.sourceIp
  sourcePort := session.sourcePort
  destinationIp := session.destinationIp
  destinationPort := session.destinationPort
  protocolId := session.protocolId
  sourceIpV6 := if type = .ipv4 then none else some session.sourceIpV6
  destinationIpV6 := if type = .ipv4 then none else some session.destinationIpV6
  inPackets := 4
  inBytes := draw.inBytes
  outPackets := 3
  outBytes := draw.outBytes
  timeout := 3600
  offloaded := true

/-- One turn of the loop of session_addSessions. An id that does not fit the field of the
request raises. -/
def newSession (type : SessionType) (draw : Draw) (fw : Firewall) :
    Option (SessionRequest × Firewall) := do
  let id ← fw.nextSessionId
  let sessionId ← uint64 id
  let session := buildRequest type draw sessionId
  some (session, ⟨fw.sessionTable.set id (localSession type draw session), id⟩)

def newSessions (type : SessionType) : List Draw → Firewall →
    Option (List SessionRequest × Firewall)
  | [], fw => some ([], fw)
  | draw :: draws, fw => do
    let (session, fw) ← newSession type draw fw
    let (sessions, fw) ← newSessions type draws fw
    some (session :: sessions, fw)

/-- The loop over responseError at the end of session_addSessions. -/
def markFailed : List SessionResponseError → Firewall → Option Firewall
  | [], fw => some fw
  | error :: errors, fw => do
    let session ← fw.sessionTable.get? error.sessionId.toNat
    markFailed errors { fw with
      sessionTable :=
        fw.sessionTable.set error.sessionId.toNat { session with offloaded := false } }

/-- One turn of the loop of sessionClosedSessions; a session that is not in the local table
is only reported as an error. -/
def sessionClosed (response : TimedSessionResponse) (fw : Firewall) : Firewall :=
  if response.sessionId.toNat ∈ fw.sessionTable.keys then
    { fw with sessionTable := fw.sessionTable.erase response.sessionId.toNat }
  else fw

def Offloaded (fw : Firewall) (id : Nat) : Prop :=
  ∃ session, fw.sessionTable.get? id = some session ∧ session.offloaded = true

instance (fw : Firewall) (id : Nat) : Decidable (fw.Offloaded id) :=
  decidable_of_iff ((fw.sessionTable.get? id).any FwSession.offloaded = true) (by
    cases found : fw.sessionTable.get? id <;> simp [Offloaded, found])

end Firewall

/-- The RPC the firewall is in. The requests of an addSession stream and the responses of
a closed report are on their way between the two. -/
inductive Phase where
  | idle
  | adding (requests : List SessionRequest) (errors : List SessionResponseError)
  | closing (slots : List Nat) (responses : List TimedSessionResponse)

structure System where
  firewall : Firewall
  server : SessionTableServicer
  phase : Phase

inductive Act where
  | addSessions (type : Firewall.SessionType) (draws : List Firewall.Draw)
  | served (timestamp : Timestamp)
  | answered
  | getClosedSessions
  | slotRead
  | reported
  | reportEnds
  | getSession (sessionId : Word64)
  | traffic (sessionAction : Nat → SessionAction)

/-- What the firewall sees of a step: whether it knows a reported session, and how a
getSession of an id, offloaded or not at that moment, was answered. -/
inductive Seen where
  | nothing
  | report (known : Bool)
  | session (offloaded : Bool) (status : GrpcStatus) (response : TimedSessionResponse)

/-- The handler of a getSession raises where it finds the session and cannot build the
response. -/
def getSessionRaises (sessionId : Word64) (s : SessionTableServicer) : Bool :=
  (s.findSessionByClientId sessionId).any fun e => (e.2.response sessionId).isNone

/-- The system without failing RPCs: an exception in a handler has no step. The traffic
thread runs at any time. -/
def systemServe (w : System) : Act → Option (System × Seen)
  | .addSessions type draws =>
    match w.phase with
    | .idle => do
      let (requests, firewall) ← Firewall.newSessions type draws w.firewall
      some (⟨firewall, w.server, .adding requests []⟩, .nothing)
    | _ => none
  | .served timestamp =>
    match w.phase with
    | .adding (request :: requests) errors => do
      let (failed, server) ← w.server.addRequest timestamp request
      some (⟨w.firewall, server, .adding requests (errors ++ failed)⟩, .nothing)
    | _ => none
  | .answered =>
    match w.phase with
    | .adding [] errors => do
      let firewall ← Firewall.markFailed errors w.firewall
      some (⟨firewall, w.server, .idle⟩, .nothing)
    | _ => none
  | .getClosedSessions =>
    match w.phase with
    | .idle => some ({ w with phase := .closing w.server.offloadSessionTable.keys [] }, .nothing)
    | _ => none
  | .slotRead =>
    match w.phase with
    | .closing (slot :: slots) responses =>
      match w.server.closedTurn slot with
      | (.raised, _) => none
      | (.passed, server) => some (⟨w.firewall, server, .closing slots responses⟩, .nothing)
      | (.yielded response, server) =>
        some (⟨w.firewall, server, .closing slots (responses ++ [response])⟩, .nothing)
    | _ => none
  | .reported =>
    match w.phase with
    | .closing slots (response :: responses) =>
      some (⟨w.firewall.sessionClosed response, w.server, .closing slots responses⟩,
        .report (decide (response.sessionId.toNat ∈ w.firewall.sessionTable.keys)))
    | _ => none
  | .reportEnds =>
    match w.phase with
    | .closing [] [] => some ({ w with phase := .idle }, .nothing)
    | _ => none
  | .getSession sessionId =>
    match w.phase with
    | .idle =>
      if getSessionRaises sessionId w.server then none
      else
        let (status, response) := w.server.getSession sessionId
        some (w, .session (decide (w.firewall.Offloaded sessionId.toNat)) status response)
    | _ => none
  | .traffic sessionAction =>
    some ({ w with server := w.server.simulateSessionsTraffic sessionAction }, .nothing)

abbrev SystemStep : System → Act × Seen → System → Prop := serves systemServe

end SessionOffload
