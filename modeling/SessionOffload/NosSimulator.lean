import SessionOffload.Proto
import SessionOffload.Lib.Dict

/-! The offload device of nos_sessions_server_simulator.py. Its table maps slots, which
the server chooses, to sessions. Python integers have no bound, so a counter can outgrow
the message field it is reported in. The time of day is an argument wherever a method
reads the clock, and so are the random choices of the traffic thread. -/
namespace SessionOffload

structure OffloadSession where
  clientSessionId : Word64
  inLif : Word32
  outLif : Word32
  ipVersion : IpVersion
  action : ActionParameters
  protocolId : ProtocolId
  sourceIp : Word32
  sourceIpV6 : List Byte
  sourcePort : Word32
  destinationIp : Word32
  destinationIpV6 : List Byte
  destinationPort : Word32
  state : SessionState
  inPackets : Nat
  inBytes : Nat
  outPackets : Nat
  outBytes : Nat
  startTime : Option Timestamp
  endTime : Option Timestamp
  timeOut : Nat
  sessionCloseCode : SessionClose
  deriving DecidableEq, Repr

structure SessionTableServicer where
  lastSessionId : Nat
  maxSessionId : Nat
  positive : 0 < maxSessionId
  offloadSessionTable : Dict Nat OffloadSession

/-- A value a uint64 field takes; a larger one raises ValueError. -/
def uint64 (n : Nat) : Option Word64 :=
  if n < 18446744073709551616 then some (BitVec.ofNat 64 n) else none

/-- The sessionResponse that getSession, getClosedSessions and getAllSessions build. -/
def OffloadSession.response (sessionId : Word64) (session : OffloadSession) :
    Option TimedSessionResponse := do
  let inPackets ← uint64 session.inPackets
  let inBytes ← uint64 session.inBytes
  let outPackets ← uint64 session.outPackets
  let outBytes ← uint64 session.outBytes
  some {
    sessionId := sessionId
    inPackets := inPackets
    outPackets := outPackets
    inBytes := inBytes
    outBytes := outBytes
    sessionState := session.state
    sessionCloseCode := session.sessionCloseCode
    requestStatus := .accepted
    startTime := session.startTime
    endTime := session.endTime }

/-- Printing the request looks its IP version up by number and formats the addresses of
that version; inet_ntop wants exactly 16 bytes. -/
def printable (request : SessionRequest) : Bool :=
  request.ipVersion = ipv4 ∨
    request.ipVersion = ipv6 ∧ request.sourceIpV6.length = 16 ∧
      request.destinationIpV6.length = 16

def OffloadSession.sevenTuple (session : OffloadSession) (request : SessionRequest) : Bool :=
  request.sourceIp = session.sourceIp ∧ request.sourcePort = session.sourcePort ∧
    request.destinationIp = session.destinationIp ∧
    request.destinationPort = session.destinationPort ∧
    request.protocolId = session.protocolId ∧ request.inLif = session.inLif ∧
    request.outLif = session.outLif

/-- What Python's `if slot` tests of a slot or None. -/
def truthy (slot : Option Nat) : Bool := slot.any (· ≠ 0)

def newOffloadSession (timestamp : Timestamp) (request : SessionRequest) : OffloadSession where
  clientSessionId := request.sessionId
  inLif := request.inLif
  outLif := request.outLif
  ipVersion := request.ipVersion
  action := request.action
  protocolId := request.protocolId
  sourceIp := request.sourceIp
  sourceIpV6 := request.sourceIpV6
  sourcePort := request.sourcePort
  destinationIp := request.destinationIp
  destinationIpV6 := request.destinationIpV6
  destinationPort := request.destinationPort
  state := .established
  inPackets := 0
  inBytes := 0
  outPackets := 0
  outBytes := 0
  startTime := some timestamp
  endTime := none
  timeOut := 3600
  sessionCloseCode := .notClosed

/-- random.choice of the traffic thread with its random.randint draws. -/
inductive SessionAction where
  | updateCounters (inPackets : Fin 334) (inBytes : Fin 33334) (outPackets : Fin 334)
      (outBytes : Fin 33334)
  | noOp
  | timeout (timestamp : Timestamp)
  | clientFin (timestamp : Timestamp)
  | serverFin (timestamp : Timestamp)

def OffloadSession.act (session : OffloadSession) : SessionAction → OffloadSession
  | .updateCounters inPackets inBytes outPackets outBytes =>
    { session with
      inPackets := session.inPackets + inPackets
      inBytes := session.inBytes + inBytes
      outPackets := session.outPackets + outPackets
      outBytes := session.outBytes + outBytes }
  | .noOp => session
  | .timeout timestamp =>
    { session with state := .closed, sessionCloseCode := .timeout, endTime := some timestamp }
  | .clientFin timestamp =>
    { session with state := .closed, sessionCloseCode := .finack, endTime := some timestamp }
  | .serverFin timestamp =>
    { session with state := .closed, sessionCloseCode := .finack, endTime := some timestamp }

namespace SessionTableServicer

def init (maxSessionId : Nat) (positive : 0 < maxSessionId) : SessionTableServicer :=
  ⟨1, maxSessionId, positive, .empty⟩

def simulator : SessionTableServicer := init 20 (by decide)

/-- The turns of nextSessionId that are left until `cnt` reaches the maximum, where it
returns -1, here none. -/
def probe (maxSessionId : Nat) (occupied : List Nat) : Nat → Nat → Option Nat × Nat
  | 0, lastSessionId => (none, lastSessionId)
  | turns + 1, lastSessionId =>
    let lastSessionId := if lastSessionId = maxSessionId then 1 else lastSessionId
    if lastSessionId ∈ occupied then probe maxSessionId occupied turns (lastSessionId + 1)
    else (some lastSessionId, lastSessionId)

def nextSessionId (s : SessionTableServicer) : Option Nat × SessionTableServicer :=
  let (slot, lastSessionId) :=
    probe s.maxSessionId s.offloadSessionTable.keys (s.maxSessionId - 1) s.lastSessionId
  (slot, { s with lastSessionId := lastSessionId })

def findSessionByTuple (request : SessionRequest) (s : SessionTableServicer) : Option Nat :=
  (s.offloadSessionTable.entries.find? (fun e => e.2.sevenTuple request)).map Prod.fst

/-- One turn of the addSession loop. An exception, here none, comes while the request is
printed and leaves the table alone. The test of the required fields for None is not
here: a field of a received message never is. -/
def addRequest (timestamp : Timestamp) (request : SessionRequest) (s : SessionTableServicer) :
    Option (List SessionResponseError × SessionTableServicer) :=
  if printable request then
    let known : List SessionResponseError :=
      if truthy (s.findSessionByTuple request) then
        [⟨request.sessionId, AddSessionStatus.alreadyExists.code⟩]
      else []
    match s.nextSessionId with
    | (none, t) => some (known ++ [⟨request.sessionId, AddSessionStatus.tableFull.code⟩], t)
    | (some newSessionId, t) =>
      if known = [] then
        some ([], { t with
          offloadSessionTable :=
            t.offloadSessionTable.set newSessionId (newOffloadSession timestamp request) })
      else some (known, t)
  else none

/-- The whole stream. The sessions of the turns before an exception stay installed. -/
def addSession : List (Timestamp × SessionRequest) → SessionTableServicer →
    Option AddSessionResponse × SessionTableServicer
  | [], s => (some ⟨[]⟩, s)
  | (timestamp, request) :: requests, s =>
    match s.addRequest timestamp request with
    | none => (none, s)
    | some (errors, t) =>
      let (response, u) := addSession requests t
      (response.map (fun later => ⟨errors ++ later.responseError⟩), u)

/-- The loop that getSession and deleteSession both start with. -/
def findSessionByClientId (sessionId : Word64) (s : SessionTableServicer) :
    Option (Nat × OffloadSession) :=
  s.offloadSessionTable.entries.find? (fun e => e.2.clientSessionId = sessionId)

/-- A response that cannot be built is caught and answered like an unknown id. -/
def getSession (sessionId : Word64) (s : SessionTableServicer) :
    GrpcStatus × TimedSessionResponse :=
  let nonexistent : TimedSessionResponse :=
    { TimedSessionResponse.empty with requestStatus := .rejectedSessionNonexistent }
  match s.findSessionByClientId sessionId with
  | some (_, session) =>
    match session.response sessionId with
    | some response => (.OK, response)
    | none => (⟨.unknown, "ERROR: The session was not found heer."⟩, nonexistent)
  | none => (⟨.unknown, "ERROR: The session was not found."⟩, nonexistent)

def deleteSession (timestamp : Timestamp) (sessionId : Word64) (s : SessionTableServicer) :
    TimedSessionResponse × SessionTableServicer :=
  match s.findSessionByClientId sessionId with
  | some (ourSessionId, _) =>
    if truthy (some ourSessionId) then
      ({ TimedSessionResponse.empty with
          sessionId := sessionId
          sessionState := .closing1
          requestStatus := .accepted
          startTime := some timestamp
          endTime := some timestamp },
        { s with offloadSessionTable := s.offloadSessionTable.erase ourSessionId })
    else ({ TimedSessionResponse.empty with requestStatus := .rejectedSessionNonexistent }, s)
  | none => ({ TimedSessionResponse.empty with requestStatus := .rejectedSessionNonexistent }, s)

/-- One pass of the traffic thread, which sleeps between passes. -/
def simulateSessionsTraffic (sessionAction : Nat → SessionAction) (s : SessionTableServicer) :
    SessionTableServicer :=
  { s with
    offloadSessionTable := s.offloadSessionTable.mapValues fun slot session =>
      if session.state = .closed then session else session.act (sessionAction slot) }

inductive ClosedTurn where
  | raised
  | passed
  | yielded (response : TimedSessionResponse)
  deriving DecidableEq

/-- The slot may be gone since the list of slots was made, a KeyError. The entry is
deleted before its response is built. -/
def closedTurn (slot : Nat) (s : SessionTableServicer) : ClosedTurn × SessionTableServicer :=
  match s.offloadSessionTable.get? slot with
  | none => (.raised, s)
  | some session =>
    if session.state = .closed then
      (((session.response session.clientSessionId).map ClosedTurn.yielded).getD .raised,
        { s with offloadSessionTable := s.offloadSessionTable.erase slot })
    else (.passed, s)

structure ClosedReport where
  responses : List TimedSessionResponse
  completed : Bool
  server : SessionTableServicer

def closedLoop : List Nat → SessionTableServicer → ClosedReport
  | [], s => ⟨[], true, s⟩
  | slot :: slots, s =>
    match s.closedTurn slot with
    | (.raised, t) => ⟨[], false, t⟩
    | (.passed, t) => closedLoop slots t
    | (.yielded response, t) =>
      let rest := closedLoop slots t
      { rest with responses := response :: rest.responses }

def getClosedSessions (s : SessionTableServicer) : ClosedReport :=
  closedLoop s.offloadSessionTable.keys s

def pageBounds (request : SessionRequestArgs) (sessionCount : Nat) : Int × Int :=
  if request.pageSize ≠ 0#32 ∧ request.page ≠ 0#32 then
    let startIndex : Int :=
      if request.page = 1#32 then 0 else request.pageSize.toNat * (request.page.toNat - 1)
    let endIndex : Int := request.pageSize.toNat * request.page.toNat - 1
    (startIndex, if endIndex > sessionCount - 1 then sessionCount - 1 else endIndex)
  else (0, sessionCount - 1)

/-- `list(offloadSessionTable)[x]` with its response; an index past the end raises. -/
def sessionInfoAt (s : SessionTableServicer) (x : Nat) : Option TimedSessionResponse := do
  let (_, session) ← s.offloadSessionTable.entries[x]?
  session.response session.clientSessionId

structure TimedSessionResponses where
  sessionInfo : List TimedSessionResponse
  nextkey : Word64
  deriving DecidableEq, Repr

def getAllSessions (request : SessionRequestArgs) (s : SessionTableServicer) :
    Option TimedSessionResponses := do
  let (startIndex, endIndex) := pageBounds request s.offloadSessionTable.entries.length
  let indices := List.range' startIndex.toNat (endIndex + 1 - startIndex).toNat
  let sessionInfo ← indices.mapM s.sessionInfoAt
  some ⟨sessionInfo, 23333#64⟩

end SessionTableServicer
end SessionOffload
