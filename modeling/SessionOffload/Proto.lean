import SessionOffload.Opof

/-! The messages of openoffload.proto that the session service exchanges, with the
fields its code reads or writes. An unset scalar reads as zero and an unset byte
string as empty, so a freshly constructed message is the value `empty`. Transport
delivers a written message unchanged. -/
namespace SessionOffload

structure GrpcStatus where
  errorCode : SessionStatus
  errorMessage : String
  deriving DecidableEq, Repr

def GrpcStatus.OK : GrpcStatus := ⟨.ok, ""⟩

structure SessionId where
  sessionId : Word64

structure ActionParameters where
  actionType : ActionValue
  actionNextHop : Word32
  actionNextHopV6 : List Byte
  deriving DecidableEq, Repr

def ActionParameters.empty : ActionParameters := ⟨0#32, 0#32, []⟩

structure SessionRequest where
  sessionId : Word64
  inLif : Word32
  outLif : Word32
  ipVersion : IpVersion
  sourceIp : Word32
  sourceIpV6 : List Byte
  sourcePort : Word32
  destinationIp : Word32
  destinationIpV6 : List Byte
  destinationPort : Word32
  protocolId : ProtocolId
  action : ActionParameters
  cacheTimeout : Word32
  deriving DecidableEq, Repr

def SessionRequest.empty : SessionRequest where
  sessionId := 0#64
  inLif := 0#32
  outLif := 0#32
  ipVersion := 0#32
  sourceIp := 0#32
  sourceIpV6 := []
  sourcePort := 0#32
  destinationIp := 0#32
  destinationIpV6 := []
  destinationPort := 0#32
  protocolId := 0#32
  action := .empty
  cacheTimeout := 0#32

inductive AddSessionStatus where
  | accepted | rejected | tableFull | tableUnavailable | alreadyExists
  deriving DecidableEq, Repr

def AddSessionStatus.code : AddSessionStatus → Int
  | .accepted => 0 | .rejected => 1 | .tableFull => 2 | .tableUnavailable => 3
  | .alreadyExists => 4

structure SessionResponseError where
  sessionId : Word64
  errorStatus : Int
  deriving DecidableEq, Repr

/-- message addSessionResponse; the handler fills only the repeated error field. -/
structure AddSessionResponse where
  responseError : List SessionResponseError
  deriving DecidableEq, Repr

structure SessionResponse where
  sessionId : Word64
  inPackets : Word64
  outPackets : Word64
  inBytes : Word64
  outBytes : Word64
  sessionState : SessionState
  sessionCloseCode : SessionClose
  requestStatus : RequestStatus
  deriving DecidableEq, Repr

def SessionResponse.empty : SessionResponse where
  sessionId := 0#64
  inPackets := 0#64
  outPackets := 0#64
  inBytes := 0#64
  outBytes := 0#64
  sessionState := .established
  sessionCloseCode := .notClosed
  requestStatus := .accepted

structure Timestamp where
  seconds : Int
  nanos : Int
  deriving DecidableEq, Repr

/-- A sessionResponse of a server that sets the two times as well. -/
structure TimedSessionResponse extends SessionResponse where
  startTime : Option Timestamp
  endTime : Option Timestamp
  deriving DecidableEq, Repr

def TimedSessionResponse.empty : TimedSessionResponse := ⟨.empty, none, none⟩

structure SessionResponses where
  sessionInfo : List SessionResponse
  nextkey : Word64
  deriving DecidableEq, Repr

def SessionResponses.empty : SessionResponses := ⟨[], 0#64⟩

structure SessionRequestArgs where
  pageSize : Word32
  page : Word32
  startSession : Word64
  deriving DecidableEq, Repr

end SessionOffload
