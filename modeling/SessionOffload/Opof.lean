import Mathlib.Data.List.Basic

/-! The C interface types: the constants, enumerations and structures of opof.h, with
the record and the capacity of opof_hash.h, under their C names in camel case (BUFFER_MAX
is `bufferMax`, sessionRequest_t is `SessionRequestT`). Integers keep their C width; a
signed use of a word is written with toInt or signExtend where it happens. -/
namespace SessionOffload

abbrev Byte := BitVec 8
abbrev Word16 := BitVec 16
abbrev Word32 := BitVec 32
/-- `unsigned long` of the C structs and `uint64` of the messages alike. -/
abbrev Word64 := BitVec 64

def bufferMax : Nat := 64

def hashtableSize : Nat := 1000

/-- UINT_MAX of limits.h, widened to the 64-bit key it is compared with. -/
def uintMax : Word64 := 4294967295#64

abbrev In6Addr := Vector Byte 16

/- A C enumeration object holds any int, and the message enumerations are open,
so the three that arrive in a request stay words with named values. -/
abbrev IpVersion := Word32
abbrev ProtocolId := Word32
abbrev ActionValue := Word32

def ipv4 : IpVersion := 0#32
def ipv6 : IpVersion := 1#32
def actionForward : ActionValue := 1#32

inductive SessionState where
  | established | closing1 | closing2 | closed | unknownState
  deriving DecidableEq, Repr

inductive SessionClose where
  | notClosed | finack | rst | timeout | unknownCloseCode
  deriving DecidableEq, Repr

inductive RequestStatus where
  | accepted | rejected | rejectedSessionNonexistent | rejectedSessionTableFull
  | rejectedSessionAlreadyExists | noClosedSessions | rejectedInternalError
  deriving DecidableEq, Repr

inductive SessionStatus where
  | ok | cancelled | unknown | invalidArgument | deadlineExceeded | notFound | alreadyExists
  | permissionDenied | resourceExhausted | failedPrecondition | aborted | outOfRange
  | unimplemented | internal | unavailable | dataLoss | unauthenticated | doNotUse
  deriving DecidableEq, Repr

def SessionStatus.code : SessionStatus → Int
  | .ok => 0 | .cancelled => 1 | .unknown => 2 | .invalidArgument => 3
  | .deadlineExceeded => 4 | .notFound => 5 | .alreadyExists => 6 | .permissionDenied => 7
  | .resourceExhausted => 8 | .failedPrecondition => 9 | .aborted => 10 | .outOfRange => 11
  | .unimplemented => 12 | .internal => 13 | .unavailable => 14 | .dataLoss => 15
  | .unauthenticated => 16 | .doNotUse => -1

structure SessionRequestT where
  sessId : Word64
  inlif : Word32
  outlif : Word32
  srcIP : Word32
  srcIPV6 : In6Addr
  dstIP : Word32
  dstIPV6 : In6Addr
  srcPort : Word16
  dstPort : Word16
  proto : ProtocolId
  ipver : IpVersion
  actType : ActionValue
  nextHop : Word32
  nextHopV6 : In6Addr
  cacheTimeout : Word32
  deriving DecidableEq, Repr

structure SessionResponseT where
  sessionId : Word64
  inPackets : Word64
  outPackets : Word64
  inBytes : Word64
  outBytes : Word64
  sessionState : SessionState
  sessionCloseCode : SessionClose
  requestStatus : RequestStatus
  deriving DecidableEq, Repr

structure AddSessionErrors where
  sessionId : Word64
  errorStatus : Int
  deriving DecidableEq, Repr

structure AddSessionResponseT where
  requestStatus : RequestStatus
  sessionErrors : Vector AddSessionErrors bufferMax
  numberErrors : Nat
  errorStatus : Word64

structure Counters where
  inPackets : Word64
  outPackets : Word64
  inBytes : Word64
  outBytes : Word64
  deriving DecidableEq, Repr

/-- record_t; `addr` names the block malloc returned for it, so that two records
are the same object exactly when their blocks are. -/
structure RecordT where
  addr : Nat
  sessionId : Word64
  inLif : Word32
  outLif : Word32
  ipVersion : IpVersion
  sourceIp : Word32
  sourcePort : Word32
  dstIp : Word32
  dstPort : Word32
  counters : Counters
  protocolId : ProtocolId
  actionValue : ActionValue
  sessionState : SessionState
  sessionClose : SessionClose
  deriving DecidableEq, Repr

end SessionOffload
