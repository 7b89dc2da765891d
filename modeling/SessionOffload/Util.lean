import SessionOffload.Proto

/-! The conversions of opof_util.cc between the C structs and the messages.
`none` stands for undefined behaviour: a 16-byte copy out of a shorter vector, or a
store behind the end of the caller's error array. -/
namespace SessionOffload

/-- Sets every field but the addresses of the other family, which keep what the
reused message object held before. -/
def convertSessionRequest2cpp (requestC : SessionRequestT) (request : SessionRequest) :
    SessionRequest :=
  let request := { request with
    sessionId := requestC.sessId
    inLif := requestC.inlif
    outLif := requestC.outlif
    ipVersion := requestC.ipver
    sourcePort := requestC.srcPort.setWidth 32 }
  let request :=
    if requestC.ipver = ipv6 then { request with sourceIpV6 := requestC.srcIPV6.toList }
    else { request with sourceIp := requestC.srcIP }
  let request :=
    if requestC.ipver = ipv6 then { request with destinationIpV6 := requestC.dstIPV6.toList }
    else { request with destinationIp := requestC.dstIP }
  let request := { request with
    destinationPort := requestC.dstPort.setWidth 32
    protocolId := requestC.proto }
  -- the action is a local object: nothing of an earlier request is left in it
  let action := { ActionParameters.empty with actionType := requestC.actType }
  let action :=
    if requestC.ipver = ipv6 then { action with actionNextHopV6 := requestC.nextHopV6.toList }
    else { action with actionNextHop := requestC.nextHop }
  { request with action := action, cacheTimeout := requestC.cacheTimeout }

/-- memcpy of 16 bytes out of a vector that holds exactly the received field. -/
def memcpyS6Addr (charArray : List Byte) : Option In6Addr :=
  if h : 16 ≤ charArray.length then
    some (Vector.ofFn fun i => charArray.get ⟨i.val, Nat.lt_of_lt_of_le i.isLt h⟩)
  else none

/-- Sets the addresses of the announced family only; those of the other family keep
what the reused struct held before. -/
def convertSessionRequest2c (request : SessionRequest) (requestC : SessionRequestT) :
    Option SessionRequestT := do
  let requestC := { requestC with
    sessId := request.sessionId
    inlif := request.inLif
    outlif := request.outLif
    ipver := request.ipVersion }
  let requestC ←
    if requestC.ipver = ipv6 then do
      let srcIPV6 ← memcpyS6Addr request.sourceIpV6
      some { requestC with srcIPV6 }
    else some { requestC with srcIP := request.sourceIp }
  let requestC ←
    if requestC.ipver = ipv6 then do
      let dstIPV6 ← memcpyS6Addr request.destinationIpV6
      some { requestC with dstIPV6 }
    else some { requestC with dstIP := request.destinationIp }
  let requestC := { requestC with
    srcPort := request.sourcePort.setWidth 16
    dstPort := request.destinationPort.setWidth 16
    proto := request.protocolId
    actType := request.action.actionType
    cacheTimeout := request.cacheTimeout }
  if requestC.ipver = ipv6 then do
    let nextHopV6 ← memcpyS6Addr request.action.actionNextHopV6
    some { requestC with nextHopV6 }
  else some { requestC with nextHop := request.action.actionNextHop }

def copyResponseErrors :
    List SessionResponseError → Nat → Vector AddSessionErrors bufferMax →
      Option (Vector AddSessionErrors bufferMax)
  | [], _, sessionErrors => some sessionErrors
  | e :: rest, i, sessionErrors =>
    if h : i < bufferMax then
      copyResponseErrors rest (i + 1) (sessionErrors.set i ⟨e.sessionId, e.errorStatus⟩ h)
    else none

def convertAddSessionResponse2c (responseC : AddSessionResponseT)
    (response : AddSessionResponse) : Option AddSessionResponseT :=
  if response.responseError.length > 0 then do
    let sessionErrors ← copyResponseErrors response.responseError 0 responseC.sessionErrors
    some { responseC with numberErrors := response.responseError.length, sessionErrors }
  else some { responseC with numberErrors := 0 }

def convertSessionResponse2c (responsecpp : SessionResponse) : SessionResponseT where
  sessionId := responsecpp.sessionId
  inPackets := responsecpp.inPackets
  outPackets := responsecpp.outPackets
  inBytes := responsecpp.inBytes
  outBytes := responsecpp.outBytes
  sessionState := responsecpp.sessionState
  sessionCloseCode := responsecpp.sessionCloseCode
  requestStatus := responsecpp.requestStatus

def convertSessionResponse2cpp (responsec : SessionResponseT) : SessionResponse where
  sessionId := responsec.sessionId
  inPackets := responsec.inPackets
  outPackets := responsec.outPackets
  inBytes := responsec.inBytes
  outBytes := responsec.outBytes
  sessionState := responsec.sessionState
  sessionCloseCode := responsec.sessionCloseCode
  requestStatus := responsec.requestStatus

@[simp] theorem convertSessionResponse_roundtrip (r : SessionResponseT) :
    convertSessionResponse2c (convertSessionResponse2cpp r) = r := rfl

end SessionOffload
