import SessionOffload.Util
import SessionOffload.ServerTest

/-! The RPC handlers of opof_session_server.cc over the sample store. The context is
modelled by the answers of IsCancelled; `none` is undefined behaviour, as below. -/
namespace SessionOffload.SessionTableImpl

def abandoned : GrpcStatus :=
  ⟨.cancelled, "Deadline exceeded or Client cancelled, abandoning."⟩

/-- The read loop of addSession. `cancelled i` is what IsCancelled answers when the
`i`-th message of the stream has been read; `requestC` is the one struct all messages
are decoded into. -/
def addSessionLoop (cancelled : Nat → Bool) :
    Nat → List SessionRequest → SessionRequestT → AddSessionResponse → Server →
      Option (GrpcStatus × AddSessionResponse × Server)
  | _, [], _, response, s => some (.OK, response, s)
  | i, request :: rest, requestC, response, s => do
    let requestC ← convertSessionRequest2c request requestC
    if cancelled i then some (abandoned, response, s)
    else
      let (status, s) := opofAddSessionServer requestC s
      let response :=
        if status ≠ .ok then
          { response with
            responseError := response.responseError ++ [⟨request.sessionId, status.code⟩] }
        else response
      addSessionLoop cancelled (i + 1) rest requestC response s

/-- `requestC` holds what the uninitialised local struct happens to contain. -/
def addSession (cancelled : Nat → Bool) (reader : List SessionRequest)
    (requestC : SessionRequestT) (s : Server) :
    Option (GrpcStatus × AddSessionResponse × Server) :=
  addSessionLoop cancelled 0 reader requestC ⟨[]⟩ s

def getSession (cancelled : Bool) (sid : SessionId) (responseC : SessionResponseT)
    (response : SessionResponse) (s : Server) : GrpcStatus × SessionResponse :=
  if cancelled then (abandoned, response)
  else
    match opofGetSessionServer sid.sessionId responseC s with
    | (.ok, responseC) => (.OK, convertSessionResponse2cpp responseC)
    | (.notFound, _) => (⟨.notFound, "Get Session Not Found"⟩, response)
    | (_, _) => (⟨.unknown, "Internal Open Offload Server Error"⟩, response)

def deleteSession (cancelled : Bool) (sid : SessionId) (responseC : SessionResponseT)
    (response : SessionResponse) (s : Server) : GrpcStatus × SessionResponse × Server :=
  if cancelled then (abandoned, response, s)
  else
    match opofDelSessionServer sid.sessionId responseC s with
    | (.ok, responseC, s) => (.OK, convertSessionResponse2cpp responseC, s)
    | (.notFound, _, s) => (⟨.notFound, "Delete Session Not Found"⟩, response, s)
    | (_, _, s) => (⟨.unknown, "Internal Open Offload Server Error"⟩, response, s)

/-- The page size is BUFFER_MAX whatever the request asks for, and the page number of
the request is not read. -/
def getAllSessions (cancelled : Bool) (request : SessionRequestArgs)
    (responses : SessionResponses) (s : Server) :
    Option (GrpcStatus × SessionResponses × Server) :=
  if cancelled then some (abandoned, responses, s)
  else do
    let pageCount : Int := 0
    let (allSessions, startSession, s) ←
      opofGetAllSessionsServer bufferMax request.startSession pageCount s
    some (.OK,
      { sessionInfo := responses.sessionInfo ++ allSessions.map convertSessionResponse2cpp
        nextkey := startSession }, s)

def closedStores (scan : ClosedScan) : List Nat := scan.stores.map Prod.fst

def closedReads (scan : ClosedScan) : List Nat := List.range scan.i

/-- One message of the closed stream; its status is set to _ACCEPTED by the handler. -/
def closedMessage (closedResponse : SessionResponseT) : SessionResponse :=
  { convertSessionResponse2cpp closedResponse with requestStatus := .accepted }

/-- The messages written to the stream. The array `closedSessions` has BUFFER_MAX
entries: a store or a read behind them is undefined. -/
def getClosedSessions (cancelled : Bool) (request : SessionRequestArgs) (s : Server) :
    Option (GrpcStatus × List SessionResponse × Server) :=
  if cancelled then some (abandoned, [], s)
  else
    let scan := opofGetClosedSessionsServer request.pageSize s
    if (closedStores scan ++ closedReads scan).all (· < bufferMax) then
      if scan.i = 0 then some (⟨.notFound, "No Closed Sessions"⟩, [], scan.server)
      else some (.OK,
        (closedReads scan).filterMap (fun i => (scan.stores.lookup i).map closedMessage),
        scan.server)
    else none

end SessionOffload.SessionTableImpl
