import SessionOffload.SessionServer

/-! The client methods of opof_session_client.cc with the C wrappers of
opof_clientlib.cc, each composed with the handler it calls for a call that is not
cancelled and whose transport does not fail. -/
namespace SessionOffload

namespace SessionTableClient

/-- The write loop of addSessionClient: one message object serves the whole batch. -/
def writeRequests : List SessionRequestT → SessionRequest → List SessionRequest
  | [], _ => []
  | requestC :: rest, request =>
    let request := convertSessionRequest2cpp requestC request
    request :: writeRequests rest request

/-- Returns the status code. `stack` is what the server's uninitialised struct holds. -/
def addSessionClient (s : List SessionRequestT) (resp : AddSessionResponseT)
    (stack : SessionRequestT) (server : Server) :
    Option (Int × AddSessionResponseT × Server) := do
  let (status, response, server) ←
    SessionTableImpl.addSession (fun _ => false) (writeRequests s .empty) stack server
  let resp ← convertAddSessionResponse2c resp response
  some (status.errorCode.code, resp, server)

/-- `int sessionid` of the method set on the uint64 field of the message. -/
def narrow (sessionid : Word64) : Word64 := (sessionid.setWidth 32).signExtend 64

def getSessionClient (sessionid : Word64) (stack : SessionResponseT) (server : Server) :
    Int × SessionResponseT :=
  let (status, response) :=
    SessionTableImpl.getSession false ⟨narrow sessionid⟩ stack .empty server
  (status.errorCode.code, convertSessionResponse2c response)

def deleteSessionClient (sessionid : Word64) (stack : SessionResponseT) (server : Server) :
    Int × SessionResponseT × Server :=
  let (status, response, server) :=
    SessionTableImpl.deleteSession false ⟨narrow sessionid⟩ stack .empty server
  (status.errorCode.code, convertSessionResponse2c response, server)

structure Page where
  status : Int
  sessionStartId : Word64
  responses : List SessionResponseT
  server : Server

def Page.sessionCount (p : Page) : Nat := p.responses.length

def getAllSessions (pageSize : Word32) (sessionStartId : Word64) (server : Server) :
    Option Page := do
  let (status, response, server) ← SessionTableImpl.getAllSessions false
    { pageSize := pageSize, page := 0#32, startSession := sessionStartId } .empty server
  some {
    status := status.errorCode.code
    sessionStartId := response.nextkey
    responses := response.sessionInfo.map convertSessionResponse2c
    server := server }

/-- The read loop takes one message after the other off the stream; the session id
sent along is the default of the message. -/
def getClosedSessions (pageSize : Word32) (server : Server) : Option Page := do
  let (status, responses, server) ← SessionTableImpl.getClosedSessions false
    { pageSize := pageSize, page := 0#32, startSession := 0#64 } server
  some {
    status := status.errorCode.code
    sessionStartId := 0#64
    responses := responses.map convertSessionResponse2c
    server := server }

end SessionTableClient

def opofAddSession (req : List SessionRequestT) (resp : AddSessionResponseT)
    (stack : SessionRequestT) (server : Server) :
    Option (Int × AddSessionResponseT × Server) :=
  SessionTableClient.addSessionClient req resp stack server

def opofGetSession (session : Word64) (stack : SessionResponseT) (server : Server) :
    Int × SessionResponseT :=
  SessionTableClient.getSessionClient session stack server

def opofDelSession (sessionId : Word64) (stack : SessionResponseT) (server : Server) :
    Int × SessionResponseT × Server :=
  SessionTableClient.deleteSessionClient sessionId stack server

def opofGetClosedSessions (pageSize : Word32) (server : Server) :
    Option SessionTableClient.Page :=
  SessionTableClient.getClosedSessions pageSize server

def opofGetAllSessions (startSession : Word64) (pageSize : Word32) (server : Server) :
    Option SessionTableClient.Page :=
  SessionTableClient.getAllSessions pageSize startSession server

end SessionOffload
