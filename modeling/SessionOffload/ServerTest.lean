import SessionOffload.Opof

/-! The sample store of opof_server_test.c. uthash is taken as a map iterated in
insertion order, so the table is the list of its records: HASH_ADD appends, HASH_DEL
unlinks one record, and `hh.next` of a record is the record behind it. A pointer is the
number of the block it points at; blocks are never numbered twice, so a pointer to a
freed record stays a pointer to no record of the table. `none` as the result of a
function is undefined behaviour. -/
namespace SessionOffload

/-- The static variables of the store, with the state of malloc and of rand(). -/
structure Server where
  /-- static record_t *sessions -/
  sessions : List RecordT
  /-- static record_t *start; NULL is `none` -/
  start : Option Nat
  /-- blocks allocated so far -/
  heap : Nat
  /-- the values the next calls of rand() return -/
  rand : Nat → Nat

def Server.init (rand : Nat → Nat) : Server := ⟨[], none, 0, rand⟩

def Server.ids (s : Server) : List Word64 := s.sessions.map RecordT.sessionId

def range (lower upper : Nat) (random : Nat) : Nat := random % (upper - lower + 1) + lower

def drawCounters (rand : Nat → Nat) : Counters where
  inPackets := BitVec.ofNat 64 (range 100 1000 (rand 0))
  outPackets := BitVec.ofNat 64 (range 110 1500 (rand 1))
  inBytes := BitVec.ofNat 64 (range 1000 5000 (rand 2))
  outBytes := BitVec.ofNat 64 (range 1000 5000 (rand 3))

def skipCounters (rand : Nat → Nat) (k : Nat) : Nat := rand (k + 4)

def Server.hashFind (s : Server) (sessionId : Word64) : Option RecordT :=
  s.sessions.find? (fun r => r.sessionId == sessionId)

def Server.hashDel (s : Server) (r : RecordT) : Server :=
  { s with sessions := s.sessions.eraseP (fun q => q.addr == r.addr) }

/-- The record at address `a` and those behind it, as following `hh.next` meets them;
empty when no record of the table is at `a`. -/
def Server.fromAddr (s : Server) (a : Nat) : List RecordT :=
  s.sessions.dropWhile (fun r => r.addr != a)

def newRecord (addr : Nat) (parameters : SessionRequestT) (counters : Counters) : RecordT where
  addr := addr
  sessionId := parameters.sessId
  inLif := parameters.inlif
  outLif := parameters.outlif
  ipVersion := parameters.ipver
  sourceIp := parameters.srcIP
  sourcePort := parameters.srcPort.setWidth 32
  dstIp := parameters.dstIP
  dstPort := parameters.dstPort.setWidth 32
  counters := counters
  protocolId := parameters.proto
  actionValue := actionForward
  sessionState := .closed
  sessionClose := .notClosed

def opofAddSessionServer (parameters : SessionRequestT) (s : Server) : SessionStatus × Server :=
  let r := s.heap
  -- the block is allocated first and not freed when the request is rejected
  let s := { s with heap := s.heap + 1 }
  if s.sessions.length > hashtableSize then (.resourceExhausted, s)
  else
    match s.hashFind parameters.sessId with
    | some _ => (.alreadyExists, s)
    | none => (.ok, { s with
        sessions := s.sessions ++ [newRecord r parameters (drawCounters s.rand)]
        rand := skipCounters s.rand })

/-- The caller's struct is written only when the session is found. -/
def opofGetSessionServer (sessionId : Word64) (response : SessionResponseT) (s : Server) :
    SessionStatus × SessionResponseT :=
  match s.hashFind sessionId with
  | none => (.notFound, response)
  | some r => (.ok, {
      sessionId := sessionId
      inPackets := r.counters.inPackets
      outPackets := r.counters.outPackets
      inBytes := r.counters.inBytes
      outBytes := r.counters.outBytes
      sessionState := r.sessionState
      sessionCloseCode := r.sessionClose
      requestStatus := .accepted })

def opofDelSessionServer (sessionId : Word64) (response : SessionResponseT) (s : Server) :
    SessionStatus × SessionResponseT × Server :=
  match s.hashFind sessionId with
  | none => (.notFound, response, s)
  | some r => (.ok, {
      sessionId := sessionId
      inPackets := r.counters.inPackets
      outPackets := r.counters.outPackets
      inBytes := r.counters.inBytes
      outBytes := r.counters.outBytes
      sessionState := .closed
      sessionCloseCode := r.sessionClose
      requestStatus := .accepted }, s.hashDel r)

def reportOf (r : RecordT) (counters : Counters) : SessionResponseT where
  sessionId := r.sessionId
  inPackets := counters.inPackets
  outPackets := counters.outPackets
  inBytes := counters.inBytes
  outBytes := counters.outBytes
  sessionState := r.sessionState
  sessionCloseCode := .timeout
  requestStatus := .accepted

/-- The state of opof_get_closed_sessions_server between two iterations: the table,
the stores into `responses` with their indices, and the counter `i`. -/
structure ClosedScan where
  server : Server
  stores : List (Nat × SessionResponseT)
  i : Nat

def ClosedScan.report (a : ClosedScan) (r : RecordT) : ClosedScan where
  server := { a.server.hashDel r with rand := skipCounters a.server.rand }
  stores := a.stores ++ [(a.i, reportOf r (drawCounters a.server.rand))]
  i := a.i + 1

/-- HASH_ITER over the records; the body may delete the record it stands on. -/
def closedLoop (size : Int) : List RecordT → ClosedScan → ClosedScan
  | [], a => a
  | r :: tmp, a =>
    if r.sessionState = .closed then
      if ((a.report r).i : Int) = size then a.report r else closedLoop size tmp (a.report r)
    else closedLoop size tmp a

/-- `int size = request->pageSize` reads the unsigned page size as a signed int. -/
def opofGetClosedSessionsServer (pageSize : Word32) (s : Server) : ClosedScan :=
  closedLoop pageSize.toInt s.sessions ⟨s, [], 0⟩

/-- The state of getAllSessionsPage between two iterations; `i` is the number of
entries stored. -/
structure PageScan where
  responses : List SessionResponseT
  sessionStart : Word64
  start : Option Nat
  rand : Nat → Nat

def PageScan.report (p : PageScan) (r : RecordT) : PageScan :=
  { p with
    responses := p.responses ++ [reportOf r (drawCounters p.rand)]
    sessionStart := r.sessionId
    rand := skipCounters p.rand }

def pageLoop (size : Int) : List RecordT → PageScan → PageScan
  | [], p => { p with start := none }
  | r :: next, p =>
    if ((p.report r).responses.length : Int) = size then
      { p.report r with start := next.head?.map RecordT.addr }
    else pageLoop size next (p.report r)

/-- The request's key only says whether to start over; the position is the static
cursor. Following a cursor to a freed record is undefined. -/
def getAllSessionsPage (size : Int) (sessionStart : Word64) (s : Server) :
    Option (List SessionResponseT × Word64 × Server) :=
  let s := if sessionStart = uintMax then { s with start := s.sessions.head?.map RecordT.addr }
    else s
  match s.start with
  | none => some ([], sessionStart, s)
  | some a =>
    match s.fromAddr a with
    | [] => none
    | r :: next =>
      let p := pageLoop size (r :: next) ⟨[], sessionStart, s.start, s.rand⟩
      some (p.responses, p.sessionStart, { s with start := p.start, rand := p.rand })

/-- `pageCount` is passed by the handler and not used. -/
def opofGetAllSessionsServer (pageSize : Int) (sessionStart : Word64) (_pageCount : Int)
    (s : Server) : Option (List SessionResponseT × Word64 × Server) :=
  getAllSessionsPage pageSize sessionStart s

end SessionOffload
