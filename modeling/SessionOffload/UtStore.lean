import SessionOffload.UtHash
import SessionOffload.StoreRun

/-! The store of opof_server_test.c once more, over the hash table of uthash.h in place of
a list. A record that is freed has no block any more: its handle and its fields are gone. -/
namespace SessionOffload
open Intrusive

/-- The 8 bytes HASH_ADD and HASH_FIND are given as the key, the lowest first. -/
def recordKey (sessionId : Word64) : List Byte :=
  (List.range 8).map fun i => sessionId.extractLsb' (8 * i) 8

structure UtServer where
  /-- static record_t *sessions, with the handles of all records -/
  sessions : UtHash
  /-- the other fields of the record in each block -/
  records : Nat → Option RecordT
  /-- static record_t *start -/
  start : Option Nat
  heap : Nat
  rand : Nat → Nat

def UtServer.init (rand : Nat → Nat) : UtServer :=
  ⟨⟨none, none, fun _ => none⟩, fun _ => none, none, 0, rand⟩

/-- A record that memset cleared; zero is _ESTABLISHED and _NOT_CLOSED. -/
def zeroRecord (addr : Nat) : RecordT where
  addr := addr
  sessionId := 0
  inLif := 0
  outLif := 0
  ipVersion := 0
  sourceIp := 0
  sourcePort := 0
  dstIp := 0
  dstPort := 0
  counters := ⟨0, 0, 0, 0⟩
  protocolId := 0
  actionValue := 0
  sessionState := .established
  sessionClose := .notClosed

def UtServer.allocate (s : UtServer) : UtServer :=
  { s with
    sessions := { s.sessions with hh := Function.update s.sessions.hh s.heap (some .zero) }
    records := Function.update s.records s.heap (some (zeroRecord s.heap))
    heap := s.heap + 1 }

def UtServer.setRecord (s : UtServer) (r : RecordT) : UtServer :=
  { s with records := Function.update s.records r.addr (some r) }

def UtServer.free (s : UtServer) (a : Nat) : UtServer :=
  { s with
    sessions := { s.sessions with hh := Function.update s.sessions.hh a none }
    records := Function.update s.records a none }

/-- No walk meets more records than there are blocks. -/
def UtServer.hashFind (s : UtServer) (sessionId : Word64) : Option (Option Nat) :=
  SessionOffload.hashFind s.heap s.sessions (recordKey sessionId)

/-- `num_sessions` is a signed int. -/
def utAddSessionServer (malloc : Nat → Bool) (parameters : SessionRequestT) (s : UtServer) :
    Option (SessionStatus × UtServer) := do
  let r := s.heap
  let s := s.allocate
  let numSessions ← hashCount s.sessions
  if numSessions.toInt > (hashtableSize : Int) then some (.resourceExhausted, s)
  else do
    let f ← s.hashFind parameters.sessId
    match f with
    | some _ => some (.alreadyExists, s)
    | none => do
      let s := s.setRecord { zeroRecord r with sessionId := parameters.sessId }
      let t ← hashAdd malloc s.heap (recordKey parameters.sessId) r s.sessions
      let s := { s with sessions := t }.setRecord (newRecord r parameters (drawCounters s.rand))
      some (.ok, { s with rand := skipCounters s.rand })

def utGetSessionServer (sessionId : Word64) (response : SessionResponseT) (s : UtServer) :
    Option (SessionStatus × SessionResponseT) := do
  let f ← s.hashFind sessionId
  match f with
  | none => some (.notFound, response)
  | some a => do
    let r ← s.records a
    some (.ok, {
      sessionId := sessionId
      inPackets := r.counters.inPackets
      outPackets := r.counters.outPackets
      inBytes := r.counters.inBytes
      outBytes := r.counters.outBytes
      sessionState := r.sessionState
      sessionCloseCode := r.sessionClose
      requestStatus := .accepted })

def UtServer.hashDel (s : UtServer) (a : Nat) : Option UtServer := do
  let t ← hashDeleteHh a s.sessions
  some ({ s with sessions := t }.free a)

def utDelSessionServer (sessionId : Word64) (response : SessionResponseT) (s : UtServer) :
    Option (SessionStatus × SessionResponseT × UtServer) := do
  let f ← s.hashFind sessionId
  match f with
  | none => some (.notFound, response, s)
  | some a => do
    let r ← s.records a
    let s ← s.hashDel a
    some (.ok, {
      sessionId := sessionId
      inPackets := r.counters.inPackets
      outPackets := r.counters.outPackets
      inBytes := r.counters.inBytes
      outBytes := r.counters.outBytes
      sessionState := .closed
      sessionCloseCode := r.sessionClose
      requestStatus := .accepted }, s)

structure UtClosedScan where
  server : UtServer
  stores : List (Nat × SessionResponseT)
  i : Nat

/-- The next element of HASH_ITER: the successor of `tmp` is read when `tmp` is entered. -/
def UtServer.nextOf (s : UtServer) (o : Option Nat) : Option (Option Nat) :=
  match o with
  | none => some none
  | some a => (s.sessions.hh a).map UtHashHandle.next

def UtClosedScan.report (a : UtClosedScan) (el : Nat) (r : RecordT) : Option UtClosedScan := do
  let entry := (a.i, reportOf r (drawCounters a.server.rand))
  let s ← { a.server with rand := skipCounters a.server.rand }.hashDel el
  some ⟨s, a.stores ++ [entry], a.i + 1⟩

def utClosedLoop (size : Int) : Nat → Option Nat → Option Nat → UtClosedScan → Option UtClosedScan
  | _, none, _, a => some a
  | 0, some _, _, _ => none
  | fuel + 1, some el, tmp, a => do
    let r ← a.server.records el
    if r.sessionState = .closed then do
      let a ← a.report el r
      if (a.i : Int) = size then some a
      else do
        let next ← a.server.nextOf tmp
        utClosedLoop size fuel tmp next a
    else do
      let next ← a.server.nextOf tmp
      utClosedLoop size fuel tmp next a

def utGetClosedSessionsServer (pageSize : Word32) (s : UtServer) : Option UtClosedScan := do
  let tmp ← s.nextOf s.sessions.head
  utClosedLoop pageSize.toInt s.heap s.sessions.head tmp ⟨s, [], 0⟩

def utPageLoop (s : UtServer) (size : Int) : Nat → Option Nat → PageScan → Option PageScan
  | _, none, p => some { p with start := none }
  | 0, some _, _ => none
  | fuel + 1, some r, p => do
    let record ← s.records r
    let h ← s.sessions.hh r
    let p := p.report record
    if (p.responses.length : Int) = size then some { p with start := h.next }
    else utPageLoop s size fuel h.next p

def utGetAllSessionsPage (size : Int) (sessionStart : Word64) (s : UtServer) :
    Option (List SessionResponseT × Word64 × UtServer) :=
  let s := if sessionStart = uintMax then { s with start := s.sessions.head } else s
  match s.start with
  | none => some ([], sessionStart, s)
  | some a => do
    let p ← utPageLoop s size s.heap (some a) ⟨[], sessionStart, s.start, s.rand⟩
    some (p.responses, p.sessionStart, { s with start := p.start, rand := p.rand })

/-- The five calls; what malloc grants may be another thing at each. -/
def serveUt (malloc : Nat → Bool) (s : UtServer) : Call → Option (UtServer × Reply)
  | .add q => do
    let (status, t) ← utAddSessionServer malloc q s
    some (t, .add status)
  | .get id response => do
    let (status, response) ← utGetSessionServer id response s
    some (s, .get status response)
  | .del id response => do
    let (status, response, t) ← utDelSessionServer id response s
    some (t, .del status response)
  | .getClosed pageSize => do
    let scan ← utGetClosedSessionsServer pageSize s
    some (scan.server, .getClosed (scan.stores.map Prod.snd))
  | .getAll startSession => do
    let (responses, nextkey, t) ← utGetAllSessionsPage bufferMax startSession s
    some (t, .getAll responses nextkey)

end SessionOffload
