import SessionOffload.Verdicts
import SessionOffload.DeleteAll

/-! The test programs of opof_run_tests.c that neither kill the server nor set a deadline, and
the full test suite, which runs them in turn over one server. A test has a result where it
returns SUCCESS: not where it returns FAILURE, exits, meets undefined behaviour or has not
ended within the bound on the turns of its loops. -/
namespace SessionOffload
open Loop SessionTableClient

def failure : Int := -1

/-- What a test does not determine: what becomes of the calls of opof_delete_all_sessions and
how often they are made again, and what the memory holds that nothing has been stored to (of
the k-th batch `block k` and, in the server, `stack k`; in the server `answer i` for the call
about session `i`). -/
structure Setting where
  transport : Transport
  retryAttempts : Nat
  block : Nat → SessionRequestT
  stack : Nat → SessionRequestT
  answer : Nat → SessionResponseT
  addResp : AddSessionResponseT

/-- The addresses are 3FFE:0000:0000:0001:0200:F8FF:FE75:50DF,
0002:0000:0000:0000:0000:FFFF:FE76:50DE and 1:0:0:0:0:FFFF:0204:0160. -/
def testRequest6 (block : SessionRequestT) (sessId : Word64) : SessionRequestT :=
  { block with
    sessId := sessId
    inlif := 1#32
    outlif := 2#32
    srcIPV6 := #v[0x3f, 0xfe, 0, 0, 0, 0, 0, 1, 2, 0, 0xf8, 0xff, 0xfe, 0x75, 0x50, 0xdf]
    dstIPV6 := #v[0, 2, 0, 0, 0, 0, 0, 0, 0, 0, 0xff, 0xff, 0xfe, 0x76, 0x50, 0xde]
    srcPort := 80#16
    dstPort := 45678#16
    proto := 6#32
    ipver := ipv6
    nextHopV6 := #v[0, 1, 0, 0, 0, 0, 0, 0, 0, 0, 0xff, 0xff, 2, 4, 1, 0x60]
    actType := actionForward
    cacheTimeout := 15#32 }

def createSessionRequest6 (block : SessionRequestT) (size : Nat) (startSessionId : Word64) :
    List SessionRequestT :=
  (List.range size).map (fun i => testRequest6 block (BitVec.ofNat 64 i + startSessionId))

def cleanUp (m : Setting) (pageSize : Word32) (fuel : Nat) (s : Server) : Option Server := do
  let d ← opofDeleteAllSessions m.transport m.retryAttempts pageSize fuel s
  if d.status = failure then none else some d.server

/-- The body of the add loops: they differ in the function that builds a batch and in the
statuses they give up at. -/
def batchTurn (create : SessionRequestT → Nat → Word64 → List SessionRequestT)
    (gaveUp : Int → Bool) (pageSize : Word32) (block stack : Nat → SessionRequestT)
    (w : Adding) : Option Adding := do
  let sessionCount := w.maxSessions - pageSize
  let bufferSize := if sessionCount.toInt < 0 then w.maxSessions else pageSize
  let request := create (block w.log.length) bufferSize.toNat (w.sessionId.signExtend 64)
  let (status, addResp, server) ←
    opofAddSession request w.addResp (stack w.log.length) w.server
  if gaveUp status then none
  else some {
    maxSessions := sessionCount
    sessionId := w.sessionId + bufferSize
    addResp := addResp
    server := server
    log := w.log ++ [(request, addResp)] }

def notOk (status : Int) : Bool := status != SessionStatus.ok.code

def isFailure (status : Int) : Bool := status == failure

theorem addTurn_eq (pageSize : Word32) (block stack : Nat → SessionRequestT) :
    addTurn pageSize block stack = batchTurn createSessionRequest notOk pageSize block stack := by
  funext w
  simp [addTurn, batchTurn, notOk]

/-- The body of the close loops of opof_test5, opof_test6, opof_test8 and opof_test11, which do
not look at the status. -/
def closeTurn (pageSize : Word32) (d : Draining) : Option Draining := do
  let page ← opofGetClosedSessions pageSize d.server
  some ⟨page.sessionCount, page.server, d.pages ++ [page.responses]⟩

def opofTest1 (m : Setting) (n pageSize : Word32) (s : Server) (fuel : Nat) :
    Option (Adding × Draining) := do
  let s ← cleanUp m pageSize fuel s
  let w ← run Adding.running (addTurn pageSize m.block m.stack) fuel (.begin n m.addResp s)
  let d ← run Draining.running (drainTurn pageSize) fuel (.begin w.server)
  some (w, d)

def opofTest2 (m : Setting) (n pageSize : Word32) (s : Server) (fuel : Nat) :
    Option (Adding × Pager × Server) := do
  let s ← cleanUp m pageSize fuel s
  let w ← run Adding.running (addTurn pageSize m.block m.stack) fuel (.begin n m.addResp s)
  let (p, t) ← getAllLoop pageSize fuel .begin w.server
  some (w, p, t)

structure Asking where
  answers : List (Int × SessionResponseT)
  server : Server

def getTurn (m : Setting) (r : Asking) (i : Nat) : Option Asking :=
  let (status, resp) := opofGetSession (BitVec.ofNat 64 i) (m.answer i) r.server
  if isFailure status then none else some ⟨r.answers ++ [(status, resp)], r.server⟩

def delTurn (m : Setting) (r : Asking) (i : Nat) : Option Asking :=
  let (status, resp, server) := opofDelSession (BitVec.ofNat 64 i) (m.answer i) r.server
  if isFailure status then none else some ⟨r.answers ++ [(status, resp)], server⟩

/-- opof_test3 and opof_test4, with the body of their second loop. -/
def askEach (turn : Asking → Nat → Option Asking) (m : Setting) (n pageSize : Word32) (s : Server)
    (fuel : Nat) : Option (Adding × Asking) := do
  let s ← cleanUp m pageSize fuel s
  let w ← run Adding.running (batchTurn createSessionRequest isFailure pageSize m.block m.stack)
    fuel (.begin n m.addResp s)
  let r ← (List.range n.toInt.toNat).foldlM turn ⟨[], w.server⟩
  some (w, r)

def opofTest3 (m : Setting) : Word32 → Word32 → Server → Nat → Option (Adding × Asking) :=
  askEach (getTurn m) m

def opofTest4 (m : Setting) : Word32 → Word32 → Server → Nat → Option (Adding × Asking) :=
  askEach (delTurn m) m

/-- opof_test5, opof_test8 and opof_test11: they add and then take closed sessions. -/
def addAndClose (create : SessionRequestT → Nat → Word64 → List SessionRequestT)
    (gaveUp : Int → Bool) (m : Setting) (n pageSize : Word32) (s : Server) (fuel : Nat) :
    Option (Adding × Draining) := do
  let s ← cleanUp m pageSize fuel s
  let w ← run Adding.running (batchTurn create gaveUp pageSize m.block m.stack) fuel
    (.begin n m.addResp s)
  let d ← run Draining.running (closeTurn pageSize) fuel (.begin w.server)
  some (w, d)

def opofTest5 : Setting → Word32 → Word32 → Server → Nat → Option (Adding × Draining) :=
  addAndClose createSessionRequest isFailure

/-- The handle is deleted and created again between the two loops. -/
def opofTest8 : Setting → Word32 → Word32 → Server → Nat → Option (Adding × Draining) :=
  addAndClose createSessionRequest notOk

def opofTest11 : Setting → Word32 → Word32 → Server → Nat → Option (Adding × Draining) :=
  addAndClose createSessionRequest6 notOk

def opofTest6 (m : Setting) (n pageSize : Word32) (s : Server) (fuel : Nat) :
    Option (Adding × Adding × Draining) := do
  let s ← cleanUp m pageSize fuel s
  let w ← run Adding.running (addTurn pageSize m.block m.stack) fuel (.begin n m.addResp s)
  let v ← run Adding.running (addTurn pageSize (fun k => m.block (w.log.length + k))
    (fun k => m.stack (w.log.length + k))) fuel (.begin n w.addResp w.server)
  let d ← run Draining.running (closeTurn pageSize) fuel (.begin v.server)
  some (w, v, d)

/-- `total_sessions + 1` is an int, and may not overflow. -/
def opofTest7 (m : Setting) (n pageSize : Word32) (s : Server) (fuel : Nat) :
    Option (Adding × Int × Int × Server) := do
  let s ← cleanUp m pageSize fuel s
  let w ← run Adding.running (batchTurn createSessionRequest isFailure pageSize m.block m.stack)
    fuel (.begin n m.addResp s)
  if n.toInt = 2147483647 then none
  else
    let missing := (n + 1#32).signExtend 64
    let got := opofGetSession missing (m.answer 0) w.server
    let (deleted, _, t) := opofDelSession missing (m.answer 1) w.server
    if isFailure deleted then none else some (w, got.1, deleted, t)

inductive Test where
  | test1 | test2 | test3 | test4 | test5 | test6 | test7 | test8 | test11
  deriving DecidableEq, Repr

def Test.run (test : Test) (m : Setting) (n pageSize : Word32) (s : Server) (fuel : Nat) :
    Option Server :=
  match test with
  | .test1 => (opofTest1 m n pageSize s fuel).map fun r => r.2.server
  | .test2 => (opofTest2 m n pageSize s fuel).map fun r => r.2.2
  | .test3 => (opofTest3 m n pageSize s fuel).map fun r => r.2.server
  | .test4 => (opofTest4 m n pageSize s fuel).map fun r => r.2.server
  | .test5 => (opofTest5 m n pageSize s fuel).map fun r => r.2.server
  | .test6 => (opofTest6 m n pageSize s fuel).map fun r => r.2.2.server
  | .test7 => (opofTest7 m n pageSize s fuel).map fun r => r.2.2.2
  | .test8 => (opofTest8 m n pageSize s fuel).map fun r => r.2.server
  | .test11 => (opofTest11 m n pageSize s fuel).map fun r => r.2.server

/-- Tests in turn, the k-th of them in the k-th setting; the first that fails ends them. -/
def runTests (settings : Nat → Setting) (pageSize : Word32) :
    Nat → List (Test × Word32) → Server → Nat → Option Server
  | _, [], s, _ => some s
  | k, (test, n) :: rest, s, fuel => do
    let t ← test.run (settings k) n pageSize s fuel
    runTests settings pageSize (k + 1) rest t fuel

def suite : List (Test × Word32) :=
  ([.test1, .test2, .test3, .test4].map fun test => (test, 19#32)) ++
    [72#32, 384#32, 1019#32].flatMap fun maxSessions =>
      [.test1, .test2, .test3, .test4, .test5, .test6, .test7, .test8, .test11].map fun test =>
        (test, maxSessions)

def opofFullTestSuite (settings : Nat → Setting) (s : Server) (fuel : Nat) : Option Server :=
  runTests settings (BitVec.ofNat 32 bufferMax) 0 suite s fuel

end SessionOffload
