import SessionOffload.WireRequest

/-! What the store keeps of a message. All messages of a stream are decoded into one struct, and
the store copies the IPv4 addresses of the struct whatever family the message has. -/
namespace SessionOffload
open SessionTableImpl

/-- The IPv4 addresses of the latest message that sets them, or what the struct held. -/
def leftover (before : List SessionRequest) (stack : SessionRequestT) : Word32 × Word32 :=
  before.foldl
    (fun held m => if m.ipVersion = ipv6 then held else (m.sourceIp, m.destinationIp))
    (stack.srcIP, stack.dstIP)

def RecordT.content (r : RecordT) : RecordT :=
  { r with addr := 0, counters := ⟨0#64, 0#64, 0#64, 0#64⟩ }

def contentOf (m : SessionRequest) (held : Word32 × Word32) : RecordT where
  addr := 0
  sessionId := m.sessionId
  inLif := m.inLif
  outLif := m.outLif
  ipVersion := m.ipVersion
  sourceIp := if m.ipVersion = ipv6 then held.1 else m.sourceIp
  sourcePort := (m.sourcePort.setWidth 16).setWidth 32
  dstIp := if m.ipVersion = ipv6 then held.2 else m.destinationIp
  dstPort := (m.destinationPort.setWidth 16).setWidth 32
  counters := ⟨0#64, 0#64, 0#64, 0#64⟩
  protocolId := m.protocolId
  actionValue := actionForward
  sessionState := .closed
  sessionClose := .notClosed

theorem decoded_content {m : SessionRequest} {requestC p : SessionRequestT}
    (decoded : convertSessionRequest2c m requestC = some p) (addr : Nat) (counters : Counters) :
    p.sessId = m.sessionId ∧
      (newRecord addr p counters).content = contentOf m (requestC.srcIP, requestC.dstIP) ∧
      (p.srcIP, p.dstIP) =
        if m.ipVersion = ipv6 then (requestC.srcIP, requestC.dstIP)
        else (m.sourceIp, m.destinationIp) := by
  by_cases six : m.ipVersion = ipv6
  · obtain ⟨⟨source, here⟩, ⟨destination, there⟩, hop, next⟩ :=
      (decode_defined_iff m requestC).mp ⟨p, decoded⟩ six
    simp only [convertSessionRequest2c, six, if_true, here, there, next, Option.bind_eq_bind,
      Option.bind_some, Option.some.injEq] at decoded
    subst decoded
    refine ⟨rfl, ?_, ?_⟩
    · simp [RecordT.content, newRecord, contentOf, six]
    · simp [six]
  · simp only [convertSessionRequest2c, six, if_false, Option.bind_eq_bind,
      Option.bind_some, Option.some.injEq] at decoded
    subst decoded
    refine ⟨rfl, ?_, ?_⟩
    · simp [RecordT.content, newRecord, contentOf, six]
    · simp [six]

theorem contentOf_inj (m : SessionRequest) (held held' : Word32 × Word32) :
    contentOf m held = contentOf m held' ↔ (m.ipVersion = ipv6 → held = held') := by
  by_cases six : m.ipVersion = ipv6
  · simp [contentOf, six, Prod.ext_iff]
  · simp [contentOf, six]

theorem addSessionLoop_grows {cancelled : Nat → Bool} {messages : List SessionRequest} {i : Nat}
    {requestC : SessionRequestT} {response response' : AddSessionResponse} {s t : Server}
    {status : GrpcStatus}
    (run : addSessionLoop cancelled i messages requestC response s =
      some (status, response', t)) : ∃ more, t.sessions = s.sessions ++ more := by
  induction messages generalizing i requestC response s with
  | nil =>
    cases run
    exact ⟨[], (List.append_nil _).symm⟩
  | cons m rest ih =>
    simp only [addSessionLoop, Option.bind_eq_bind, Option.bind_eq_some_iff] at run
    obtain ⟨p, _, run⟩ := run
    split at run
    · cases run
      exact ⟨[], (List.append_nil _).symm⟩
    · obtain ⟨more, later⟩ := ih run
      obtain ⟨first, grown⟩ := add_grows p s
      exact ⟨first ++ more, by rw [later, grown, List.append_assoc]⟩

theorem addSessionLoop_stores {cancelled : Nat → Bool} {messages : List SessionRequest}
    {m : SessionRequest} {i k : Nat} {requestC : SessionRequestT}
    {response response' : AddSessionResponse} {s t : Server} {status : GrpcStatus}
    (here : messages[i]? = some m)
    (accepted : (addStatuses cancelled k messages requestC s)[i]? = some .ok)
    (run : addSessionLoop cancelled k messages requestC response s =
      some (status, response', t)) :
    ∃ r, t.hashFind m.sessionId = some r ∧
      r.content = contentOf m (leftover (messages.take i) requestC) := by
  induction messages generalizing i k requestC response s with
  | nil => cases here
  | cons q rest ih =>
    simp only [addSessionLoop, Option.bind_eq_bind, Option.bind_eq_some_iff] at run
    obtain ⟨p, decoded, run⟩ := run
    obtain ⟨key, _, held⟩ := decoded_content decoded 0 ⟨0#64, 0#64, 0#64, 0#64⟩
    simp only [addStatuses, decoded] at accepted
    split at run
    · rename_i stop
      rw [if_pos stop] at accepted
      cases accepted
    rename_i going
    rw [if_neg going] at accepted
    cases i with
    | succ i =>
      obtain ⟨r, found, content⟩ := ih here accepted run
      refine ⟨r, found, ?_⟩
      rw [content, List.take_succ_cons, leftover, leftover, List.foldl_cons, held]
    | zero =>
      cases here
      have ok : (opofAddSessionServer p s).1 = .ok := Option.some.inj accepted
      rcases add_cases p s with ⟨_, call⟩ | ⟨_, _, call⟩ | ⟨_, absent, call⟩
      · rw [call] at ok
        cases ok
      · rw [call] at ok
        cases ok
      obtain ⟨more, grown⟩ := addSessionLoop_grows run
      refine ⟨newRecord s.heap p (drawCounters s.rand), ?_, (decoded_content decoded _ _).2.1⟩
      have unseen : s.hashFind m.sessionId = none := hashFind_none (key ▸ absent)
      rw [call] at grown
      rw [Server.hashFind, grown, Server.installed, List.find?_append, List.find?_append]
      rw [Server.hashFind] at unseen
      rw [unseen]
      simp [newRecord, key]

/-- A call of addSession: what IsCancelled answers, the stream, what the uninitialised
struct of the handler happens to contain, and the store. -/
structure AddCall where
  cancelled : Nat → Bool
  messages : List SessionRequest
  stack : SessionRequestT
  server : Server

def AddCall.statuses (c : AddCall) : List SessionStatus :=
  addStatuses c.cancelled 0 c.messages c.stack c.server

def AddCall.run (c : AddCall) : Option (GrpcStatus × AddSessionResponse × Server) :=
  addSession c.cancelled c.messages c.stack c.server

def AddCall.held (c : AddCall) (i : Nat) : Word32 × Word32 :=
  leftover (c.messages.take i) c.stack

/-- For equal messages accepted at any two positions of any two streams, the two records
differ in nothing but their counters exactly when the message is not an IPv6 one or the
struct holds the same IPv4 addresses at both. -/
theorem records_determined {c c' : AddCall} {m : SessionRequest} {i j : Nat}
    {status status' : GrpcStatus} {response response' : AddSessionResponse} {t t' : Server}
    (here : c.messages[i]? = some m) (there : c'.messages[j]? = some m)
    (accepted : c.statuses[i]? = some .ok) (accepted' : c'.statuses[j]? = some .ok)
    (run : c.run = some (status, response, t)) (run' : c'.run = some (status', response', t')) :
    ∃ r r', t.hashFind m.sessionId = some r ∧ t'.hashFind m.sessionId = some r' ∧
      (r.content = r'.content ↔ (m.ipVersion = ipv6 → c.held i = c'.held j)) := by
  obtain ⟨r, found, content⟩ := addSessionLoop_stores here accepted run
  obtain ⟨r', found', content'⟩ := addSessionLoop_stores there accepted' run'
  refine ⟨r, r', found, found', ?_⟩
  rw [content, content', contentOf_inj]
  exact Iff.rfl

def ipv6Message : SessionRequest :=
  convertSessionRequest2cpp { testRequest zeroRequest 2#64 with ipver := ipv6 } .empty

def ipv6Alone : AddCall where
  cancelled := fun _ => false
  messages := [ipv6Message]
  stack := zeroRequest
  server := .init fun _ => 0

def ipv6Behind : AddCall :=
  { ipv6Alone with
    messages := [convertSessionRequest2cpp (testRequest zeroRequest 1#64) .empty, ipv6Message] }

theorem records_determined_ipv6 :
    ∃ (t t' : Server) (r r' : RecordT),
      t.hashFind ipv6Message.sessionId = some r ∧ t'.hashFind ipv6Message.sessionId = some r' ∧
      (r.content = r'.content ↔
        (ipv6Message.ipVersion = ipv6 → ipv6Alone.held 0 = ipv6Behind.held 1)) :=
  ⟨_, _, @records_determined ipv6Alone ipv6Behind ipv6Message 0 1 _ _ _ _ _ _ rfl rfl
    (by decide) (by decide) rfl rfl⟩

/-- The record of the second call has the addresses of the IPv4 session. -/
theorem record_stained :
    ipv6Alone.messages[0]? = some ipv6Message ∧ ipv6Behind.messages[1]? = some ipv6Message ∧
      ipv6Alone.statuses = [.ok] ∧ ipv6Behind.statuses = [.ok, .ok] ∧
      ∃ (response response' : AddSessionResponse) (t t' : Server) (r r' : RecordT),
        ipv6Alone.run = some (.OK, response, t) ∧ ipv6Behind.run = some (.OK, response', t') ∧
        t.hashFind 2#64 = some r ∧ t'.hashFind 2#64 = some r' ∧
        r.sourceIp = 0#32 ∧ r'.sourceIp = 0x0101000a#32 ∧ r.content ≠ r'.content :=
  ⟨rfl, rfl, by decide, by decide, _, _, _, _, _, _, rfl, rfl, rfl, rfl, by decide, by decide,
    by decide⟩

end SessionOffload
