import Mathlib.Data.List.Induction
import SessionOffload.WireBatch

/-! The two ends of the addSession stream share one message object and one struct for a
whole batch. What the store is given does not depend on what they held before; what goes
over the wire does, and the copy of an IPv6 address trusts the length of the field. -/
namespace SessionOffload
open SessionTableImpl SessionTableClient

def decodeRequests : List SessionRequest → SessionRequestT → Option (List SessionRequestT)
  | [], _ => some []
  | request :: rest, requestC => do
    let requestC ← convertSessionRequest2c request requestC
    let decoded ← decodeRequests rest requestC
    some (requestC :: decoded)

def storeRequests : List SessionRequestT → Server → List SessionStatus × Server
  | [], s => ([], s)
  | requestC :: rest, s =>
    let (status, t) := opofAddSessionServer requestC s
    let (statuses, u) := storeRequests rest t
    (status :: statuses, u)

theorem decodeRequests_same (batch : List SessionRequestT) (request : SessionRequest)
    (requestC : SessionRequestT) :
    ∃ decoded, decodeRequests (writeRequests batch request) requestC = some decoded ∧
      List.Forall₂ SameRequest batch decoded := by
  induction batch generalizing request requestC with
  | nil => exact ⟨[], rfl, .nil⟩
  | cons q batch ih =>
    obtain ⟨p, here, same⟩ := request_roundtrip q request requestC
    obtain ⟨decoded, rest, all⟩ := ih (convertSessionRequest2cpp q request) p
    refine ⟨p :: decoded, ?_, .cons same all⟩
    simp only [writeRequests, decodeRequests, here, Option.bind_eq_bind, Option.bind_some, rest]

/-- The handler is the decoding of its messages followed by the store. -/
theorem addSessionLoop_decoded (messages : List SessionRequest) (i : Nat)
    (requestC : SessionRequestT) (response : AddSessionResponse) (s : Server)
    {decoded : List SessionRequestT} (all : decodeRequests messages requestC = some decoded) :
    addStatuses (fun _ => false) i messages requestC s = (storeRequests decoded s).1 ∧
      ∃ resp, addSessionLoop (fun _ => false) i messages requestC response s =
        some (.OK, resp, (storeRequests decoded s).2) := by
  induction messages generalizing i requestC response s decoded with
  | nil =>
    cases Option.some.inj all
    exact ⟨rfl, response, rfl⟩
  | cons request rest ih =>
    simp only [decodeRequests, Option.bind_eq_bind, Option.bind_eq_some_iff] at all
    obtain ⟨p, here, decoded', later, out⟩ := all
    cases Option.some.inj out
    obtain ⟨statuses, resp, run⟩ := ih (i + 1) p
      (if (opofAddSessionServer p s).1 ≠ .ok then
        { response with responseError := response.responseError ++
          [⟨request.sessionId, (opofAddSessionServer p s).1.code⟩] }
        else response) (opofAddSessionServer p s).2 later
    constructor
    · simp only [addStatuses, here, Bool.false_eq_true, if_false, statuses, storeRequests]
    · refine ⟨resp, ?_⟩
      simp only [addSessionLoop, here, Option.bind_eq_bind, Option.bind_some, Bool.false_eq_true,
        if_false, run, storeRequests]

/-- For every batch and whatever the two reused objects hold at its start, the i-th struct
handed to the store agrees with the i-th request of the client. -/
theorem batch_roundtrip (batch : List SessionRequestT) (request : SessionRequest)
    (requestC : SessionRequestT) (s : Server) :
    let messages := writeRequests batch request
    ∃ decoded resp, decodeRequests messages requestC = some decoded ∧
      List.Forall₂ SameRequest batch decoded ∧
      addStatuses (fun _ => false) 0 messages requestC s = (storeRequests decoded s).1 ∧
      addSession (fun _ => false) messages requestC s =
        some (.OK, resp, (storeRequests decoded s).2) := by
  intro messages
  obtain ⟨decoded, all, same⟩ := decodeRequests_same batch request requestC
  obtain ⟨statuses, resp, run⟩ := addSessionLoop_decoded messages 0 requestC ⟨[]⟩ s all
  exact ⟨decoded, resp, all, same, statuses, run⟩

def objectAfter (before : List SessionRequestT) : SessionRequest :=
  before.foldl (fun request requestC => convertSessionRequest2cpp requestC request) .empty

theorem writeRequests_position (batch : List SessionRequestT) (request : SessionRequest)
    (i : Fin batch.length) :
    (writeRequests batch request)[i.val]? = some (convertSessionRequest2cpp batch[i]
      ((batch.take i).foldl (fun request requestC => convertSessionRequest2cpp requestC request)
        request)) := by
  induction batch generalizing request with
  | nil => exact i.elim0
  | cons q batch ih =>
    cases i using Fin.cases with
    | zero => rfl
    | succ i => exact ih (convertSessionRequest2cpp q request) i

def latestV4 (before : List SessionRequestT) : Option SessionRequestT :=
  (before.filter (fun p => p.ipver ≠ ipv6)).getLast?

theorem objectAfter_v4 (before : List SessionRequestT) :
    (objectAfter before).sourceIp = ((latestV4 before).map SessionRequestT.srcIP).getD 0#32 ∧
      (objectAfter before).destinationIp =
        ((latestV4 before).map SessionRequestT.dstIP).getD 0#32 := by
  induction before using List.reverseRecOn with
  | nil => exact ⟨rfl, rfl⟩
  | append_singleton before q ih =>
    have step : objectAfter (before ++ [q]) = convertSessionRequest2cpp q (objectAfter before) := by
      simp [objectAfter]
    rw [step]
    by_cases six : q.ipver = ipv6
    · have latest : latestV4 (before ++ [q]) = latestV4 before := by simp [latestV4, six]
      simpa [convertSessionRequest2cpp, six, latest] using ih
    · have latest : latestV4 (before ++ [q]) = some q := by simp [latestV4, six]
      simp [convertSessionRequest2cpp, six, latest]

theorem objectAfter_v6 (before : List SessionRequestT) :
    ((objectAfter before).sourceIpV6 = [] ↔ ∀ p ∈ before, p.ipver ≠ ipv6) ∧
      ((objectAfter before).destinationIpV6 = [] ↔ ∀ p ∈ before, p.ipver ≠ ipv6) := by
  induction before using List.reverseRecOn with
  | nil => simp [objectAfter, SessionRequest.empty]
  | append_singleton before q ih =>
    have step : objectAfter (before ++ [q]) = convertSessionRequest2cpp q (objectAfter before) := by
      simp [objectAfter]
    have sixteen (v : In6Addr) : v.toList ≠ [] := by
      intro none
      have size := congrArg List.length none
      simp at size
    rw [step]
    by_cases six : q.ipver = ipv6
    · simp [convertSessionRequest2cpp, six, sixteen]
    · simpa [convertSessionRequest2cpp, six, or_imp, forall_and] using ih

/-- Encoding into a used object gives what encoding into a fresh one does when the used one
has no address of the other family. -/
theorem encode_fresh_iff (q : SessionRequestT) (request : SessionRequest) :
    convertSessionRequest2cpp q request = convertSessionRequest2cpp q .empty ↔
      if q.ipver = ipv6 then request.sourceIp = 0#32 ∧ request.destinationIp = 0#32
      else request.sourceIpV6 = [] ∧ request.destinationIpV6 = [] := by
  by_cases six : q.ipver = ipv6 <;>
    simp [convertSessionRequest2cpp, six, SessionRequest.empty]

/-- No address of the other family is left over from the requests before `q`: for an IPv6
request the latest IPv4 one has zero addresses, for another no IPv6 one came before. -/
def Unstained (before : List SessionRequestT) (q : SessionRequestT) : Prop :=
  if q.ipver = ipv6 then ∀ p ∈ latestV4 before, p.srcIP = 0#32 ∧ p.dstIP = 0#32
  else ∀ p ∈ before, p.ipver ≠ ipv6

/-- A message of the batch is the one its request gives on its own exactly when no address
of the other family is left over from the requests before it. -/
theorem message_independent (batch : List SessionRequestT) (i : Fin batch.length) :
    (writeRequests batch .empty)[i.val]? = some (convertSessionRequest2cpp batch[i] .empty) ↔
      Unstained (batch.take i) batch[i] := by
  rw [writeRequests_position, Option.some.injEq, encode_fresh_iff, Unstained]
  have four := objectAfter_v4 (batch.take i)
  have six := objectAfter_v6 (batch.take i)
  rw [objectAfter] at four six
  split
  · rw [four.1, four.2]
    cases latestV4 (batch.take i) <;> simp
  · rw [six.1, six.2, and_self]

/-- An IPv6 message that follows an IPv4 one carries its addresses. -/
theorem message_stained :
    let batch := [testRequest zeroRequest 1#64, { testRequest zeroRequest 2#64 with ipver := ipv6 }]
    ∃ message, (writeRequests batch .empty)[1]? = some message ∧
      message.sourceIp = 0x0101000a#32 ∧
      message ≠ convertSessionRequest2cpp { testRequest zeroRequest 2#64 with ipver := ipv6 }
        .empty :=
  ⟨_, rfl, rfl, by decide⟩

/-- The positions the decoding reads, each with the received field it reads there. -/
def copiedPositions (request : SessionRequest) : List (Nat × List Byte) :=
  if request.ipVersion = ipv6 then
    [request.sourceIpV6, request.destinationIpV6, request.action.actionNextHopV6].flatMap
      (fun field => (List.range 16).map (·, field))
  else []

theorem memcpy_defined_iff (charArray : List Byte) :
    (∃ v, memcpyS6Addr charArray = some v) ↔ ∀ i < 16, i < charArray.length := by
  unfold memcpyS6Addr
  constructor
  · rintro ⟨v, copied⟩ i below
    split at copied
    · omega
    · cases copied
  · intro inside
    have long : 16 ≤ charArray.length := inside 15 (by omega)
    exact ⟨_, dif_pos long⟩

theorem decode_defined_iff (request : SessionRequest) (requestC : SessionRequestT) :
    (∃ p, convertSessionRequest2c request requestC = some p) ↔
      (request.ipVersion = ipv6 → (∃ v, memcpyS6Addr request.sourceIpV6 = some v) ∧
        (∃ v, memcpyS6Addr request.destinationIpV6 = some v) ∧
        ∃ v, memcpyS6Addr request.action.actionNextHopV6 = some v) := by
  by_cases six : request.ipVersion = ipv6
  · simp only [convertSessionRequest2c, six, if_true, Option.bind_eq_bind, forall_const]
    cases memcpyS6Addr request.sourceIpV6 <;> cases memcpyS6Addr request.destinationIpV6 <;>
      cases memcpyS6Addr request.action.actionNextHopV6 <;> simp
  · simp [convertSessionRequest2c, six]

/-- No message is rejected by the decoding. It reads inside the received fields exactly
when the three addresses of an IPv6 message have 16 bytes or more. -/
theorem decode_reads_inside (request : SessionRequest) (requestC : SessionRequestT) :
    ((∀ r ∈ copiedPositions request, r.1 < r.2.length) ↔
        ∃ p, convertSessionRequest2c request requestC = some p) ∧
      ((∀ r ∈ copiedPositions request, r.1 < r.2.length) ↔
        (request.ipVersion = ipv6 → 16 ≤ request.sourceIpV6.length ∧
          16 ≤ request.destinationIpV6.length ∧
          16 ≤ request.action.actionNextHopV6.length)) := by
  have inside : (∀ r ∈ copiedPositions request, r.1 < r.2.length) ↔
      (request.ipVersion = ipv6 → (∀ i < 16, i < request.sourceIpV6.length) ∧
        (∀ i < 16, i < request.destinationIpV6.length) ∧
        ∀ i < 16, i < request.action.actionNextHopV6.length) := by
    by_cases six : request.ipVersion = ipv6
    · simp [copiedPositions, six, or_imp, forall_and]
    · simp [copiedPositions, six]
  have long (n : Nat) : (∀ i < 16, i < n) ↔ 16 ≤ n :=
    ⟨fun all => all 15 (by omega), fun size i below => Nat.lt_of_lt_of_le below size⟩
  constructor
  · rw [inside, decode_defined_iff, memcpy_defined_iff, memcpy_defined_iff, memcpy_defined_iff]
  · rw [inside, long, long, long]

/-- The IPv6 request of the Python client has no IPv6 next hop. -/
theorem decode_reads_outside :
    let address : List Byte := List.replicate 16 1#8
    let request := { SessionRequest.empty with
      ipVersion := ipv6, sourceIpV6 := address, destinationIpV6 := address }
    convertSessionRequest2c request zeroRequest = none ∧
      (0, []) ∈ copiedPositions request := by
  constructor <;> decide

end SessionOffload
