import Mathlib.Tactic.Ring
import SessionOffload.NosSimulator
import SessionOffload.Lib.Transition

/-! Runs of the offload device. A stream is taken message by message and a closed report
slot by slot, so that calls of several clients and the traffic thread interleave at any
of these points. -/
namespace SessionOffload
open Transition

structure SevenTuple where
  inLif : Word32
  outLif : Word32
  sourceIp : Word32
  sourcePort : Word32
  destinationIp : Word32
  destinationPort : Word32
  protocolId : ProtocolId
  deriving DecidableEq

def SessionRequest.seven (request : SessionRequest) : SevenTuple :=
  ⟨request.inLif, request.outLif, request.sourceIp, request.sourcePort, request.destinationIp,
    request.destinationPort, request.protocolId⟩

def OffloadSession.seven (session : OffloadSession) : SevenTuple :=
  ⟨session.inLif, session.outLif, session.sourceIp, session.sourcePort, session.destinationIp,
    session.destinationPort, session.protocolId⟩

theorem sevenTuple_iff (session : OffloadSession) (request : SessionRequest) :
    session.sevenTuple request = true ↔ session.seven = request.seven := by
  simp only [OffloadSession.sevenTuple, OffloadSession.seven, SessionRequest.seven,
    decide_eq_true_eq, SevenTuple.mk.injEq]
  constructor
  · rintro ⟨h₁, h₂, h₃, h₄, h₅, h₆, h₇⟩
    exact ⟨h₆.symm, h₇.symm, h₁.symm, h₂.symm, h₃.symm, h₄.symm, h₅.symm⟩
  · rintro ⟨h₆, h₇, h₁, h₂, h₃, h₄, h₅⟩
    exact ⟨h₁.symm, h₂.symm, h₃.symm, h₄.symm, h₅.symm, h₆.symm, h₇.symm⟩

theorem truthy_iff (slot : Option Nat) : truthy slot = true ↔ ∃ k, slot = some k ∧ k ≠ 0 := by
  cases slot <;> simp [truthy]

namespace SessionTableServicer

/-- A slot of the range the server hands out that no session occupies. -/
def Roomy (s : SessionTableServicer) : Prop :=
  ∃ slot, 1 ≤ slot ∧ slot < s.maxSessionId ∧ slot ∉ s.offloadSessionTable.keys

def Known (request : SessionRequest) (s : SessionTableServicer) : Prop :=
  ∃ e ∈ s.offloadSessionTable.values, e.seven = request.seven

structure Inv (s : SessionTableServicer) : Prop where
  last : 1 ≤ s.lastSessionId ∧ s.lastSessionId ≤ s.maxSessionId
  slots : ∀ slot ∈ s.offloadSessionTable.keys, 1 ≤ slot ∧ slot < s.maxSessionId
  distinct : (s.offloadSessionTable.values.map OffloadSession.seven).Nodup

theorem init_inv (maxSessionId : Nat) (positive : 0 < maxSessionId) :
    (init maxSessionId positive).Inv where
  last := ⟨Nat.le_refl 1, positive⟩
  slots := fun _ member => by cases member
  distinct := List.nodup_nil

section Slots
variable {maxSessionId : Nat} {occupied : List Nat}

def cycled (maxSessionId last i : Nat) : Nat := 1 + (last - 1 + i) % (maxSessionId - 1)

theorem cycled_range (room : 2 ≤ maxSessionId) (last i : Nat) :
    1 ≤ cycled maxSessionId last i ∧ cycled maxSessionId last i < maxSessionId := by
  have below := Nat.mod_lt (last - 1 + i) (show 0 < maxSessionId - 1 by omega)
  unfold cycled
  omega

theorem cycled_zero {last : Nat} (low : 1 ≤ last) (high : last ≤ maxSessionId)
    (room : 2 ≤ maxSessionId) :
    cycled maxSessionId last 0 = if last = maxSessionId then 1 else last := by
  unfold cycled
  split
  · next same => rw [same, Nat.add_zero, Nat.mod_self]
  · next other =>
    rw [Nat.add_zero, Nat.mod_eq_of_lt (by omega)]
    omega

theorem cycled_succ {last : Nat} (low : 1 ≤ last) (room : 2 ≤ maxSessionId) (i : Nat) :
    cycled maxSessionId ((if last = maxSessionId then 1 else last) + 1) i =
      cycled maxSessionId last (i + 1) := by
  unfold cycled
  split
  · next same =>
    have turn : last - 1 + (i + 1) = i + 1 + (maxSessionId - 1) := by omega
    rw [turn, Nat.add_mod_right, Nat.add_sub_cancel, Nat.add_comm 1 i]
  · have turn : last + 1 - 1 + i = last - 1 + (i + 1) := by omega
    rw [turn]

/-- Every slot of the range is looked at once in as many turns as there are slots. -/
theorem cycled_covers {last slot : Nat} (low : 1 ≤ slot) (high : slot < maxSessionId) :
    ∃ i < maxSessionId - 1, cycled maxSessionId last i = slot := by
  have room : 0 < maxSessionId - 1 := by omega
  have offset := Nat.mod_lt (last - 1) room
  refine ⟨(slot - 1 + (maxSessionId - 1 - (last - 1) % (maxSessionId - 1))) % (maxSessionId - 1),
    Nat.mod_lt _ room, ?_⟩
  unfold cycled
  have round : (last - 1) % (maxSessionId - 1) +
      (slot - 1 + (maxSessionId - 1 - (last - 1) % (maxSessionId - 1))) =
      slot - 1 + (maxSessionId - 1) := by omega
  rw [Nat.add_mod_mod, ← Nat.mod_add_mod, round, Nat.add_mod_right, Nat.mod_eq_of_lt (by omega)]
  omega

theorem probe_spec (turns last : Nat) (few : turns ≤ maxSessionId - 1) (low : 1 ≤ last)
    (high : last ≤ maxSessionId) :
    (1 ≤ (probe maxSessionId occupied turns last).2 ∧
        (probe maxSessionId occupied turns last).2 ≤ maxSessionId) ∧
      ∀ slot, (probe maxSessionId occupied turns last).1 = some slot →
        1 ≤ slot ∧ slot < maxSessionId ∧ slot ∉ occupied := by
  induction turns generalizing last with
  | zero => exact ⟨⟨low, high⟩, fun slot found => by cases found⟩
  | succ turns ih =>
    have here : 1 ≤ (if last = maxSessionId then 1 else last) ∧
        (if last = maxSessionId then 1 else last) < maxSessionId := by
      split <;> omega
    rw [probe]
    generalize (if last = maxSessionId then 1 else last) = slot at here ⊢
    by_cases taken : slot ∈ occupied
    · simp only [if_pos taken]
      exact ih (slot + 1) (by omega) (by omega) here.2
    · simp only [if_neg taken]
      refine ⟨⟨here.1, Nat.le_of_lt here.2⟩, fun found same => ?_⟩
      cases Option.some.inj same
      exact ⟨here.1, here.2, taken⟩

theorem probe_none_iff (turns last : Nat) (room : 2 ≤ maxSessionId) (low : 1 ≤ last)
    (high : last ≤ maxSessionId) :
    (probe maxSessionId occupied turns last).1 = none ↔
      ∀ i < turns, cycled maxSessionId last i ∈ occupied := by
  induction turns generalizing last with
  | zero => exact ⟨fun _ i less => by omega, fun _ => rfl⟩
  | succ turns ih =>
    have first := cycled_zero low high room
    have next := cycled_succ low room
    have range := cycled_range room last 0
    rw [probe]
    generalize (if last = maxSessionId then 1 else last) = slot at first next ⊢
    by_cases taken : slot ∈ occupied
    · simp only [if_pos taken]
      rw [ih (slot + 1) (by omega) (by omega)]
      constructor
      · intro later i less
        cases i with
        | zero => exact first ▸ taken
        | succ i => exact next i ▸ later i (by omega)
      · exact fun all i less => next i ▸ all (i + 1) (by omega)
    · simp only [if_neg taken]
      constructor
      · intro found
        cases found
      · exact fun all => absurd (first ▸ all 0 (Nat.succ_pos turns)) taken

end Slots

variable {s : SessionTableServicer}

theorem nextSessionId_spec (inv : s.Inv) :
    ((1 ≤ s.nextSessionId.2.lastSessionId ∧
        s.nextSessionId.2.lastSessionId ≤ s.maxSessionId) ∧
      ∀ slot, s.nextSessionId.1 = some slot →
        1 ≤ slot ∧ slot < s.maxSessionId ∧ slot ∉ s.offloadSessionTable.keys) ∧
    (s.nextSessionId.1 = none ↔ ¬ s.Roomy) := by
  have spec := @probe_spec s.maxSessionId s.offloadSessionTable.keys (s.maxSessionId - 1)
    s.lastSessionId (Nat.le_refl _) inv.last.1 inv.last.2
  refine ⟨spec, ?_⟩
  by_cases room : 2 ≤ s.maxSessionId
  · refine (probe_none_iff (s.maxSessionId - 1) s.lastSessionId room inv.last.1 inv.last.2).trans ?_
    constructor
    · rintro all ⟨slot, low, high, free⟩
      obtain ⟨i, less, same⟩ := @cycled_covers _ s.lastSessionId slot low high
      exact free (same ▸ all i less)
    · intro full i less
      by_contra free
      have range := cycled_range room s.lastSessionId i
      exact full ⟨_, range.1, range.2, free⟩
  · have one : s.maxSessionId - 1 = 0 := by omega
    have none : s.nextSessionId.1 = none := by
      rw [nextSessionId, one]
      rfl
    constructor
    · rintro _ ⟨slot, low, high, _⟩
      omega
    · exact fun _ => none

theorem find_known (inv : s.Inv) (request : SessionRequest) :
    truthy (s.findSessionByTuple request) = true ↔ Known request s := by
  rw [truthy_iff]
  constructor
  · rintro ⟨slot, found, _⟩
    obtain ⟨⟨k, e⟩, hit, _⟩ := Option.map_eq_some_iff.mp found
    have agrees := (sevenTuple_iff e request).mp (by simpa using List.find?_some hit)
    exact ⟨e, Dict.mem_values.mpr ⟨k, List.mem_of_find?_eq_some hit⟩, agrees⟩
  · rintro ⟨e, member, agrees⟩
    obtain ⟨k, here⟩ := Dict.mem_values.mp member
    have some : ((s.offloadSessionTable.entries.find?
        (fun e => e.2.sevenTuple request)).isSome) = true :=
      List.find?_isSome.mpr ⟨(k, e), here, (sevenTuple_iff e request).mpr agrees⟩
    obtain ⟨⟨slot, f⟩, hit⟩ := Option.isSome_iff_exists.mp some
    have occupied := Dict.mem_keys.mpr ⟨f, List.mem_of_find?_eq_some hit⟩
    have low := (inv.slots slot occupied).1
    exact ⟨slot, by rw [findSessionByTuple, hit]; rfl, by omega⟩

def probed (s : SessionTableServicer) : SessionTableServicer := s.nextSessionId.2

def installed (slot : Nat) (timestamp : Timestamp) (request : SessionRequest)
    (s : SessionTableServicer) : SessionTableServicer :=
  { s.probed with
    offloadSessionTable :=
      s.offloadSessionTable.set slot (newOffloadSession timestamp request) }

def admits (request : SessionRequest) (s : SessionTableServicer) : Bool :=
  printable request && !truthy (s.findSessionByTuple request) && s.nextSessionId.1.isSome

inductive Refusal (request : SessionRequest) (s : SessionTableServicer) :
    List SessionResponseError → Prop where
  | known (present : Known request s) (room : s.Roomy) :
      Refusal request s [⟨request.sessionId, AddSessionStatus.alreadyExists.code⟩]
  | full (absent : ¬ Known request s) (crowded : ¬ s.Roomy) :
      Refusal request s [⟨request.sessionId, AddSessionStatus.tableFull.code⟩]
  | both (present : Known request s) (crowded : ¬ s.Roomy) :
      Refusal request s [⟨request.sessionId, AddSessionStatus.alreadyExists.code⟩,
        ⟨request.sessionId, AddSessionStatus.tableFull.code⟩]

section Answers
variable {request : SessionRequest}

theorem addRequest_crowded (shown : printable request = true) (full : s.nextSessionId.1 = none)
    (timestamp : Timestamp) :
    s.addRequest timestamp request = some
      ((if truthy (s.findSessionByTuple request) then
          [⟨request.sessionId, AddSessionStatus.alreadyExists.code⟩]
        else []) ++ [⟨request.sessionId, AddSessionStatus.tableFull.code⟩], s.probed) := by
  have next : s.nextSessionId = (none, s.probed) := by rw [← full]; rfl
  rw [addRequest, if_pos shown, next]

theorem addRequest_known (shown : printable request = true) {slot : Nat}
    (found : s.nextSessionId.1 = some slot) (present : truthy (s.findSessionByTuple request) = true)
    (timestamp : Timestamp) :
    s.addRequest timestamp request =
      some ([⟨request.sessionId, AddSessionStatus.alreadyExists.code⟩], s.probed) := by
  have next : s.nextSessionId = (some slot, s.probed) := by rw [← found]; rfl
  rw [addRequest, if_pos shown, next]
  simp only [if_pos present]
  rfl

theorem addRequest_new (shown : printable request = true) {slot : Nat}
    (found : s.nextSessionId.1 = some slot)
    (absent : ¬ truthy (s.findSessionByTuple request) = true) (timestamp : Timestamp) :
    s.addRequest timestamp request = some ([], s.installed slot timestamp request) := by
  have next : s.nextSessionId = (some slot, s.probed) := by rw [← found]; rfl
  rw [addRequest, if_pos shown, next]
  simp only [if_neg absent]
  rfl

end Answers

theorem addRequest_cases (inv : s.Inv) (timestamp : Timestamp) (request : SessionRequest) :
    (printable request = false ∧ s.addRequest timestamp request = none) ∨
    (printable request = true ∧ ∃ errors, Refusal request s errors ∧
      s.addRequest timestamp request = some (errors, s.probed)) ∨
    (printable request = true ∧ ¬ Known request s ∧ s.Roomy ∧
      ∃ slot, 1 ≤ slot ∧ slot < s.maxSessionId ∧ slot ∉ s.offloadSessionTable.keys ∧
        s.addRequest timestamp request = some ([], s.installed slot timestamp request)) := by
  cases shown : printable request with
  | false => exact .inl ⟨rfl, by simp [addRequest, shown]⟩
  | true =>
    right
    have known := find_known inv request
    obtain ⟨⟨_, free⟩, full⟩ := nextSessionId_spec inv
    cases found : s.nextSessionId.1 with
    | none =>
      left
      have crowded := full.mp found
      have run := addRequest_crowded shown found timestamp
      by_cases present : Known request s
      · rw [if_pos (known.mpr present)] at run
        exact ⟨rfl, _, .both present crowded, run⟩
      · rw [if_neg (mt known.mp present)] at run
        exact ⟨rfl, _, .full present crowded, run⟩
    | some slot =>
      have room : s.Roomy := by
        by_contra crowded
        rw [full.mpr crowded] at found
        cases found
      by_cases present : Known request s
      · left
        have run := addRequest_known shown found (known.mpr present) timestamp
        exact ⟨rfl, _, .known present room, run⟩
      · right
        obtain ⟨low, high, fresh⟩ := free slot found
        have run := addRequest_new shown found (mt known.mp present) timestamp
        exact ⟨rfl, present, room, slot, low, high, fresh, run⟩

theorem probe_free {maxSessionId : Nat} {occupied : List Nat} {turns last slot : Nat}
    (found : (probe maxSessionId occupied turns last).1 = some slot) : slot ∉ occupied := by
  induction turns generalizing last with
  | zero => cases found
  | succ turns ih =>
    rw [probe] at found
    generalize (if last = maxSessionId then 1 else last) = here at found
    by_cases taken : here ∈ occupied
    · simp only [if_pos taken] at found
      exact ih found
    · simp only [if_neg taken] at found
      cases Option.some.inj found
      exact taken

theorem addRequest_admits {timestamp : Timestamp} {request : SessionRequest}
    {errors : List SessionResponseError} {t : SessionTableServicer}
    (run : s.addRequest timestamp request = some (errors, t)) :
    (s.admits request = true ∧ errors = [] ∧
      ∃ slot ∉ s.offloadSessionTable.keys, t = s.installed slot timestamp request) ∨
    (s.admits request = false ∧ t = s.probed ∧ errors ≠ [] ∧
      ∀ e ∈ errors, e.sessionId = request.sessionId) := by
  cases shown : printable request with
  | false =>
    rw [addRequest, shown] at run
    cases run
  | true =>
    cases found : s.nextSessionId.1 with
    | none =>
      right
      rw [addRequest_crowded shown found] at run
      cases Option.some.inj run
      refine ⟨by simp [admits, found], rfl, by simp, fun e member => ?_⟩
      rcases List.mem_append.mp member with earlier | last
      · split at earlier
        · cases List.mem_singleton.mp earlier
          rfl
        · cases earlier
      · cases List.mem_singleton.mp last
        rfl
    | some slot =>
      by_cases present : truthy (s.findSessionByTuple request) = true
      · right
        rw [addRequest_known shown found present] at run
        cases Option.some.inj run
        exact ⟨by simp [admits, present], rfl, by simp, by simp⟩
      · left
        rw [addRequest_new shown found present] at run
        cases Option.some.inj run
        exact ⟨by simp [admits, shown, present, found], rfl, slot, probe_free found, rfl⟩

theorem addRequest_answers {request : SessionRequest} (shown : printable request = true)
    (timestamp : Timestamp) (s : SessionTableServicer) :
    ∃ errors t, s.addRequest timestamp request = some (errors, t) := by
  cases found : s.nextSessionId.1 with
  | none => exact ⟨_, _, addRequest_crowded shown found timestamp⟩
  | some slot =>
    by_cases present : truthy (s.findSessionByTuple request) = true
    · exact ⟨_, _, addRequest_known shown found present timestamp⟩
    · exact ⟨_, _, addRequest_new shown found present timestamp⟩

end SessionTableServicer

inductive NosCall where
  | add (timestamp : Timestamp) (request : SessionRequest)
  | get (sessionId : Word64)
  | del (timestamp : Timestamp) (sessionId : Word64)
  | closed (slot : Nat)
  | list (request : SessionRequestArgs)
  | traffic (sessionAction : Nat → SessionAction)

inductive NosReply where
  | add (errors : Option (List SessionResponseError))
  | get (status : GrpcStatus) (response : TimedSessionResponse)
  | del (response : TimedSessionResponse)
  | closed (turn : SessionTableServicer.ClosedTurn)
  | list (responses : Option SessionTableServicer.TimedSessionResponses)
  | traffic

def nosServe (s : SessionTableServicer) : NosCall → Option (SessionTableServicer × NosReply)
  | .add timestamp request =>
    match s.addRequest timestamp request with
    | none => some (s, .add none)
    | some (errors, t) => some (t, .add (some errors))
  | .get sessionId =>
    let (status, response) := s.getSession sessionId
    some (s, .get status response)
  | .del timestamp sessionId =>
    let (response, t) := s.deleteSession timestamp sessionId
    some (t, .del response)
  | .closed slot =>
    let (turn, t) := s.closedTurn slot
    some (t, .closed turn)
  | .list request => some (s, .list (s.getAllSessions request))
  | .traffic sessionAction => some (s.simulateSessionsTraffic sessionAction, .traffic)

abbrev NosStep : SessionTableServicer → NosCall × NosReply → SessionTableServicer → Prop :=
  serves nosServe

inductive NosEffect (s t : SessionTableServicer) : NosCall × NosReply → Prop where
  | kept (l : NosCall × NosReply) (table : t.offloadSessionTable = s.offloadSessionTable) :
      NosEffect s t l
  | installed (timestamp : Timestamp) (request : SessionRequest) (slot : Nat)
      (shown : printable request = true) (absent : ¬ s.Known request) (room : s.Roomy)
      (range : 1 ≤ slot ∧ slot < s.maxSessionId) (fresh : slot ∉ s.offloadSessionTable.keys)
      (table : t.offloadSessionTable =
        s.offloadSessionTable.set slot (newOffloadSession timestamp request)) :
      NosEffect s t (.add timestamp request, .add (some []))
  | erased (l : NosCall × NosReply) (slot : Nat)
      (table : t.offloadSessionTable = s.offloadSessionTable.erase slot) : NosEffect s t l
  | traffic (sessionAction : Nat → SessionAction)
      (table : t.offloadSessionTable = s.offloadSessionTable.mapValues fun slot session =>
        if session.state = .closed then session else session.act (sessionAction slot)) :
      NosEffect s t (.traffic sessionAction, .traffic)

def Counted (s t : SessionTableServicer) : Prop :=
  t.maxSessionId = s.maxSessionId ∧
    (t.lastSessionId = s.lastSessionId ∨ t.lastSessionId = s.probed.lastSessionId)

theorem closedTurn_cases (s : SessionTableServicer) (slot : Nat) :
    (s.offloadSessionTable.get? slot = none ∧ s.closedTurn slot = (.raised, s)) ∨
    ∃ session, s.offloadSessionTable.get? slot = some session ∧
      ((session.state ≠ .closed ∧ s.closedTurn slot = (.passed, s)) ∨
       (session.state = .closed ∧ s.closedTurn slot =
          (((session.response session.clientSessionId).map .yielded).getD .raised,
            { s with offloadSessionTable := s.offloadSessionTable.erase slot }))) := by
  cases found : s.offloadSessionTable.get? slot with
  | none =>
    left
    exact ⟨rfl, by rw [SessionTableServicer.closedTurn, found]⟩
  | some session =>
    right
    refine ⟨session, rfl, ?_⟩
    by_cases ended : session.state = .closed
    · right
      exact ⟨ended, by simp only [SessionTableServicer.closedTurn, found, if_pos ended]⟩
    · left
      exact ⟨ended, by simp only [SessionTableServicer.closedTurn, found, if_neg ended]⟩

theorem handed_yielded {built : Option TimedSessionResponse} {response : TimedSessionResponse} :
    (built.map SessionTableServicer.ClosedTurn.yielded).getD .raised = .yielded response ↔
      built = some response := by
  cases built <;> simp

theorem closedTurn_yielded {s t : SessionTableServicer} {slot : Nat}
    {response : TimedSessionResponse} (run : s.closedTurn slot = (.yielded response, t)) :
    ∃ session, (slot, session) ∈ s.offloadSessionTable.entries ∧
      session.response session.clientSessionId = some response ∧
      t = { s with offloadSessionTable := s.offloadSessionTable.erase slot } := by
  rcases closedTurn_cases s slot with ⟨_, run'⟩ | ⟨session, found, ⟨_, run'⟩ | ⟨_, run'⟩⟩
  · rw [run] at run'
    cases run'
  · rw [run] at run'
    cases run'
  · rw [run] at run'
    obtain ⟨turn, rfl⟩ := Prod.mk.inj run'
    exact ⟨session, Dict.get?_eq_some_iff.mp found, handed_yielded.mp turn.symm, rfl⟩

section Deleting
variable {s : SessionTableServicer} {sessionId : Word64}

theorem deleteSession_erases (inv : s.Inv) {slot : Nat} {session : OffloadSession}
    (found : s.findSessionByClientId sessionId = some (slot, session)) (timestamp : Timestamp) :
    (s.deleteSession timestamp sessionId).2 =
      { s with offloadSessionTable := s.offloadSessionTable.erase slot } := by
  have stored := Dict.mem_keys.mpr ⟨session, List.mem_of_find?_eq_some found⟩
  have low := (inv.slots slot stored).1
  have used : truthy (some slot) = true := (truthy_iff _).mpr ⟨slot, rfl, by omega⟩
  simp only [SessionTableServicer.deleteSession, found, used, if_true]

theorem deleteSession_unknown (absent : s.findSessionByClientId sessionId = none)
    (timestamp : Timestamp) : (s.deleteSession timestamp sessionId).2 = s := by
  simp only [SessionTableServicer.deleteSession, absent]

end Deleting

inductive NosTurn (s : SessionTableServicer) :
    NosCall × NosReply → SessionTableServicer → Prop where
  | raised (timestamp : Timestamp) {request : SessionRequest}
      (hidden : printable request = false) : NosTurn s (.add timestamp request, .add none) s
  | refused (timestamp : Timestamp) {request : SessionRequest}
      {errors : List SessionResponseError} (refusal : s.Refusal request errors) :
      NosTurn s (.add timestamp request, .add (some errors)) s.probed
  | installed (timestamp : Timestamp) {request : SessionRequest} {slot : Nat}
      (shown : printable request = true) (absent : ¬ s.Known request) (room : s.Roomy)
      (range : 1 ≤ slot ∧ slot < s.maxSessionId) (fresh : slot ∉ s.offloadSessionTable.keys) :
      NosTurn s (.add timestamp request, .add (some [])) (s.installed slot timestamp request)
  | got (sessionId : Word64) :
      NosTurn s (.get sessionId, .get (s.getSession sessionId).1 (s.getSession sessionId).2) s
  | deleted (timestamp : Timestamp) {sessionId : Word64} {slot : Nat} {session : OffloadSession}
      (found : s.findSessionByClientId sessionId = some (slot, session)) :
      NosTurn s (.del timestamp sessionId, .del (s.deleteSession timestamp sessionId).1)
        { s with offloadSessionTable := s.offloadSessionTable.erase slot }
  | unknown (timestamp : Timestamp) {sessionId : Word64}
      (absent : s.findSessionByClientId sessionId = none) :
      NosTurn s (.del timestamp sessionId, .del (s.deleteSession timestamp sessionId).1) s
  | empty {slot : Nat} (absent : s.offloadSessionTable.get? slot = none) :
      NosTurn s (.closed slot, .closed .raised) s
  | passed {slot : Nat} {session : OffloadSession}
      (found : s.offloadSessionTable.get? slot = some session)
      (going : session.state ≠ .closed) : NosTurn s (.closed slot, .closed .passed) s
  | handed {slot : Nat} {session : OffloadSession}
      (found : s.offloadSessionTable.get? slot = some session)
      (ended : session.state = .closed) :
      NosTurn s (.closed slot, .closed
          (((session.response session.clientSessionId).map .yielded).getD .raised))
        { s with offloadSessionTable := s.offloadSessionTable.erase slot }
  | listed (request : SessionRequestArgs) :
      NosTurn s (.list request, .list (s.getAllSessions request)) s
  | traffic (sessionAction : Nat → SessionAction) :
      NosTurn s (.traffic sessionAction, .traffic) (s.simulateSessionsTraffic sessionAction)

theorem nosStep_turn {s t : SessionTableServicer} {l : NosCall × NosReply} (inv : s.Inv)
    (step : NosStep s l t) : NosTurn s l t := by
  obtain ⟨call, reply⟩ := l
  change nosServe s call = some (t, reply) at step
  cases call with
  | add timestamp request =>
    rcases SessionTableServicer.addRequest_cases inv timestamp request with
      ⟨hidden, run⟩ | ⟨_, errors, refusal, run⟩ |
      ⟨shown, absent, room, slot, low, high, fresh, run⟩
    · simp only [nosServe, run] at step
      cases Option.some.inj step
      exact .raised timestamp hidden
    · simp only [nosServe, run] at step
      cases Option.some.inj step
      exact .refused timestamp refusal
    · simp only [nosServe, run] at step
      cases Option.some.inj step
      exact .installed timestamp shown absent room ⟨low, high⟩ fresh
  | get sessionId =>
    have same : (s, NosReply.get _ _) = (t, reply) := Option.some.inj step
    obtain ⟨rfl, rfl⟩ := Prod.mk.inj same
    exact .got sessionId
  | del timestamp sessionId =>
    have same : ((s.deleteSession timestamp sessionId).2,
        NosReply.del (s.deleteSession timestamp sessionId).1) = (t, reply) := Option.some.inj step
    obtain ⟨rfl, rfl⟩ := Prod.mk.inj same
    cases found : s.findSessionByClientId sessionId with
    | none =>
      rw [deleteSession_unknown found]
      exact .unknown timestamp found
    | some entry =>
      rw [deleteSession_erases inv found]
      exact .deleted timestamp found
  | closed slot =>
    rcases closedTurn_cases s slot with
      ⟨absent, run⟩ | ⟨session, found, ⟨going, run⟩ | ⟨ended, run⟩⟩
    · simp only [nosServe, run] at step
      cases Option.some.inj step
      exact .empty absent
    · simp only [nosServe, run] at step
      cases Option.some.inj step
      exact .passed found going
    · simp only [nosServe, run] at step
      cases Option.some.inj step
      exact .handed found ended
  | list request =>
    have same : (s, NosReply.list _) = (t, reply) := Option.some.inj step
    obtain ⟨rfl, rfl⟩ := Prod.mk.inj same
    exact .listed request
  | traffic sessionAction =>
    cases Option.some.inj step
    exact .traffic sessionAction

theorem nosStep_effect {s t : SessionTableServicer} {l : NosCall × NosReply} (inv : s.Inv)
    (step : NosStep s l t) : NosEffect s t l ∧ Counted s t := by
  cases nosStep_turn inv step with
  | raised timestamp hidden => exact ⟨.kept _ rfl, rfl, .inl rfl⟩
  | refused timestamp refusal => exact ⟨.kept _ rfl, rfl, .inr rfl⟩
  | installed timestamp shown absent room range fresh =>
    exact ⟨.installed timestamp _ _ shown absent room range fresh rfl, rfl, .inr rfl⟩
  | got sessionId => exact ⟨.kept _ rfl, rfl, .inl rfl⟩
  | deleted timestamp found => exact ⟨.erased _ _ rfl, rfl, .inl rfl⟩
  | unknown timestamp absent => exact ⟨.kept _ rfl, rfl, .inl rfl⟩
  | empty absent => exact ⟨.kept _ rfl, rfl, .inl rfl⟩
  | passed found going => exact ⟨.kept _ rfl, rfl, .inl rfl⟩
  | handed found ended => exact ⟨.erased _ _ rfl, rfl, .inl rfl⟩
  | listed request => exact ⟨.kept _ rfl, rfl, .inl rfl⟩
  | traffic sessionAction => exact ⟨.traffic sessionAction rfl, rfl, .inl rfl⟩

theorem act_seven (session : OffloadSession) (action : SessionAction) :
    (session.act action).seven = session.seven := by
  cases action <;> rfl

theorem effect_values {s t : SessionTableServicer} {l : NosCall × NosReply}
    (effect : NosEffect s t l) (P : OffloadSession → Prop)
    (fresh : ∀ timestamp request, printable request = true →
      P (newOffloadSession timestamp request))
    (acts : ∀ session action, session.state ≠ .closed → P session → P (session.act action))
    (before : ∀ e ∈ s.offloadSessionTable.values, P e) :
    ∀ e ∈ t.offloadSessionTable.values, P e := by
  intro e member
  obtain ⟨k, here⟩ := Dict.mem_values.mp member
  cases effect with
  | kept l table => exact before e (table ▸ member)
  | installed timestamp request slot shown absent room range free table =>
    rw [table, Dict.set_fresh free] at here
    rcases List.mem_append.mp here with old | new
    · exact before e (Dict.mem_values.mpr ⟨k, old⟩)
    · cases List.mem_singleton.mp new
      exact fresh timestamp request shown
  | erased l slot table =>
    rw [table] at here
    exact before e (Dict.mem_values.mpr ⟨k, (Dict.mem_erase.mp here).1⟩)
  | traffic sessionAction table =>
    rw [table] at here
    obtain ⟨session, old, same⟩ := Dict.mem_mapValues.mp here
    have held := before session (Dict.mem_values.mpr ⟨k, old⟩)
    by_cases ended : session.state = .closed
    · simp only [if_pos ended] at same
      exact same ▸ held
    · simp only [if_neg ended] at same
      exact same ▸ acts session (sessionAction k) ended held

theorem effect_keys {s t : SessionTableServicer} {l : NosCall × NosReply}
    (effect : NosEffect s t l) {slot : Nat} (occupied : slot ∈ t.offloadSessionTable.keys) :
    slot ∈ s.offloadSessionTable.keys ∨ (1 ≤ slot ∧ slot < s.maxSessionId) := by
  cases effect with
  | kept l table => exact .inl (table ▸ occupied)
  | installed timestamp request k shown absent room range free table =>
    rw [table, Dict.keys, Dict.set_fresh free, List.map_append] at occupied
    rcases List.mem_append.mp occupied with old | new
    · exact .inl old
    · rw [List.map_singleton, List.mem_singleton] at new
      exact .inr (new ▸ range)
  | erased l k table =>
    rw [table] at occupied
    exact .inl (Dict.mem_keys_erase.mp occupied).1
  | traffic sessionAction table =>
    rw [table, Dict.keys_mapValues] at occupied
    exact .inl occupied

theorem traffic_key {κ : Type*} (s : SessionTableServicer) (sessionAction : Nat → SessionAction)
    (key : OffloadSession → κ) (acts : ∀ session action, key (session.act action) = key session) :
    (s.simulateSessionsTraffic sessionAction).offloadSessionTable.values.map key =
      s.offloadSessionTable.values.map key := by
  rw [SessionTableServicer.simulateSessionsTraffic, Dict.values, Dict.values, Dict.mapValues,
    List.map_map, List.map_map, List.map_map]
  apply List.map_congr_left
  rintro ⟨k, session⟩ _
  change key (if session.state = .closed then session else _) = key session
  split
  · rfl
  · exact acts session _

theorem effect_distinct {κ : Type*} {s t : SessionTableServicer} {l : NosCall × NosReply}
    (effect : NosEffect s t l) (key : OffloadSession → κ)
    (acts : ∀ session action, key (session.act action) = key session)
    (fresh : ∀ timestamp request, l = (.add timestamp request, .add (some [])) →
      printable request = true → ¬ s.Known request → s.Roomy →
      key (newOffloadSession timestamp request) ∉ s.offloadSessionTable.values.map key)
    (before : (s.offloadSessionTable.values.map key).Nodup) :
    (t.offloadSessionTable.values.map key).Nodup := by
  cases effect with
  | kept l table => exact table ▸ before
  | installed timestamp request slot shown absent room range free table =>
    rw [table, Dict.values, Dict.set_fresh free, List.map_append, List.map_append,
      List.map_singleton, List.map_singleton, ← List.concat_eq_append]
    exact before.concat (fresh timestamp request rfl shown absent room)
  | erased l slot table =>
    rw [table]
    exact before.sublist ((List.filter_sublist.map Prod.snd).map key)
  | traffic sessionAction table =>
    have same := traffic_key s sessionAction key acts
    rw [table]
    exact same.symm ▸ before

theorem nosStep_inv {s t : SessionTableServicer} {l : NosCall × NosReply} (inv : s.Inv)
    (step : NosStep s l t) : t.Inv := by
  obtain ⟨effect, max, last⟩ := nosStep_effect inv step
  refine ⟨?_, ?_, ?_⟩
  · rw [max]
    rcases last with same | probed
    · exact same ▸ inv.last
    · exact probed ▸ (SessionTableServicer.nextSessionId_spec inv).1.1
  · intro slot occupied
    rw [max]
    rcases effect_keys effect occupied with old | new
    · exact inv.slots slot old
    · exact new
  · apply effect_distinct effect OffloadSession.seven act_seven ?_ inv.distinct
    intro timestamp request _ _ absent _ known
    obtain ⟨e, member, same⟩ := List.mem_map.mp known
    exact absent ⟨e, member, same⟩

theorem nosPath_inv {maxSessionId : Nat} {positive : 0 < maxSessionId}
    {ls : List (NosCall × NosReply)} {s : SessionTableServicer}
    (path : Path NosStep (.init maxSessionId positive) ls s) : s.Inv :=
  path.invariant SessionTableServicer.Inv (fun _ _ _ inv step => nosStep_inv inv step)
    (SessionTableServicer.init_inv maxSessionId positive)

theorem nosPath_values {maxSessionId : Nat} {positive : 0 < maxSessionId}
    {ls : List (NosCall × NosReply)} {s : SessionTableServicer} (P : OffloadSession → Prop)
    (fresh : ∀ timestamp request, printable request = true →
      P (newOffloadSession timestamp request))
    (acts : ∀ session action, session.state ≠ .closed → P session → P (session.act action))
    (path : Path NosStep (.init maxSessionId positive) ls s) :
    ∀ e ∈ s.offloadSessionTable.values, P e := by
  have both := path.invariant
    (fun s => s.Inv ∧ ∀ e ∈ s.offloadSessionTable.values, P e)
    (fun _ _ _ held step => ⟨nosStep_inv held.1 step,
      effect_values (nosStep_effect held.1 step).1 P fresh acts held.2⟩)
    ⟨SessionTableServicer.init_inv maxSessionId positive, fun _ member => by cases member⟩
  exact both.2

theorem nosPath_distinct {κ : Type*} {maxSessionId : Nat} {positive : 0 < maxSessionId}
    {ls : List (NosCall × NosReply)} {s : SessionTableServicer}
    {G : SessionTableServicer → NosCall × NosReply → SessionTableServicer → Prop}
    (key : OffloadSession → κ)
    (keeps : ∀ s l t, s.Inv → NosStep s l t → G s l t →
      (s.offloadSessionTable.values.map key).Nodup → (t.offloadSessionTable.values.map key).Nodup)
    (path : Path (restrict NosStep G) (.init maxSessionId positive) ls s) :
    s.Inv ∧ (s.offloadSessionTable.values.map key).Nodup :=
  path.invariant (fun s => s.Inv ∧ (s.offloadSessionTable.values.map key).Nodup)
    (fun s l t held step => ⟨nosStep_inv held.1 step.1,
      keeps s l t held.1 step.1 step.2 held.2⟩)
    ⟨SessionTableServicer.init_inv maxSessionId positive, List.nodup_nil⟩

/-- A stream is a run of its messages, up to the one that raises. -/
theorem addSession_path (requests : List (Timestamp × SessionRequest)) (s : SessionTableServicer) :
    ∃ ls, Path NosStep s ls (s.addSession requests).2 := by
  induction requests generalizing s with
  | nil => exact ⟨[], .nil s⟩
  | cons first rest ih =>
    obtain ⟨timestamp, request⟩ := first
    cases run : s.addRequest timestamp request with
    | none =>
      simp only [SessionTableServicer.addSession, run]
      exact ⟨[], .nil s⟩
    | some answer =>
      obtain ⟨errors, t⟩ := answer
      obtain ⟨ls, later⟩ := ih t
      have step : NosStep s (.add timestamp request, .add (some errors)) t := by
        simp only [serves, nosServe, run]
      simp only [SessionTableServicer.addSession, run]
      exact ⟨_, .cons step later⟩

/-- So is a closed report of its turns. -/
theorem reportLoop_path (slots : List Nat) (s : SessionTableServicer) :
    ∃ ls, Path NosStep s ls (SessionTableServicer.closedLoop slots s).server := by
  induction slots generalizing s with
  | nil => exact ⟨[], .nil s⟩
  | cons slot slots ih =>
    have step : NosStep s (.closed slot, .closed (s.closedTurn slot).1) (s.closedTurn slot).2 := rfl
    rw [SessionTableServicer.closedLoop]
    generalize s.closedTurn slot = turn at step ⊢
    obtain ⟨result, t⟩ := turn
    cases result with
    | raised => exact ⟨_, .single step⟩
    | passed =>
      obtain ⟨ls, later⟩ := ih t
      exact ⟨_, .cons step later⟩
    | yielded response =>
      obtain ⟨ls, later⟩ := ih t
      exact ⟨_, .cons step later⟩

end SessionOffload
