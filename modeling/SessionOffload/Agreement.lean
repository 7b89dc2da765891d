import SessionOffload.ClientIds
import SessionOffload.FwSimulator

/-! The firewall's table and the offload device's table agree whenever no call is under
way: what the firewall has marked as offloaded is what the device holds. -/
namespace SessionOffload
open Transition

namespace Firewall

variable {fw fw' : Firewall}

theorem offloaded_known {id : Nat} (offloaded : fw.Offloaded id) : id ∈ fw.sessionTable.keys := by
  obtain ⟨session, found, _⟩ := offloaded
  exact Dict.mem_keys.mpr ⟨session, Dict.get?_eq_some_iff.mp found⟩

def searchStart (fw : Firewall) : Nat :=
  if fw.lastSessionId = maxSessionId then startSessionId else fw.lastSessionId

theorem nextSessionId_least (fw : Firewall) :
    ∃ id, fw.nextSessionId = some id ∧ fw.searchStart ≤ id ∧ id ∉ fw.sessionTable.keys ∧
      ∀ k, fw.searchStart ≤ k → k < id → k ∈ fw.sessionTable.keys := by
  have turn (id : Nat)
      (passed : fw.searchStart ≤ id ∧ ∀ k, fw.searchStart ≤ k → k < id → k ∈ fw.sessionTable.keys)
      (taken : decide (id ∈ fw.sessionTable.keys) = true) :
      ∃ next, some (id + 1) = some next ∧
        (fw.searchStart ≤ next ∧
          ∀ k, fw.searchStart ≤ k → k < next → k ∈ fw.sessionTable.keys) ∧
        (fw.sessionTable.keys.filter (fun k => next ≤ k)).length <
          (fw.sessionTable.keys.filter (fun k => id ≤ k)).length := by
    refine ⟨id + 1, rfl, ⟨by omega, fun k low high => ?_⟩, ?_⟩
    · rcases Nat.lt_succ_iff_lt_or_eq.mp high with before | rfl
      · exact passed.2 k low before
      · exact of_decide_eq_true taken
    · have fewer : fw.sessionTable.keys.filter (fun k => id + 1 ≤ k) =
          (fw.sessionTable.keys.filter (fun k => id ≤ k)).filter (fun k => id + 1 ≤ k) := by
        rw [List.filter_filter]
        apply List.filter_congr
        intro k _
        rw [← Bool.decide_and, decide_eq_decide]
        omega
      rw [fewer, List.length_filter_lt_length_iff_exists]
      exact ⟨id, List.mem_filter.mpr ⟨of_decide_eq_true taken, by simp⟩, by simp⟩
  obtain ⟨id, run, passed, free⟩ := Loop.run_terminates _ _ turn fw.sessionTable.keys.length
    fw.searchStart ⟨Nat.le_refl _, fun k low high => by omega⟩ (List.length_filter_le _ _)
  exact ⟨id, run, passed.1, of_decide_eq_false free, passed.2⟩

theorem nextSessionId_returns (fw : Firewall) :
    ∃ id, fw.nextSessionId = some id ∧ id ∉ fw.sessionTable.keys := by
  obtain ⟨id, next, _, free, _⟩ := nextSessionId_least fw
  exact ⟨id, next, free⟩

theorem buildRequest_id (type : SessionType) (draw : Draw) (sessionId : Word64) :
    (buildRequest type draw sessionId).sessionId = sessionId := by
  cases type <;> rfl

theorem buildRequest_printable (type : SessionType) (draw : Draw) (sessionId : Word64) :
    printable (buildRequest type draw sessionId) = true := by
  cases type with
  | ipv4 => rfl
  | ipv6 => simp [printable_iff, buildRequest]

theorem newSession_spec {type : SessionType} {draw : Draw} {session : SessionRequest}
    (built : newSession type draw fw = some (session, fw')) :
    session.sessionId.toNat ∉ fw.sessionTable.keys ∧ printable session = true ∧
      (∀ id, id ∈ fw'.sessionTable.keys ↔
        id = session.sessionId.toNat ∨ id ∈ fw.sessionTable.keys) ∧
      ∀ id, fw'.Offloaded id ↔ id = session.sessionId.toNat ∨ fw.Offloaded id := by
  simp only [newSession, Option.bind_eq_bind, Option.bind_eq_some_iff] at built
  obtain ⟨id, next, sessionId, fits, same⟩ := built
  obtain ⟨_, value⟩ := uint64_spec fits
  obtain ⟨id', next', free⟩ := nextSessionId_returns fw
  rw [next] at next'
  cases Option.some.inj next'
  cases Option.some.inj same
  rw [buildRequest_id, value]
  refine ⟨free, buildRequest_printable type draw sessionId, fun j => Dict.mem_keys_set,
    fun j => ?_⟩
  rw [Offloaded, Offloaded, Dict.get?_set]
  by_cases here : j = id
  · simp [here, localSession]
  · simp [here]

def requestIds (requests : List SessionRequest) : List Nat :=
  requests.map (fun r => r.sessionId.toNat)

theorem newSessions_spec {type : SessionType} {draws : List Draw}
    {sessions : List SessionRequest} (built : newSessions type draws fw = some (sessions, fw')) :
    (requestIds sessions).Nodup ∧ (∀ r ∈ sessions, printable r = true) ∧
      (∀ id ∈ requestIds sessions, id ∉ fw.sessionTable.keys) ∧
      ∀ id, fw'.Offloaded id ↔ id ∈ requestIds sessions ∨ fw.Offloaded id := by
  induction draws generalizing fw sessions with
  | nil =>
    cases Option.some.inj built
    refine ⟨List.nodup_nil, ?_, ?_, fun id => by simp [requestIds]⟩
    · intro r member
      cases member
    · intro id member
      cases member
  | cons draw draws ih =>
    simp only [newSessions, Option.bind_eq_bind, Option.bind_eq_some_iff] at built
    obtain ⟨⟨session, fw₁⟩, first, ⟨later, fw₂⟩, rest, same⟩ := built
    cases Option.some.inj same
    obtain ⟨free, shown, keys, marked⟩ := newSession_spec first
    obtain ⟨distinct, shown', fresh, marked'⟩ := ih rest
    have other : session.sessionId.toNat ∉ requestIds later :=
      fun member => fresh _ member ((keys _).mpr (.inl rfl))
    refine ⟨List.nodup_cons.mpr ⟨other, distinct⟩, ?_, ?_, fun id => ?_⟩
    · intro r member
      rcases List.mem_cons.mp member with rfl | member
      · exact shown
      · exact shown' r member
    · intro id member
      rcases List.mem_cons.mp member with rfl | member
      · exact free
      · exact fun known => fresh id member ((keys id).mpr (.inr known))
    · have split : id ∈ requestIds (session :: later) ↔
          id = session.sessionId.toNat ∨ id ∈ requestIds later := List.mem_cons
      rw [marked', marked, split]
      exact or_left_comm.trans or_assoc.symm

def errorIds (errors : List SessionResponseError) : List Nat :=
  errors.map (fun e => e.sessionId.toNat)

theorem markFailed_spec {errors : List SessionResponseError}
    (marked : markFailed errors fw = some fw') (id : Nat) :
    fw'.Offloaded id ↔ fw.Offloaded id ∧ id ∉ errorIds errors := by
  induction errors generalizing fw with
  | nil =>
    cases Option.some.inj marked
    simp [errorIds]
  | cons error errors ih =>
    simp only [markFailed, Option.bind_eq_bind, Option.bind_eq_some_iff] at marked
    obtain ⟨session, found, marked⟩ := marked
    rw [ih marked, Offloaded, Offloaded, Dict.get?_set, errorIds, errorIds, List.map_cons,
      List.mem_cons]
    by_cases here : id = error.sessionId.toNat
    · simp [here]
    · simp [here]

theorem markFailed_defined {errors : List SessionResponseError}
    (known : ∀ id ∈ errorIds errors, id ∈ fw.sessionTable.keys) :
    ∃ fw', markFailed errors fw = some fw' := by
  induction errors generalizing fw with
  | nil => exact ⟨fw, rfl⟩
  | cons error errors ih =>
    obtain ⟨session, here⟩ := Dict.mem_keys.mp (known _ List.mem_cons_self)
    obtain ⟨fw', marked⟩ := @ih { fw with
      sessionTable :=
        fw.sessionTable.set error.sessionId.toNat { session with offloaded := false } }
      fun id member => Dict.mem_keys_set.mpr (.inr (known id (List.mem_cons_of_mem _ member)))
    refine ⟨fw', ?_⟩
    rw [markFailed, Dict.get?_eq_some_iff.mpr here]
    exact marked

end Firewall

open Firewall

def SessionTableServicer.deviceIds (s : SessionTableServicer) : List Nat :=
  s.clientIds.map BitVec.toNat

section Device
variable {s : SessionTableServicer}

theorem addRequest_ids {timestamp : Timestamp} {request : SessionRequest}
    {errors : List SessionResponseError} {t : SessionTableServicer}
    (run : s.addRequest timestamp request = some (errors, t)) :
    (s.admits request = true ∧ errors = [] ∧ t.clientIds = s.clientIds ++ [request.sessionId]) ∨
      (s.admits request = false ∧ t.clientIds = s.clientIds ∧
        ∀ id, id ∈ errorIds errors ↔ id = request.sessionId.toNat) := by
  rcases SessionTableServicer.addRequest_admits run with
    ⟨admitted, none, slot, free, rfl⟩ | ⟨refused, rfl, some, own⟩
  · left
    exact ⟨admitted, none, installed_clientId timestamp request free⟩
  · right
    refine ⟨refused, rfl, fun id => ?_⟩
    constructor
    · intro member
      obtain ⟨e, here, rfl⟩ := List.mem_map.mp member
      exact congrArg BitVec.toNat (own e here)
    · rintro rfl
      obtain ⟨e, here⟩ := List.exists_mem_of_ne_nil errors some
      exact List.mem_map.mpr ⟨e, here, congrArg BitVec.toNat (own e here)⟩

end Device

def responseIds (responses : List TimedSessionResponse) : List Nat :=
  responses.map (fun r => r.sessionId.toNat)

def Phase.ids : Phase → List Nat
  | .idle => []
  | .adding requests errors => requestIds requests ++ errorIds errors
  | .closing _ responses => responseIds responses

/-- What is still to come in a call is distinct and will not be refused by an exception. -/
def Phase.Ordered (slots : List Nat) : Phase → Prop
  | .idle => True
  | .adding requests errors =>
    (requestIds requests).Nodup ∧ (∀ r ∈ requests, printable r = true) ∧
      ∀ id ∈ requestIds requests, id ∉ errorIds errors
  | .closing unread responses =>
    unread.Nodup ∧ (∀ slot ∈ unread, slot ∈ slots) ∧ (responseIds responses).Nodup

structure System.Inv (w : System) : Prop where
  server : w.server.Inv
  distinct : w.server.clientIds.Nodup
  apart : ∀ id ∈ w.phase.ids, id ∉ w.server.deviceIds
  marked : ∀ id, w.firewall.Offloaded id ↔ id ∈ w.server.deviceIds ∨ id ∈ w.phase.ids
  ordered : w.phase.Ordered w.server.offloadSessionTable.keys

section Steps
variable {fw fw' : Firewall} {s t : SessionTableServicer}

section Serving
variable {request : SessionRequest} {requests : List SessionRequest}
  {errors failed : List SessionResponseError}

end Serving

end Steps

/-- Where every counter fits its field no handler raises: a call that is under way has a
next step. -/
theorem call_proceeds {w : System} (inv : w.Inv)
    (fits : ∀ e ∈ w.server.offloadSessionTable.values, e.Fits) (busy : w.phase ≠ .idle) :
    ∃ act seen u, (∀ sessionAction, act ≠ .traffic sessionAction) ∧
      SystemStep w (act, seen) u := by
  obtain ⟨fw, s, phase⟩ := w
  cases phase with
  | idle => exact absurd rfl busy
  | adding requests errors =>
    cases requests with
    | nil =>
      have known (id : Nat) (failed : id ∈ errorIds errors) : id ∈ fw.sessionTable.keys :=
        offloaded_known ((inv.marked id).mpr (.inr failed))
      obtain ⟨fw', marked⟩ := markFailed_defined known
      refine ⟨.answered, .nothing, ⟨fw', s, .idle⟩, by simp, ?_⟩
      simp [serves, systemServe, marked]
    | cons request requests =>
      have shown := inv.ordered.2.1 request List.mem_cons_self
      obtain ⟨failed, t, run⟩ := SessionTableServicer.addRequest_answers shown dawn s
      refine ⟨.served dawn, .nothing, ⟨fw, t, .adding requests (errors ++ failed)⟩,
        by simp, ?_⟩
      simp [serves, systemServe, run]
  | closing slots responses =>
    cases responses with
    | cons response responses =>
      exact ⟨.reported, _, _, by simp, rfl⟩
    | nil =>
      cases slots with
      | nil => exact ⟨.reportEnds, _, _, by simp, rfl⟩
      | cons slot slots =>
        have occupied := inv.ordered.2.1 slot List.mem_cons_self
        rcases closedTurn_cases s slot with ⟨gone, _⟩ | ⟨e, found, ⟨_, run⟩ | ⟨_, run⟩⟩
        · exact absurd occupied (Dict.get?_eq_none_iff.mp gone)
        · refine ⟨.slotRead, .nothing, ⟨fw, s, .closing slots []⟩, by simp, ?_⟩
          simp [serves, systemServe, run]
        · have stored := Dict.mem_values.mpr ⟨slot, Dict.get?_eq_some_iff.mp found⟩
          obtain ⟨r, built⟩ := response_built (fits e stored) e.clientSessionId
          refine ⟨.slotRead, .nothing,
            ⟨fw, { s with offloadSessionTable := s.offloadSessionTable.erase slot },
              .closing slots [r]⟩, by simp, ?_⟩
          simp [serves, systemServe, run, built]

def zeroDraw : Draw := ⟨9000#32, 443#32, 10#32, 11#32, .replicate 16 1#8, .replicate 16 2#8, 10, 10⟩

end SessionOffload
