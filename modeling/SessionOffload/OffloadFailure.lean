import SessionOffload.Agreement

/-! session_addSessions over a call that may fail. The new sessions stand in the local
table, marked as offloaded, before the call is made; only its response takes marks back. -/
namespace SessionOffload
open Firewall

namespace SessionTableServicer

def admitted : List (Timestamp × SessionRequest) → SessionTableServicer → List SessionRequest
  | [], _ => []
  | (timestamp, request) :: stream, s =>
    match s.addRequest timestamp request with
    | none => []
    | some (_, t) =>
      if s.admits request then request :: admitted stream t else admitted stream t

theorem addSession_clientIds (stream : List (Timestamp × SessionRequest))
    (s : SessionTableServicer) :
    (s.addSession stream).2.clientIds =
      s.clientIds ++ (s.admitted stream).map SessionRequest.sessionId := by
  induction stream generalizing s with
  | nil => exact (List.append_nil _).symm
  | cons message stream ih =>
    obtain ⟨timestamp, request⟩ := message
    cases run : s.addRequest timestamp request with
    | none =>
      simp only [addSession, admitted, run]
      exact (List.append_nil _).symm
    | some result =>
      obtain ⟨errors, t⟩ := result
      simp only [addSession, admitted, run]
      rw [ih t]
      rcases addRequest_ids run with ⟨passes, _, ids⟩ | ⟨fails, ids, _⟩
      · rw [if_pos passes, ids, List.map_cons, List.append_assoc]
        rfl
      · rw [fails, if_neg Bool.false_ne_true, ids]

theorem admitted_read {stream : List (Timestamp × SessionRequest)} {s : SessionTableServicer}
    {r : SessionRequest} (member : r ∈ s.admitted stream) :
    ∃ timestamp, (timestamp, r) ∈ stream := by
  induction stream generalizing s with
  | nil => cases member
  | cons message stream ih =>
    obtain ⟨timestamp, request⟩ := message
    cases run : s.addRequest timestamp request with
    | none =>
      simp only [admitted, run] at member
      cases member
    | some result =>
      simp only [admitted, run] at member
      split at member
      · rcases List.mem_cons.mp member with rfl | later
        · exact ⟨timestamp, List.mem_cons_self⟩
        · obtain ⟨time, there⟩ := ih later
          exact ⟨time, List.mem_cons_of_mem _ there⟩
      · obtain ⟨time, there⟩ := ih member
        exact ⟨time, List.mem_cons_of_mem _ there⟩

theorem addSession_answers {stream : List (Timestamp × SessionRequest)}
    (shown : ∀ message ∈ stream, printable message.2 = true) (s : SessionTableServicer) :
    ∃ response, (s.addSession stream).1 = some response ∧
      (∀ message ∈ stream, message.2 ∈ s.admitted stream ∨
        message.2.sessionId.toNat ∈ errorIds response.responseError) ∧
      ∀ id ∈ errorIds response.responseError, ∃ message ∈ stream,
        message.2.sessionId.toNat = id := by
  induction stream generalizing s with
  | nil =>
    refine ⟨⟨[]⟩, rfl, ?_, ?_⟩
    · intro message member
      cases member
    · intro id member
      cases member
  | cons message stream ih =>
    obtain ⟨timestamp, request⟩ := message
    obtain ⟨errors, t, run⟩ := addRequest_answers (shown _ List.mem_cons_self) timestamp s
    obtain ⟨later, answer, covered, named⟩ :=
      ih (fun message member => shown message (List.mem_cons_of_mem _ member)) t
    have split (id : Nat) : id ∈ errorIds (errors ++ later.responseError) ↔
        id ∈ errorIds errors ∨ id ∈ errorIds later.responseError := by
      rw [errorIds, List.map_append, List.mem_append]
      rfl
    refine ⟨⟨errors ++ later.responseError⟩, ?_, ?_, ?_⟩
    · simp only [addSession, run, answer, Option.map_some]
    · intro message member
      simp only [admitted, run]
      rw [split]
      rcases addRequest_ids run with ⟨passes, _, _⟩ | ⟨fails, _, refused⟩
      · rw [if_pos passes, List.mem_cons]
        rcases List.mem_cons.mp member with rfl | member
        · exact .inl (.inl rfl)
        · exact (covered message member).imp .inr .inr
      · rw [fails, if_neg Bool.false_ne_true]
        rcases List.mem_cons.mp member with rfl | member
        · exact .inr (.inl ((refused _).mpr rfl))
        · exact (covered message member).imp_right .inr
    · intro id member
      rcases (split id).mp member with now | after
      · rcases addRequest_ids run with ⟨_, rfl, _⟩ | ⟨_, _, refused⟩
        · cases now
        · exact ⟨_, List.mem_cons_self, ((refused id).mp now).symm⟩
      · obtain ⟨message, there, same⟩ := named id after
        exact ⟨message, List.mem_cons_of_mem _ there, same⟩

end SessionTableServicer

namespace Firewall

inductive Finish where
  | returned | raised
  deriving DecidableEq

/-- The device reads as many messages as there are times in `read` before the call ends. A
call that fails delivers no response: the handler only prints, and the first use of the
unbound addSessionResponse raises. `none` is an exception outside the call, while the
requests are built or the response is looked through. -/
def sessionAddSessions (type : SessionType) (draws : List Draw) (read : List Timestamp)
    (delivered : Bool) (fw : Firewall) (s : SessionTableServicer) :
    Option (Finish × Firewall × SessionTableServicer) := do
  let (newSessions, fw) ← newSessions type draws fw
  let (response, t) := s.addSession (read.zip newSessions)
  match if delivered then response else none with
  | none => some (.raised, fw, t)
  | some addSessionResponse => do
    let fw ← markFailed addSessionResponse.responseError fw
    some (.returned, fw, t)

def Backed (fw : Firewall) (s : SessionTableServicer) : Prop :=
  ∀ id, fw.Offloaded id → id ∈ s.deviceIds

end Firewall

section Calls
variable {type : SessionType} {draws : List Draw} {fw fw₁ : Firewall} {batch : List SessionRequest}

theorem mem_after (read : List Timestamp) (s : SessionTableServicer) (id : Nat) :
    id ∈ (s.addSession (read.zip batch)).2.deviceIds ↔
      id ∈ s.deviceIds ∨ id ∈ requestIds (s.admitted (read.zip batch)) := by
  rw [SessionTableServicer.deviceIds, SessionTableServicer.addSession_clientIds, List.map_append,
    List.mem_append, List.map_map]
  exact Iff.rfl

theorem admitted_new {read : List Timestamp} {s : SessionTableServicer} {r : SessionRequest}
    (member : r ∈ s.admitted (read.zip batch)) : r ∈ batch := by
  obtain ⟨timestamp, there⟩ := SessionTableServicer.admitted_read member
  exact (List.of_mem_zip there).2

theorem new_backed (built : newSessions type draws fw = some (batch, fw₁)) (read : List Timestamp)
    (s : SessionTableServicer) {r : SessionRequest} (member : r ∈ batch) :
    r.sessionId.toNat ∈ (s.addSession (read.zip batch)).2.deviceIds ↔
      r.sessionId.toNat ∈ s.deviceIds ∨ r ∈ s.admitted (read.zip batch) := by
  obtain ⟨distinct, _, _, _⟩ := newSessions_spec built
  rw [mem_after]
  apply or_congr_right
  constructor
  · intro there
    obtain ⟨q, admitted, same⟩ := List.mem_map.mp there
    cases List.inj_on_of_nodup_map distinct (admitted_new admitted) member same
    exact admitted
  · exact fun admitted => List.mem_map_of_mem admitted

theorem old_backed (built : newSessions type draws fw = some (batch, fw₁)) (read : List Timestamp)
    (s : SessionTableServicer) {id : Nat} (known : id ∈ fw.sessionTable.keys) :
    id ∈ (s.addSession (read.zip batch)).2.deviceIds ↔ id ∈ s.deviceIds := by
  obtain ⟨_, _, fresh, _⟩ := newSessions_spec built
  rw [mem_after]
  constructor
  · rintro (before | now)
    · exact before
    · obtain ⟨r, admitted, rfl⟩ := List.mem_map.mp now
      exact absurd known (fresh _ (List.mem_map_of_mem (admitted_new admitted)))
  · exact .inl

/-- For any tables, batch and part of it the device has read when the call fails:
session_addSessions raises, and what the firewall has marked is on the device exactly when
it was before and every new session is there already or was installed by the part read. -/
theorem failed_call_marks (built : newSessions type draws fw = some (batch, fw₁))
    (read : List Timestamp) (s : SessionTableServicer) :
    ∃ fw' t, sessionAddSessions type draws read false fw s = some (.raised, fw', t) ∧
      (Backed fw' t ↔ Backed fw s ∧
        ∀ r ∈ batch, r.sessionId.toNat ∈ s.deviceIds ∨ r ∈ s.admitted (read.zip batch)) := by
  obtain ⟨_, _, _, marked⟩ := newSessions_spec built
  refine ⟨fw₁, (s.addSession (read.zip batch)).2, ?_, ?_⟩
  · simp only [sessionAddSessions, built, Option.bind_eq_bind, Option.bind_some,
      Bool.false_eq_true, if_false]
  · constructor
    · intro backed
      constructor
      · intro id offloaded
        have there := backed id ((marked id).mpr (.inr offloaded))
        exact (old_backed built read s (offloaded_known offloaded)).mp there
      · intro r member
        have new : r.sessionId.toNat ∈ requestIds batch := List.mem_map_of_mem member
        exact (new_backed built read s member).mp (backed _ ((marked _).mpr (.inl new)))
    · rintro ⟨backed, installed⟩ id offloaded
      rcases (marked id).mp offloaded with new | old
      · obtain ⟨r, member, rfl⟩ := List.mem_map.mp new
        exact (new_backed built read s member).mpr (installed r member)
      · exact (old_backed built read s (offloaded_known old)).mpr (backed id old)

/-- A call that is answered takes back the marks of what was not installed. -/
theorem answered_call_marks (built : newSessions type draws fw = some (batch, fw₁))
    {read : List Timestamp} (whole : batch.length ≤ read.length) (s : SessionTableServicer) :
    ∃ fw' t, sessionAddSessions type draws read true fw s = some (.returned, fw', t) ∧
      (Backed fw' t ↔ Backed fw s) := by
  obtain ⟨_, shown, fresh, marked⟩ := newSessions_spec built
  have prints : ∀ message ∈ read.zip batch, printable message.2 = true :=
    fun message member => shown _ (List.of_mem_zip member).2
  obtain ⟨response, answer, covered, named⟩ := SessionTableServicer.addSession_answers prints s
  have own : ∀ id ∈ errorIds response.responseError, id ∈ requestIds batch := by
    intro id member
    obtain ⟨message, there, rfl⟩ := named id member
    exact List.mem_map_of_mem (List.of_mem_zip there).2
  obtain ⟨fw', taken⟩ := markFailed_defined fun id member =>
    offloaded_known ((marked id).mpr (.inl (own id member)))
  refine ⟨fw', (s.addSession (read.zip batch)).2, ?_, ?_⟩
  · simp only [sessionAddSessions, built, answer, taken, Option.bind_eq_bind, Option.bind_some,
      if_true]
  · constructor
    · intro backed id offloaded
      have known := offloaded_known offloaded
      have unnamed : id ∉ errorIds response.responseError :=
        fun member => fresh id (own id member) known
      have there := backed id
        ((markFailed_spec taken id).mpr ⟨(marked id).mpr (.inr offloaded), unnamed⟩)
      exact (old_backed built read s known).mp there
    · intro backed id offloaded
      obtain ⟨before, unnamed⟩ := (markFailed_spec taken id).mp offloaded
      rcases (marked id).mp before with new | old
      · obtain ⟨r, member, rfl⟩ := List.mem_map.mp new
        rw [← List.map_snd_zip whole] at member
        obtain ⟨message, there, rfl⟩ := List.mem_map.mp member
        have installed := (covered message there).resolve_right unnamed
        exact (new_backed built read s (admitted_new installed)).mpr (.inr installed)
      · exact (old_backed built read s (offloaded_known old)).mpr (backed id old)

end Calls

/-- The device reads the only message and takes the session before the call fails. -/
theorem failed_call_marks_read : ∃ batch fw fw' t,
    newSessions .ipv4 [zeroDraw] ⟨.empty, startSessionId⟩ = some (batch, fw) ∧
      sessionAddSessions .ipv4 [zeroDraw] [dawn] false ⟨.empty, startSessionId⟩ .simulator =
        some (.raised, fw', t) ∧
      (Backed fw' t ↔ Backed ⟨.empty, startSessionId⟩ .simulator ∧
        ∀ r ∈ batch, r.sessionId.toNat ∈ SessionTableServicer.simulator.deviceIds ∨
          r ∈ SessionTableServicer.simulator.admitted ([dawn].zip batch)) := by
  obtain ⟨fw', t, call⟩ := @failed_call_marks .ipv4 [zeroDraw] ⟨.empty, startSessionId⟩ _ _ rfl
    [dawn] .simulator
  exact ⟨_, _, fw', t, rfl, call⟩

/-- The device is not reached: nothing is on it, and the new session stays marked. -/
theorem failed_call_unbacked : ∃ fw t,
    sessionAddSessions .ipv4 [zeroDraw] [] false ⟨.empty, startSessionId⟩ .simulator =
        some (.raised, fw, t) ∧
      fw.Offloaded 1000 ∧ t.deviceIds = [] :=
  ⟨_, _, rfl, by decide, rfl⟩

end SessionOffload
