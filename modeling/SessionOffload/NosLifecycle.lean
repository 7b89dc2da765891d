import SessionOffload.NosRun

/-! The life of a session on the offload device: what its state, close code and times say
of each other, that it is not touched after it closed, and that a closed report hands out
exactly the closed sessions. -/
namespace SessionOffload
open Transition

structure OffloadSession.Sound (e : OffloadSession) : Prop where
  state : e.state = .established ∨ e.state = .closed
  code : e.state = .closed ↔ e.sessionCloseCode ≠ .notClosed
  ended : e.sessionCloseCode ≠ .notClosed ↔ e.endTime ≠ none
  started : e.startTime ≠ none

theorem new_sound (timestamp : Timestamp) (request : SessionRequest) :
    (newOffloadSession timestamp request).Sound := by
  constructor <;> simp [newOffloadSession]

theorem act_sound (session : OffloadSession) (action : SessionAction) (sound : session.Sound) :
    (session.act action).Sound := by
  cases action with
  | updateCounters inPackets inBytes outPackets outBytes =>
    exact ⟨sound.state, sound.code, sound.ended, sound.started⟩
  | noOp => exact sound
  | timeout timestamp => exact ⟨.inr rfl, by simp [OffloadSession.act],
      by simp [OffloadSession.act], sound.started⟩
  | clientFin timestamp => exact ⟨.inr rfl, by simp [OffloadSession.act],
      by simp [OffloadSession.act], sound.started⟩
  | serverFin timestamp => exact ⟨.inr rfl, by simp [OffloadSession.act],
      by simp [OffloadSession.act], sound.started⟩

theorem nosPath_sound {maxSessionId : Nat} {positive : 0 < maxSessionId}
    {ls : List (NosCall × NosReply)} {s : SessionTableServicer}
    (path : Path NosStep (.init maxSessionId positive) ls s) :
    ∀ e ∈ s.offloadSessionTable.values, e.Sound := by
  apply nosPath_values OffloadSession.Sound _ _ path
  · exact fun timestamp request _ => new_sound timestamp request
  · exact fun session action _ sound => act_sound session action sound

def Occupied (slot : Nat) (_ : SessionTableServicer) (_ : NosCall × NosReply)
    (t : SessionTableServicer) : Prop :=
  slot ∈ t.offloadSessionTable.keys

theorem effect_entry {s t : SessionTableServicer} {l : NosCall × NosReply}
    (effect : NosEffect s t l) {slot : Nat} {e : OffloadSession}
    (here : (slot, e) ∈ s.offloadSessionTable.entries)
    (occupied : slot ∈ t.offloadSessionTable.keys) :
    (slot, e) ∈ t.offloadSessionTable.entries ∨
      e.state ≠ .closed ∧ ∃ action, (slot, e.act action) ∈ t.offloadSessionTable.entries := by
  cases effect with
  | kept l table => exact .inl (table ▸ here)
  | installed timestamp request k shown absent room range free table =>
    rw [table, Dict.set_fresh free]
    exact .inl (List.mem_append_left _ here)
  | erased l k table =>
    rw [table] at occupied ⊢
    exact .inl (Dict.mem_erase.mpr ⟨here, (Dict.mem_keys_erase.mp occupied).2⟩)
  | traffic sessionAction table =>
    rw [table]
    by_cases ended : e.state = .closed
    · exact .inl (Dict.mem_mapValues.mpr ⟨e, here, if_pos ended⟩)
    · exact .inr ⟨ended, sessionAction slot, Dict.mem_mapValues.mpr ⟨e, here, if_neg ended⟩⟩

theorem path_frozen {s t : SessionTableServicer} {ls : List (NosCall × NosReply)} (inv : s.Inv)
    {slot : Nat} {e : OffloadSession} (path : Path (restrict NosStep (Occupied slot)) s ls t)
    (here : (slot, e) ∈ s.offloadSessionTable.entries) (ended : e.state = .closed) :
    (slot, e) ∈ t.offloadSessionTable.entries := by
  induction path with
  | nil => exact here
  | cons step _ ih =>
    rcases effect_entry (nosStep_effect inv step.1).1 here step.2 with kept | ⟨going, _⟩
    · exact ih (nosStep_inv inv step.1) kept
    · exact absurd ended going

structure Reports (e : OffloadSession) (r : TimedSessionResponse) : Prop where
  sessionId : r.sessionId = e.clientSessionId
  inPackets : r.inPackets.toNat = e.inPackets
  inBytes : r.inBytes.toNat = e.inBytes
  outPackets : r.outPackets.toNat = e.outPackets
  outBytes : r.outBytes.toNat = e.outBytes
  state : r.sessionState = e.state
  code : r.sessionCloseCode = e.sessionCloseCode
  startTime : r.startTime = e.startTime
  endTime : r.endTime = e.endTime

def OffloadSession.Fits (e : OffloadSession) : Prop :=
  e.inPackets < 18446744073709551616 ∧ e.inBytes < 18446744073709551616 ∧
    e.outPackets < 18446744073709551616 ∧ e.outBytes < 18446744073709551616

instance OffloadSession.decidableFits (e : OffloadSession) : Decidable e.Fits :=
  inferInstanceAs (Decidable (_ ∧ _ ∧ _ ∧ _))

theorem uint64_spec {n : Nat} {w : Word64} (fits : uint64 n = some w) :
    n < 18446744073709551616 ∧ w.toNat = n := by
  unfold uint64 at fits
  split at fits
  · next less =>
    cases Option.some.inj fits
    rw [BitVec.toNat_ofNat, Nat.mod_eq_of_lt less]
    exact ⟨less, rfl⟩
  · cases fits

theorem response_spec {e : OffloadSession} {r : TimedSessionResponse}
    (built : e.response e.clientSessionId = some r) : e.Fits ∧ Reports e r := by
  simp only [OffloadSession.response, Option.bind_eq_bind, Option.bind_eq_some_iff] at built
  obtain ⟨inPackets, h₁, inBytes, h₂, outPackets, h₃, outBytes, h₄, same⟩ := built
  cases Option.some.inj same
  obtain ⟨fits₁, value₁⟩ := uint64_spec h₁
  obtain ⟨fits₂, value₂⟩ := uint64_spec h₂
  obtain ⟨fits₃, value₃⟩ := uint64_spec h₃
  obtain ⟨fits₄, value₄⟩ := uint64_spec h₄
  exact ⟨⟨fits₁, fits₂, fits₃, fits₄⟩, rfl, value₁, value₂, value₃, value₄, rfl, rfl, rfl, rfl⟩

theorem response_built {e : OffloadSession} (fits : e.Fits) (sessionId : Word64) :
    ∃ r, e.response sessionId = some r := by
  obtain ⟨h₁, h₂, h₃, h₄⟩ := fits
  simp [OffloadSession.response, uint64, h₁, h₂, h₃, h₄]

section Closing
variable {s : SessionTableServicer}

def closedAt (s : SessionTableServicer) (slot : Nat) : Option OffloadSession :=
  (s.offloadSessionTable.get? slot).filter (fun e => e.state = .closed)

theorem erase_closedAt {slot : Nat} {slots : List Nat} (other : slot ∉ slots) :
    slots.filterMap (closedAt { s with
      offloadSessionTable := s.offloadSessionTable.erase slot }) =
      slots.filterMap (closedAt s) := by
  apply List.filterMap_congr
  intro k member
  have differ : k ≠ slot := fun same => other (same ▸ member)
  rw [closedAt, closedAt, Dict.get?_erase differ]

theorem reportLoop_spec (slots : List Nat) (s : SessionTableServicer) (once : slots.Nodup)
    (completed : (SessionTableServicer.closedLoop slots s).completed = true) :
    List.Forall₂ Reports (slots.filterMap (closedAt s))
        (SessionTableServicer.closedLoop slots s).responses ∧
      (SessionTableServicer.closedLoop slots s).server.offloadSessionTable.entries =
        s.offloadSessionTable.entries.filter
          (fun e => ¬ (e.1 ∈ slots ∧ e.2.state = .closed)) := by
  induction slots generalizing s with
  | nil => exact ⟨.nil, by simp [SessionTableServicer.closedLoop]⟩
  | cons slot slots ih =>
    obtain ⟨fresh, once⟩ := List.nodup_cons.mp once
    rw [SessionTableServicer.closedLoop] at completed ⊢
    rcases closedTurn_cases s slot with ⟨_, run⟩ | ⟨e, found, ⟨opened, run⟩ | ⟨ended, run⟩⟩
    · simp only [run] at completed
      cases completed
    · simp only [run] at completed ⊢
      obtain ⟨reports, left⟩ := ih s once completed
      have none : closedAt s slot = none := by simp [closedAt, found, opened]
      rw [List.filterMap_cons_none none]
      refine ⟨reports, left.trans (List.filter_congr fun f member => ?_)⟩
      have other : f.1 = slot → f.2.state ≠ .closed :=
        fun same => Dict.value_unique found member same ▸ opened
      simp only [List.mem_cons, decide_eq_decide]
      exact not_congr ⟨fun h => ⟨.inr h.1, h.2⟩,
        fun h => ⟨h.1.resolve_left fun same => other same h.2, h.2⟩⟩
    · cases built : e.response e.clientSessionId with
      | none =>
        simp only [run, built, Option.map_none, Option.getD_none] at completed
        cases completed
      | some r =>
        simp only [run, built, Option.map_some, Option.getD_some] at completed ⊢
        obtain ⟨reports, left⟩ := ih _ once completed
        have one : closedAt s slot = some e := by simp [closedAt, found, ended]
        rw [List.filterMap_cons_some one]
        rw [erase_closedAt fresh] at reports
        refine ⟨.cons (response_spec built).2 reports, left.trans ?_⟩
        rw [Dict.erase, List.filter_filter]
        apply List.filter_congr
        intro f member
        have value : f.1 = slot → f.2.state = .closed :=
          fun same => Dict.value_unique found member same ▸ ended
        by_cases same : f.1 = slot
        · simp [same, value same]
        · simp [same]

theorem closedAt_keys (s : SessionTableServicer) :
    s.offloadSessionTable.keys.filterMap (closedAt s) =
      s.offloadSessionTable.values.filter (fun e => e.state = .closed) := by
  rw [Dict.keys, Dict.values, List.filterMap_map, List.filter_map, ← List.filterMap_eq_filter,
    List.map_filterMap]
  apply List.filterMap_congr
  intro e member
  have found := Dict.get?_eq_some_iff.mpr member
  by_cases ended : e.2.state = .closed
  · simp [closedAt, found, ended, Option.guard]
  · simp [closedAt, found, ended, Option.guard]

/-- Only a counter that does not fit ends a report early. -/
theorem reportLoop_completed (slots : List Nat) (s : SessionTableServicer) (once : slots.Nodup)
    (occupied : ∀ slot ∈ slots, slot ∈ s.offloadSessionTable.keys)
    (fits : ∀ e ∈ slots.filterMap (closedAt s), e.Fits) :
    (SessionTableServicer.closedLoop slots s).completed = true := by
  induction slots generalizing s with
  | nil => rfl
  | cons slot slots ih =>
    obtain ⟨fresh, once⟩ := List.nodup_cons.mp once
    have later : ∀ k ∈ slots, k ∈ s.offloadSessionTable.keys :=
      fun k member => occupied k (List.mem_cons_of_mem _ member)
    rw [SessionTableServicer.closedLoop]
    rcases closedTurn_cases s slot with ⟨gone, _⟩ | ⟨e, found, ⟨opened, run⟩ | ⟨ended, run⟩⟩
    · exact absurd (occupied slot List.mem_cons_self) (Dict.get?_eq_none_iff.mp gone)
    · have none : closedAt s slot = none := by simp [closedAt, found, opened]
      rw [List.filterMap_cons_none none] at fits
      simp only [run]
      exact ih s once later fits
    · have one : closedAt s slot = some e := by simp [closedAt, found, ended]
      rw [List.filterMap_cons_some one] at fits
      obtain ⟨r, built⟩ := response_built (fits e List.mem_cons_self) e.clientSessionId
      simp only [run, built, Option.map_some, Option.getD_some]
      apply ih _ once
      · intro k member
        have differ : k ≠ slot := fun same => fresh (same ▸ member)
        exact Dict.mem_keys_erase.mpr ⟨later k member, differ⟩
      · rw [erase_closedAt fresh]
        exact fun f member => fits f (List.mem_cons_of_mem _ member)

end Closing

theorem nosClosedSessions_spec {s : SessionTableServicer}
    (completed : s.getClosedSessions.completed = true) :
    List.Forall₂ Reports
        (s.offloadSessionTable.values.filter (fun e => e.state = .closed))
        s.getClosedSessions.responses ∧
      s.getClosedSessions.server.offloadSessionTable.entries =
        s.offloadSessionTable.entries.filter (fun e => e.2.state ≠ .closed) := by
  obtain ⟨reports, left⟩ := reportLoop_spec s.offloadSessionTable.keys s
    s.offloadSessionTable.keys_nodup completed
  rw [closedAt_keys] at reports
  refine ⟨reports, left.trans (List.filter_congr fun e member => ?_)⟩
  have known : e.1 ∈ s.offloadSessionTable.keys := Dict.mem_keys.mpr ⟨e.2, member⟩
  simp [known]

theorem nosClosedSessions_completed {s : SessionTableServicer}
    (fits : ∀ e ∈ s.offloadSessionTable.values, e.state = .closed → e.Fits) :
    s.getClosedSessions.completed = true := by
  apply reportLoop_completed _ s s.offloadSessionTable.keys_nodup (fun _ member => member)
  rw [closedAt_keys]
  intro e member
  obtain ⟨stored, ended⟩ := List.mem_filter.mp member
  exact fits e stored (of_decide_eq_true ended)

/-- In every reachable state: the entries are sound, a closed entry stays as it is for as
long as its slot is occupied, and a report that is read to its end says of each closed
entry what the entry says, in the order of the table, and removes exactly those. -/
theorem nos_lifecycle (maxSessionId : Nat) (positive : 0 < maxSessionId)
    (ls : List (NosCall × NosReply)) (s : SessionTableServicer)
    (path : Path NosStep (.init maxSessionId positive) ls s) :
    (∀ e ∈ s.offloadSessionTable.values, e.Sound) ∧
    (∀ slot e, s.offloadSessionTable.get? slot = some e → e.state = .closed →
      ∀ ms t, Path (restrict NosStep (Occupied slot)) s ms t →
        t.offloadSessionTable.get? slot = some e) ∧
    (s.getClosedSessions.completed = true →
      List.Forall₂ Reports
          (s.offloadSessionTable.values.filter (fun e => e.state = .closed))
          s.getClosedSessions.responses ∧
        s.getClosedSessions.server.offloadSessionTable.entries =
          s.offloadSessionTable.entries.filter (fun e => e.2.state ≠ .closed)) := by
  refine ⟨nosPath_sound path, ?_, nosClosedSessions_spec⟩
  intro slot e found ended ms t later
  have here := Dict.get?_eq_some_iff.mp found
  exact Dict.get?_eq_some_iff.mpr (path_frozen (nosPath_inv path) later here ended)

def dawn : Timestamp := ⟨1600000000, 0⟩

def numbered (i : Nat) : SessionRequest :=
  { SessionRequest.empty with sessionId := BitVec.ofNat 64 i, sourcePort := BitVec.ofNat 32 i }

def threeSessions : SessionTableServicer :=
  (SessionTableServicer.simulator.addSession ((List.range 3).map fun i => (dawn, numbered i))).2

theorem nos_lifecycle_timeout : ∃ s ls, Path NosStep .simulator ls s ∧
    s.offloadSessionTable.get? 1 = some { newOffloadSession dawn .empty with
      state := .closed, sessionCloseCode := .timeout, endTime := some dawn } ∧
    s.getClosedSessions.completed = true ∧
    ∀ e ∈ s.offloadSessionTable.values, e.Sound := by
  have path : Path NosStep .simulator
      [(.add dawn .empty, .add (some [])), (.traffic (fun _ => .timeout dawn), .traffic)] _ :=
    .cons rfl (.single rfl)
  exact ⟨_, _, path, rfl, rfl, (nos_lifecycle 20 (by decide) _ _ path).1⟩

end SessionOffload
