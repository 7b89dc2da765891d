import SessionOffload.NosLifecycle
import SessionOffload.Lib.Watch
import SessionOffload.Lib.Paging

/-! The counters of a session over the messages the device sends for it, from the first
getSession to the message that comes with its removal. -/
namespace SessionOffload
open Transition Paging

abbrev Totals := Nat × Nat × Nat × Nat

def OffloadSession.totals (e : OffloadSession) : Totals :=
  (e.inPackets, e.inBytes, e.outPackets, e.outBytes)

def TimedSessionResponse.totals (r : TimedSessionResponse) : Totals :=
  (r.inPackets.toNat, r.inBytes.toNat, r.outPackets.toNat, r.outBytes.toNat)

namespace SessionTableServicer

def pageIndices (request : SessionRequestArgs) (s : SessionTableServicer) : List Nat :=
  let (startIndex, endIndex) := pageBounds request s.offloadSessionTable.entries.length
  List.range' startIndex.toNat (endIndex + 1 - startIndex).toNat

/-- The messages of a step about the session of a slot. An error of getSession reaches the
client as a status without a message. -/
def told (slot : Nat) (s : SessionTableServicer) : NosCall × NosReply → List TimedSessionResponse
  | (.get sessionId, .get status response) =>
    if status = .OK ∧ (s.findSessionByClientId sessionId).map Prod.fst = some slot then [response]
    else []
  | (.del _ sessionId, .del response) =>
    if (s.findSessionByClientId sessionId).map Prod.fst = some slot then [response] else []
  | (.closed k, .closed (.yielded response)) => if k = slot then [response] else []
  | (.list request, .list (some responses)) =>
    ((s.pageIndices request).zip responses.sessionInfo).filterMap fun (x, response) =>
      if (s.offloadSessionTable.entries[x]?).map Prod.fst = some slot then some response else none
  | _ => []

def totalsAt (slot : Nat) (s : SessionTableServicer) : Totals :=
  ((s.offloadSessionTable.get? slot).map OffloadSession.totals).getD 0

end SessionTableServicer

open SessionTableServicer

/-- Each message states no less than the ones before it, and the last one, where the session
is removed, what the session has counted. -/
def Accounted (slot : Nat) (messages : List TimedSessionResponse)
    (last : Option (SessionTableServicer × (NosCall × NosReply))) : Prop :=
  (messages.map TimedSessionResponse.totals).Pairwise (· ≤ ·) ∧
    ∀ s l, last = some (s, l) →
      (messages.map TimedSessionResponse.totals).getLast? = some (s.totalsAt slot)

/-- A deleteSession removes the session only before it has counted anything, and a closed
report only while its counters fit their fields. -/
def Settled (slot : Nat) : Option (SessionTableServicer × (NosCall × NosReply)) → Prop
  | some (s, .del _ _, _) => s.totalsAt slot = 0
  | some (s, .closed _, _) => ∀ e, s.offloadSessionTable.get? slot = some e → e.Fits
  | _ => True

abbrev Seated (slot : Nat) (s : SessionTableServicer) : Prop :=
  slot ∈ s.offloadSessionTable.keys

abbrev SessionWatch (slot : Nat) := Watch NosStep (Seated slot) (told slot)

theorem act_totals (session : OffloadSession) (action : SessionAction) :
    session.totals ≤ (session.act action).totals := by
  cases action with
  | updateCounters inPackets inBytes outPackets outBytes =>
    exact ⟨Nat.le_add_right _ _, Nat.le_add_right _ _, Nat.le_add_right _ _, Nat.le_add_right _ _⟩
  | noOp => exact le_rfl
  | timeout timestamp => exact le_rfl
  | clientFin timestamp => exact le_rfl
  | serverFin timestamp => exact le_rfl

theorem reports_totals {e : OffloadSession} {r : TimedSessionResponse} (reports : Reports e r) :
    r.totals = e.totals := by
  simp only [TimedSessionResponse.totals, OffloadSession.totals, reports.inPackets,
    reports.inBytes, reports.outPackets, reports.outBytes]

theorem fits_of_totals {e : OffloadSession} {r : TimedSessionResponse}
    (same : r.totals = e.totals) : e.Fits := by
  simp only [TimedSessionResponse.totals, OffloadSession.totals, Prod.mk.injEq] at same
  obtain ⟨h₁, h₂, h₃, h₄⟩ := same
  exact ⟨h₁ ▸ r.inPackets.isLt, h₂ ▸ r.inBytes.isLt, h₃ ▸ r.outPackets.isLt, h₄ ▸ r.outBytes.isLt⟩

section Steps
variable {s t : SessionTableServicer} {l : NosCall × NosReply} {slot : Nat} {e : OffloadSession}

theorem totalsAt_entry (here : (slot, e) ∈ s.offloadSessionTable.entries) :
    s.totalsAt slot = e.totals := by
  rw [totalsAt, Dict.get?_eq_some_iff.mpr here]
  rfl

theorem totals_rise (inv : s.Inv) (here : slot ∈ s.offloadSessionTable.keys)
    (step : NosStep s l t) (there : slot ∈ t.offloadSessionTable.keys) :
    s.totalsAt slot ≤ t.totalsAt slot := by
  obtain ⟨e, stored⟩ := Dict.mem_keys.mp here
  rw [totalsAt_entry stored]
  rcases effect_entry (nosStep_effect inv step).1 stored there with kept | ⟨_, action, moved⟩
  · exact (totalsAt_entry kept).ge
  · rw [totalsAt_entry moved]
    exact act_totals e action

theorem found_entry (here : (slot, e) ∈ s.offloadSessionTable.entries) {sessionId : Word64}
    (found : (s.findSessionByClientId sessionId).map Prod.fst = some slot) :
    s.findSessionByClientId sessionId = some (slot, e) ∧ e.clientSessionId = sessionId := by
  obtain ⟨⟨k, f⟩, hit, same⟩ := Option.map_eq_some_iff.mp found
  have stored := List.mem_of_find?_eq_some hit
  cases (same : k = slot)
  cases Dict.entry_unique stored here
  exact ⟨hit, by simpa using List.find?_some hit⟩

theorem getSession_told (here : (slot, e) ∈ s.offloadSessionTable.entries) {sessionId : Word64}
    (found : (s.findSessionByClientId sessionId).map Prod.fst = some slot)
    (ok : (s.getSession sessionId).1 = .OK) : (s.getSession sessionId).2.totals = e.totals := by
  obtain ⟨hit, rfl⟩ := found_entry here found
  cases built : e.response e.clientSessionId with
  | none =>
    simp only [getSession, hit, built] at ok
    cases ok
  | some r =>
    simp only [getSession, hit, built]
    exact reports_totals (response_spec built).2

theorem page_told (here : (slot, e) ∈ s.offloadSessionTable.entries)
    {request : SessionRequestArgs} {responses : TimedSessionResponses}
    (page : s.getAllSessions request = some responses) {x : Nat} {r : TimedSessionResponse}
    (listed : (x, r) ∈ (s.pageIndices request).zip responses.sessionInfo)
    (at_slot : (s.offloadSessionTable.entries[x]?).map Prod.fst = some slot) :
    r.totals = e.totals := by
  simp only [getAllSessions, Option.bind_eq_bind, Option.bind_eq_some_iff] at page
  obtain ⟨sessionInfo, built, same⟩ := page
  cases Option.some.inj same
  have each : s.sessionInfoAt x = some r := List.forall₂_zip (mapM_some_iff.mp built) listed
  obtain ⟨⟨k, f⟩, entry, same⟩ := Option.map_eq_some_iff.mp at_slot
  cases (same : k = slot)
  cases Dict.entry_unique (List.mem_of_getElem? entry) here
  simp only [sessionInfoAt, entry, Option.bind_eq_bind, Option.bind_some] at each
  exact reports_totals (response_spec each).2

theorem deleted_told (timestamp : Timestamp) (sessionId : Word64) :
    (s.deleteSession timestamp sessionId).1.totals = 0 := by
  unfold deleteSession
  split
  · split <;> rfl
  · rfl

theorem told_states (inv : s.Inv) (here : slot ∈ s.offloadSessionTable.keys) (step : NosStep s l t)
    (there : slot ∈ t.offloadSessionTable.keys) {r : TimedSessionResponse}
    (member : r ∈ s.told slot l) : r.totals = s.totalsAt slot := by
  obtain ⟨e, stored⟩ := Dict.mem_keys.mp here
  rw [totalsAt_entry stored]
  cases nosStep_turn inv step with
  | got sessionId =>
    simp only [told, List.mem_ite_nil_right, List.mem_singleton] at member
    obtain ⟨⟨ok, found⟩, rfl⟩ := member
    exact getSession_told stored found ok
  | deleted timestamp found =>
    simp only [told, found, List.mem_ite_nil_right] at member
    have same := Option.some.inj member.1
    exact absurd same.symm (Dict.mem_keys_erase.mp there).2
  | unknown timestamp absent =>
    simp only [told, absent, List.mem_ite_nil_right] at member
    cases member.1
  | @handed k session found ended =>
    have differ : slot ≠ k := (Dict.mem_keys_erase.mp there).2
    cases built : session.response session.clientSessionId with
    | none =>
      rw [built] at member
      cases member
    | some response =>
      rw [built] at member
      have same := (List.mem_ite_nil_right.mp member).1
      exact absurd same.symm differ
  | listed request =>
    cases page : s.getAllSessions request with
    | none =>
      rw [page] at member
      cases member
    | some responses =>
      rw [page] at member
      simp only [told, List.mem_filterMap] at member
      obtain ⟨⟨x, response⟩, listed, picked⟩ := member
      split at picked
      · next found =>
        cases Option.some.inj picked
        exact page_told stored page listed found
      · cases picked
  | _ => cases member

/-- A session is removed by a deleteSession, with a message that states no counters, or by a
closed report, whose message is lost where it cannot be built. -/
theorem told_removal (inv : s.Inv) (here : (slot, e) ∈ s.offloadSessionTable.entries)
    (step : NosStep s l t) (gone : slot ∉ t.offloadSessionTable.keys) :
    (∃ timestamp sessionId response, l = (.del timestamp sessionId, .del response) ∧
      s.told slot l = [response] ∧ response.totals = 0) ∨
    (∃ turn, l = (.closed slot, .closed turn) ∧
      s.told slot l = (e.response e.clientSessionId).toList) := by
  have known : slot ∈ s.offloadSessionTable.keys := Dict.mem_keys.mpr ⟨e, here⟩
  have erased {k : Nat} (away : slot ∉ (s.offloadSessionTable.erase k).keys) : slot = k := by
    by_contra differ
    exact away (Dict.mem_keys_erase.mpr ⟨known, differ⟩)
  cases nosStep_turn inv step with
  | installed timestamp _ _ _ _ _ => exact absurd (Dict.mem_keys_set.mpr (.inr known)) gone
  | traffic sessionAction =>
    rw [simulateSessionsTraffic, Dict.keys_mapValues] at gone
    exact absurd known gone
  | deleted timestamp found =>
    left
    refine ⟨timestamp, _, _, rfl, ?_, deleted_told timestamp _⟩
    simp only [told, found, Option.map_some, erased gone, if_true]
  | @handed k session found ended =>
    right
    cases erased gone
    cases Dict.entry_unique (Dict.get?_eq_some_iff.mp found) here
    refine ⟨_, rfl, ?_⟩
    cases e.response e.clientSessionId with
    | none => rfl
    | some r => exact if_pos rfl
  | _ => exact absurd known gone

end Steps

def totalsMeter (slot : Nat) : Meter NosStep (Seated slot) (told slot) Totals where
  Inv := SessionTableServicer.Inv
  level := totalsAt slot
  stated := TimedSessionResponse.totals
  keeps := nosStep_inv
  rises := totals_rise
  states := told_states

section Ends
variable {u : SessionTableServicer} {slot : Nat} {e : OffloadSession}
  {messages : List TimedSessionResponse}

theorem accounted_snoc {l : NosCall × NosReply} {r : TimedSessionResponse}
    (sorted : (messages.map TimedSessionResponse.totals).Pairwise (· ≤ ·))
    (below : ∀ m ∈ messages, m.totals ≤ u.totalsAt slot) :
    Accounted slot (messages ++ [r]) (some (u, l)) ↔ r.totals = u.totalsAt slot := by
  have ends : ((messages ++ [r]).map TimedSessionResponse.totals).getLast? = some r.totals := by
    rw [List.map_append, List.map_singleton, List.getLast?_concat]
  constructor
  · intro accounted
    have final := accounted.2 u l rfl
    rw [ends] at final
    exact Option.some.inj final
  · intro same
    constructor
    · rw [List.map_append, List.map_singleton, List.pairwise_append]
      refine ⟨sorted, List.pairwise_singleton _ _, fun a earlier b final => ?_⟩
      obtain ⟨m, member, rfl⟩ := List.mem_map.mp earlier
      rw [List.mem_singleton.mp final, same]
      exact below m member
    · intro v k removed
      cases removed
      rw [ends, same]

theorem unfit_unaccounted (here : (slot, e) ∈ u.offloadSessionTable.entries) (unfit : ¬ e.Fits)
    (l : NosCall × NosReply) : ¬ Accounted slot messages (some (u, l)) := by
  intro accounted
  have final := accounted.2 u l rfl
  rw [totalsAt_entry here] at final
  obtain ⟨m, _, same⟩ := List.mem_map.mp (List.mem_of_getLast? final)
  exact unfit (fits_of_totals same)

end Ends

/-- For every session of every run of the simulator: its counters never fall from message to
message, with the final one at its totals, if and only if a deleteSession does not remove it
after it has counted, nor a closed report after a counter has outgrown its field. -/
theorem accounts_exact (maxSessionId : Nat) (positive : 0 < maxSessionId)
    (ls : List (NosCall × NosReply)) (s : SessionTableServicer)
    (path : Path NosStep (.init maxSessionId positive) ls s) (slot : Nat)
    (occupied : slot ∈ s.offloadSessionTable.keys) (messages : List TimedSessionResponse)
    (last : Option (SessionTableServicer × (NosCall × NosReply)))
    (watch : SessionWatch slot s messages last) :
    Accounted slot messages last ↔ Settled slot last := by
  cases watch with
  | stays stay =>
    obtain ⟨_, sorted, _⟩ := stay.metered (totalsMeter slot) (nosPath_inv path) occupied
    exact ⟨fun _ => trivial, fun _ => ⟨sorted, fun _ _ removed => by cases removed⟩⟩
  | @goes told_before u v l stay step gone =>
    obtain ⟨⟨inv, stands, _⟩, sorted, between⟩ :=
      stay.metered (totalsMeter slot) (nosPath_inv path) occupied
    have below : ∀ m ∈ told_before, m.totals ≤ u.totalsAt slot := fun m member =>
      (between m member).2
    obtain ⟨e, here⟩ := Dict.mem_keys.mp stands
    rcases told_removal inv here step gone with
      ⟨timestamp, sessionId, response, rfl, told, zero⟩ | ⟨turn, rfl, told⟩
    · rw [told, accounted_snoc sorted below, zero, Settled]
      exact eq_comm
    · have settled : Settled slot (some (u, .closed slot, .closed turn)) ↔ e.Fits := by
        rw [Settled, Dict.get?_eq_some_iff.mpr here]
        simp
      rw [settled, told]
      cases built : e.response e.clientSessionId with
      | some r =>
        obtain ⟨fits, reports⟩ := response_spec built
        rw [Option.toList_some, accounted_snoc sorted below, totalsAt_entry here]
        exact iff_of_true (reports_totals reports) fits
      | none =>
        have unfit : ¬ e.Fits := by
          intro fits
          obtain ⟨r, answer⟩ := response_built fits e.clientSessionId
          rw [built] at answer
          cases answer
        exact iff_of_false (unfit_unaccounted here unfit _) unfit

def countingSession : SessionTableServicer :=
  SessionTableServicer.simulator.installed 1 dawn .empty

def counted : SessionTableServicer :=
  countingSession.simulateSessionsTraffic fun _ => .updateCounters 5 50 7 70

def asked : TimedSessionResponse := (counted.getSession 0#64).2

theorem counted_stay : Stay NosStep (Seated 1) (told 1) countingSession [asked] counted := by
  have seated : Seated 1 counted := by decide
  have pass : NosStep countingSession
      (.traffic fun _ => .updateCounters 5 50 7 70, .traffic) counted := rfl
  have get : NosStep counted (.get 0#64, .get .OK asked) counted := rfl
  exact .cons pass seated (.cons get seated (.nil counted))

theorem accounts_exact_closed : ∃ messages last,
    SessionWatch 1 countingSession messages last ∧
      messages.map TimedSessionResponse.totals = [(5, 50, 7, 70), (5, 50, 7, 70)] ∧
      (Accounted 1 messages last ↔ Settled 1 last) := by
  have path : Path NosStep .simulator [(.add dawn .empty, .add (some []))] countingSession :=
    .single rfl
  have seated : Seated 1 counted := by decide
  have timeout : NosStep counted (.traffic fun _ => .timeout dawn, .traffic)
      (counted.simulateSessionsTraffic fun _ => .timeout dawn) := rfl
  have report : NosStep (counted.simulateSessionsTraffic fun _ => .timeout dawn)
      (.closed 1, .closed (.yielded { asked with
        sessionState := .closed, sessionCloseCode := .timeout, endTime := some dawn }))
      ⟨1, 20, by decide, .empty⟩ := rfl
  have watch : SessionWatch 1 countingSession _ _ :=
    .goes (counted_stay.append (.cons timeout seated (.nil _))) report (by decide)
  exact ⟨_, _, watch, rfl, accounts_exact 20 (by decide) _ _ path 1 (by decide) _ _ watch⟩

/-- The session is deleted after it has been seen to count: the last message says zero. -/
theorem deleted_uncounted : ∃ messages last, SessionWatch 1 countingSession messages last ∧
    messages.map TimedSessionResponse.totals = [(5, 50, 7, 70), (0, 0, 0, 0)] ∧
      ¬ Accounted 1 messages last := by
  have delete : NosStep counted (.del dawn 0#64, .del (counted.deleteSession dawn 0#64).1)
      (counted.deleteSession dawn 0#64).2 := rfl
  have watch : SessionWatch 1 countingSession _ _ := .goes counted_stay delete (by decide)
  refine ⟨_, _, watch, rfl, ?_⟩
  rintro ⟨sorted, _⟩
  exact absurd sorted (by decide)

end SessionOffload
