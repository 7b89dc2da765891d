import SessionOffload.NosLifecycle

/-! Slots of the offload device: the search of nextSessionId goes round the slots from any
place the counter can be left at. -/
namespace SessionOffload
open Transition

namespace SessionTableServicer

/-- nextSessionId as it is written, with a bound on its iterations: `cnt` counts them apart
from the position, and -1 is none. -/
def nextSessionIdLoop (maxSessionId : Nat) (occupied : List Nat) :
    Nat → Nat → Nat → Option (Option Nat × Nat)
  | 0, _, _ => none
  | fuel + 1, cnt, lastSessionId =>
    let cnt := cnt + 1
    if cnt = maxSessionId then some (none, lastSessionId)
    else
      let lastSessionId := if lastSessionId = maxSessionId then 1 else lastSessionId
      if lastSessionId ∈ occupied then
        nextSessionIdLoop maxSessionId occupied fuel cnt (lastSessionId + 1)
      else some (some lastSessionId, lastSessionId)

theorem nextSessionIdLoop_probe {maxSessionId : Nat} (occupied : List Nat)
    (turns cnt lastSessionId : Nat) (left : cnt + turns + 1 = maxSessionId) :
    nextSessionIdLoop maxSessionId occupied (turns + 1) cnt lastSessionId =
      some (probe maxSessionId occupied turns lastSessionId) := by
  induction turns generalizing cnt lastSessionId with
  | zero =>
    rw [nextSessionIdLoop, if_pos left]
    rfl
  | succ turns ih =>
    have going : cnt + 1 ≠ maxSessionId := by omega
    rw [nextSessionIdLoop, if_neg going, probe]
    generalize (if lastSessionId = maxSessionId then 1 else lastSessionId) = slot
    by_cases taken : slot ∈ occupied
    · simp only [if_pos taken]
      exact ih (cnt + 1) (slot + 1) (by omega)
    · simp only [if_neg taken]

variable {s : SessionTableServicer}

theorem nextSessionId_terminates (s : SessionTableServicer) :
    nextSessionIdLoop s.maxSessionId s.offloadSessionTable.keys s.maxSessionId 0 s.lastSessionId =
      some (s.nextSessionId.1, s.nextSessionId.2.lastSessionId) := by
  have positive := s.positive
  have bound : s.maxSessionId = s.maxSessionId - 1 + 1 := by omega
  have run := nextSessionIdLoop_probe s.offloadSessionTable.keys (s.maxSessionId - 1) 0
    s.lastSessionId (show 0 + (s.maxSessionId - 1) + 1 = s.maxSessionId by omega)
  rw [← bound] at run
  exact run

theorem crowded_iff (s : SessionTableServicer) :
    ¬ s.Roomy ↔ ∀ slot, 1 ≤ slot → slot < s.maxSessionId → slot ∈ s.offloadSessionTable.keys := by
  unfold Roomy
  push Not
  rfl

theorem accepted_apart {timestamp : Timestamp} {request : SessionRequest}
    {t : SessionTableServicer} (run : s.addRequest timestamp request = some ([], t)) :
    ∃ slot, s.offloadSessionTable.get? slot = none ∧
      t.offloadSessionTable.get? slot = some (newOffloadSession timestamp request) ∧
      ∀ other, other ≠ slot →
        t.offloadSessionTable.get? other = s.offloadSessionTable.get? other := by
  rcases addRequest_admits run with ⟨_, _, slot, free, rfl⟩ | ⟨_, _, some, _⟩
  · refine ⟨slot, Dict.get?_eq_none_iff.mpr free, ?_, fun other differs => ?_⟩
    · exact Dict.get?_set.trans (if_pos rfl)
    · exact Dict.get?_set.trans (if_neg differs)
  · exact absurd rfl some

end SessionTableServicer

theorem nosPath_max {maxSessionId : Nat} {positive : 0 < maxSessionId}
    {ls : List (NosCall × NosReply)} {s : SessionTableServicer}
    (path : Path NosStep (.init maxSessionId positive) ls s) : s.maxSessionId = maxSessionId := by
  have both := path.invariant (fun s => s.Inv ∧ s.maxSessionId = maxSessionId)
    (fun _ _ _ held step => ⟨nosStep_inv held.1 step,
      (nosStep_effect held.1 step).2.1.trans held.2⟩)
    ⟨SessionTableServicer.init_inv maxSessionId positive, rfl⟩
  exact both.2

/-- In every reachable state the counter and the slots are in their ranges, the search ends
within as many iterations as the maximum, fails when every slot is taken and otherwise
finds a free one, so that an accepted session overwrites no other. -/
theorem slots_allocated {maxSessionId : Nat} {positive : 0 < maxSessionId}
    {ls : List (NosCall × NosReply)} {s : SessionTableServicer}
    (path : Path NosStep (.init maxSessionId positive) ls s) :
    (1 ≤ s.lastSessionId ∧ s.lastSessionId ≤ maxSessionId) ∧
    (∀ slot ∈ s.offloadSessionTable.keys, 1 ≤ slot ∧ slot ≤ maxSessionId - 1) ∧
    SessionTableServicer.nextSessionIdLoop maxSessionId s.offloadSessionTable.keys maxSessionId 0
      s.lastSessionId = some (s.nextSessionId.1, s.nextSessionId.2.lastSessionId) ∧
    (s.nextSessionId.1 = none ↔
      ∀ slot, 1 ≤ slot → slot ≤ maxSessionId - 1 → slot ∈ s.offloadSessionTable.keys) ∧
    (∀ slot, s.nextSessionId.1 = some slot →
      1 ≤ slot ∧ slot ≤ maxSessionId - 1 ∧ slot ∉ s.offloadSessionTable.keys) ∧
    ∀ timestamp request t, s.addRequest timestamp request = some ([], t) →
      ∃ slot, s.offloadSessionTable.get? slot = none ∧
        t.offloadSessionTable.get? slot = some (newOffloadSession timestamp request) ∧
        ∀ other, other ≠ slot →
          t.offloadSessionTable.get? other = s.offloadSessionTable.get? other := by
  have inv := nosPath_inv path
  have max := nosPath_max path
  have terminates := s.nextSessionId_terminates
  obtain ⟨⟨_, free⟩, full⟩ := SessionTableServicer.nextSessionId_spec inv
  have last := inv.last
  have slots := inv.slots
  have crowded := s.crowded_iff
  rw [max] at terminates free last slots crowded
  refine ⟨last, fun slot occupied => ?_, terminates, ?_, fun slot found => ?_,
    fun _ _ _ run => SessionTableServicer.accepted_apart run⟩
  · have range := slots slot occupied
    omega
  · rw [full, crowded]
    constructor
    · exact fun all slot low high => all slot low (by omega)
    · exact fun all slot low high => all slot low (by omega)
  · obtain ⟨low, high, fresh⟩ := free slot found
    exact ⟨low, by omega, fresh⟩

/-- Three slots are taken and a fourth request refused; then one of the slots is given up. -/
theorem slots_allocated_refilled : ∃ resp s t,
    Path NosStep (.init 4 (by decide)) [(.add dawn (numbered 0), .add (some [])),
      (.add dawn (numbered 1), .add (some [])), (.add dawn (numbered 2), .add (some [])),
      (.add dawn (numbered 3), .add (some [⟨3#64, 2⟩]))] s ∧
    s.nextSessionId.1 = none ∧ Path NosStep s [(.del dawn 1#64, .del resp)] t ∧
    t.offloadSessionTable.keys = [1, 3] ∧ t.nextSessionId.1 = some 2 := by
  have run : ∃ resp s t,
      Path NosStep (.init 4 (by decide)) [(.add dawn (numbered 0), .add (some [])),
        (.add dawn (numbered 1), .add (some [])), (.add dawn (numbered 2), .add (some [])),
        (.add dawn (numbered 3), .add (some [⟨3#64, 2⟩]))] s ∧
      Path NosStep s [(.del dawn 1#64, .del resp)] t ∧ s.offloadSessionTable.keys = [1, 2, 3] ∧
      t.offloadSessionTable.keys = [1, 3] :=
    ⟨_, _, _, .cons rfl (.cons rfl (.cons rfl (.single rfl))), .single rfl, rfl, rfl⟩
  obtain ⟨resp, s, t, fill, delete, full, left⟩ := run
  obtain ⟨_, _, _, crowded, _⟩ := slots_allocated fill
  obtain ⟨_, _, _, free, found, _⟩ := slots_allocated (fill.append delete)
  rw [full] at crowded
  rw [left] at free found
  refine ⟨resp, s, t, fill, crowded.mpr fun slot low high => ?_, delete, left, ?_⟩
  · simp only [List.mem_cons, List.not_mem_nil]
    omega
  · cases next : t.nextSessionId.1 with
    | none => exact absurd (free.mp next 2 (by decide) (by decide)) (by decide)
    | some slot =>
      obtain ⟨low, high, fresh⟩ := found slot next
      simp only [List.mem_cons, List.not_mem_nil] at fresh
      exact congrArg some (by omega)

end SessionOffload
