import SessionOffload.Agreement

/-! The ids of the firewall. nextSessionId starts over only where it finds its counter exactly
at the maximum, and its search goes on above the maximum, so the ids stay in their range as
long as each search meets a free one there. -/
namespace SessionOffload
open Transition

/-- What changes the firewall's table: a session is added, one that could not be offloaded
is marked, one is reported as closed. -/
inductive FwCall where
  | add (type : Firewall.SessionType) (draw : Firewall.Draw)
  | failed (error : SessionResponseError)
  | closed (response : TimedSessionResponse)

def fwServe (fw : Firewall) : FwCall → Option (Firewall × Option Word64)
  | .add type draw => do
    let (session, fw) ← fw.newSession type draw
    some (fw, some session.sessionId)
  | .failed error => do
    let fw ← Firewall.markFailed [error] fw
    some (fw, none)
  | .closed response => some (fw.sessionClosed response, none)

abbrev FwStep : Firewall → FwCall × Option Word64 → Firewall → Prop := serves fwServe

namespace Firewall

def InRange (id : Nat) : Prop := startSessionId ≤ id ∧ id ≤ maxSessionId

def init : Firewall := ⟨.empty, startSessionId⟩

def SomeFree (fw : Firewall) : Prop := ∃ id, InRange id ∧ id ∉ fw.sessionTable.keys

def FreeAbove (fw : Firewall) : Prop :=
  ∃ id, fw.searchStart ≤ id ∧ id ≤ maxSessionId ∧ id ∉ fw.sessionTable.keys

def NextInRange (fw : Firewall) : Prop :=
  ∃ id, fw.nextSessionId = some id ∧ id ∉ fw.sessionTable.keys ∧ InRange id

variable {fw fw' : Firewall}

theorem searchStart_low (low : startSessionId ≤ fw.lastSessionId) :
    startSessionId ≤ fw.searchStart := by
  unfold searchStart
  split
  · exact Nat.le_refl _
  · exact low

theorem nextSessionId_eq {id : Nat} (above : fw.searchStart ≤ id)
    (free : id ∉ fw.sessionTable.keys)
    (passed : ∀ k, fw.searchStart ≤ k → k < id → k ∈ fw.sessionTable.keys) :
    fw.nextSessionId = some id := by
  obtain ⟨other, next, above', free', passed'⟩ := nextSessionId_least fw
  rcases Nat.lt_trichotomy other id with less | rfl | more
  · exact absurd (passed other above' less) free'
  · exact next
  · exact absurd (passed' id above more) free

theorem nextInRange_iff (low : startSessionId ≤ fw.lastSessionId) :
    fw.NextInRange ↔ fw.FreeAbove := by
  obtain ⟨id, next, above, free, passed⟩ := nextSessionId_least fw
  constructor
  · rintro ⟨id', next', _, range⟩
    cases Option.some.inj (next.symm.trans next')
    exact ⟨id, above, range.2, free⟩
  · rintro ⟨k, start, high, open_⟩
    have first : id ≤ k := by
      by_contra later
      exact open_ (passed k start (by omega))
    have start' := searchStart_low low
    exact ⟨id, next, free, by omega, by omega⟩

theorem newSession_id {type : SessionType} {draw : Draw} {session : SessionRequest}
    (built : newSession type draw fw = some (session, fw')) :
    fw.nextSessionId = some fw'.lastSessionId ∧ session.sessionId.toNat = fw'.lastSessionId := by
  simp only [newSession, Option.bind_eq_bind, Option.bind_eq_some_iff] at built
  obtain ⟨id, next, sessionId, fits, same⟩ := built
  cases Option.some.inj same
  exact ⟨next, (congrArg BitVec.toNat (buildRequest_id type draw sessionId)).trans
    (uint64_spec fits).2⟩

theorem markFailed_keys {errors : List SessionResponseError}
    (marked : markFailed errors fw = some fw') :
    fw'.lastSessionId = fw.lastSessionId ∧
      ∀ k, k ∈ fw'.sessionTable.keys ↔ k ∈ fw.sessionTable.keys := by
  induction errors generalizing fw with
  | nil =>
    cases Option.some.inj marked
    exact ⟨rfl, fun _ => Iff.rfl⟩
  | cons error errors ih =>
    simp only [markFailed, Option.bind_eq_bind, Option.bind_eq_some_iff] at marked
    obtain ⟨session, found, marked⟩ := marked
    obtain ⟨last, keys⟩ := ih marked
    refine ⟨last, fun k => (keys k).trans (Dict.mem_keys_set.trans ?_)⟩
    have known := Dict.mem_keys.mpr ⟨session, Dict.get?_eq_some_iff.mp found⟩
    constructor
    · rintro (rfl | old)
      · exact known
      · exact old
    · exact .inr

theorem sessionClosed_keys (response : TimedSessionResponse) (fw : Firewall) (k : Nat) :
    k ∈ (fw.sessionClosed response).sessionTable.keys ↔
      k ∈ fw.sessionTable.keys ∧ k ≠ response.sessionId.toNat := by
  unfold sessionClosed
  split
  · exact Dict.mem_keys_erase
  · next unknown =>
    constructor
    · exact fun old => ⟨old, fun same => unknown (same ▸ old)⟩
    · exact And.left

theorem sessionClosed_last (response : TimedSessionResponse) (fw : Firewall) :
    (fw.sessionClosed response).lastSessionId = fw.lastSessionId := by
  unfold sessionClosed
  split <;> rfl

end Firewall

theorem fwStep_ids {fw fw' : Firewall} {l : FwCall × Option Word64} (step : FwStep fw l fw') :
    (∃ type draw id, l = (.add type draw, some id) ∧ id.toNat = fw'.lastSessionId ∧
      fw.nextSessionId = some fw'.lastSessionId ∧
      ∀ k, k ∈ fw'.sessionTable.keys ↔ k = fw'.lastSessionId ∨ k ∈ fw.sessionTable.keys) ∨
    ((∀ type draw, l.1 ≠ .add type draw) ∧ l.2 = none ∧ fw'.lastSessionId = fw.lastSessionId ∧
      ∀ k ∈ fw'.sessionTable.keys, k ∈ fw.sessionTable.keys) := by
  obtain ⟨call, answer⟩ := l
  simp only [serves] at step
  cases call with
  | add type draw =>
    simp only [fwServe, Option.bind_eq_bind, Option.bind_eq_some_iff] at step
    obtain ⟨⟨session, fw₁⟩, built, same⟩ := step
    cases Option.some.inj same
    obtain ⟨next, value⟩ := Firewall.newSession_id built
    obtain ⟨_, _, keys, _⟩ := Firewall.newSession_spec built
    exact .inl ⟨type, draw, _, rfl, value, next, fun k => value ▸ keys k⟩
  | failed error =>
    simp only [fwServe, Option.bind_eq_bind, Option.bind_eq_some_iff] at step
    obtain ⟨fw₁, marked, same⟩ := step
    cases Option.some.inj same
    obtain ⟨last, keys⟩ := Firewall.markFailed_keys marked
    exact .inr ⟨fun _ _ impossible => (by cases impossible), rfl, last, fun k => (keys k).mp⟩
  | closed response =>
    simp only [fwServe] at step
    cases Option.some.inj step
    exact .inr ⟨fun _ _ impossible => (by cases impossible), rfl,
      Firewall.sessionClosed_last response fw,
      fun k member => ((Firewall.sessionClosed_keys response fw k).mp member).1⟩

/-- The loop of session_addSessions is a run of its turns. -/
theorem newSessions_path {type : Firewall.SessionType} {draws : List Firewall.Draw}
    {fw fw' : Firewall} {sessions : List SessionRequest}
    (built : Firewall.newSessions type draws fw = some (sessions, fw')) :
    ∃ ls, Path FwStep fw ls fw' := by
  induction draws generalizing fw sessions with
  | nil =>
    cases Option.some.inj built
    exact ⟨[], .nil _⟩
  | cons draw draws ih =>
    simp only [Firewall.newSessions, Option.bind_eq_bind, Option.bind_eq_some_iff] at built
    obtain ⟨⟨session, fw₁⟩, first, ⟨later, fw₂⟩, rest, same⟩ := built
    cases Option.some.inj same
    obtain ⟨ls, path⟩ := ih rest
    have step : FwStep fw (.add type draw, some session.sessionId) fw₁ := by
      simp only [serves, fwServe, first]
      rfl
    exact ⟨_, .cons step path⟩

/-- So is the loop over the errors of its response. -/
theorem markFailed_path {errors : List SessionResponseError} {fw fw' : Firewall}
    (marked : Firewall.markFailed errors fw = some fw') : ∃ ls, Path FwStep fw ls fw' := by
  induction errors generalizing fw with
  | nil =>
    cases Option.some.inj marked
    exact ⟨[], .nil _⟩
  | cons error errors ih =>
    simp only [Firewall.markFailed, Option.bind_eq_bind, Option.bind_eq_some_iff] at marked
    obtain ⟨session, found, rest⟩ := marked
    obtain ⟨ls, path⟩ := ih rest
    refine ⟨(.failed error, none) :: ls, .cons ?_ path⟩
    simp only [serves, fwServe, Firewall.markFailed, found]
    rfl

theorem fwPath_low {ls : List (FwCall × Option Word64)} {fw : Firewall}
    (path : Path FwStep .init ls fw) : Firewall.startSessionId ≤ fw.lastSessionId := by
  apply path.invariant (fun fw => Firewall.startSessionId ≤ fw.lastSessionId) ?_ (Nat.le_refl _)
  intro fw l fw' low step
  rcases fwStep_ids step with ⟨_, _, _, _, _, next, _⟩ | ⟨_, _, last, _⟩
  · obtain ⟨id, least, above, _⟩ := Firewall.nextSessionId_least fw
    cases Option.some.inj (least.symm.trans next)
    exact (Firewall.searchStart_low low).trans above
  · exact last ▸ low

def SearchesBelow (fw : Firewall) (l : FwCall × Option Word64) (_ : Firewall) : Prop :=
  ∀ type draw, l.1 = .add type draw → fw.FreeAbove

structure IdsInRange (fw : Firewall) : Prop where
  last : Firewall.InRange fw.lastSessionId
  keys : ∀ k ∈ fw.sessionTable.keys, Firewall.InRange k

theorem fwStep_inRange {fw fw' : Firewall} {l : FwCall × Option Word64} (ids : IdsInRange fw)
    (step : FwStep fw l fw') (below : SearchesBelow fw l fw') :
    IdsInRange fw' ∧ ∀ id, l.2 = some id → Firewall.InRange id.toNat := by
  rcases fwStep_ids step with ⟨type, draw, id, rfl, value, next, keys⟩ | ⟨_, none, last, keys⟩
  · obtain ⟨id', next', _, range⟩ :=
      (Firewall.nextInRange_iff ids.last.1).mpr (below type draw rfl)
    cases Option.some.inj (next'.symm.trans next)
    refine ⟨⟨range, fun k member => ?_⟩, fun id' same => ?_⟩
    · rcases (keys k).mp member with rfl | old
      · exact range
      · exact ids.keys k old
    · cases Option.some.inj same
      exact value ▸ range
  · refine ⟨⟨last ▸ ids.last, fun k member => ids.keys k (keys k member)⟩, fun id some => ?_⟩
    rw [none] at some
    cases some

/-- In every reachable state the next id is a new one of the range, whenever one is free, if
and only if one is free at or above the place where the search begins; and along every run
whose additions meet that condition all ids stay in the range. -/
theorem ids_roll_over {ls : List (FwCall × Option Word64)} {fw : Firewall} :
    (Path FwStep .init ls fw →
      ((fw.SomeFree → fw.NextInRange) ↔ (fw.SomeFree → fw.FreeAbove))) ∧
    (Path (restrict FwStep SearchesBelow) .init ls fw →
      IdsInRange fw ∧ ∀ l ∈ ls, ∀ id, l.2 = some id → Firewall.InRange id.toNat) := by
  constructor
  · intro path
    rw [Firewall.nextInRange_iff (fwPath_low path)]
  · intro path
    apply path.invariant_labels IdsInRange _
      (fun _ _ _ ids step => fwStep_inRange ids step.1 step.2)
    exact ⟨⟨Nat.le_refl _, by decide⟩, fun k member => by cases member⟩

def Arrives (last : Nat) (others : List Nat) : Prop :=
  ∃ ls fw, Path FwStep .init ls fw ∧ fw.lastSessionId = last ∧
    ∀ k, k ∈ fw.sessionTable.keys ↔ k = last ∨ k ∈ others

theorem add_step {fw : Firewall} {id : Nat} (next : fw.nextSessionId = some id)
    (fits : id < 2 ^ 64) :
    ∃ l fw', FwStep fw l fw' ∧ fw'.lastSessionId = id ∧
      ∀ k, k ∈ fw'.sessionTable.keys ↔ k = id ∨ k ∈ fw.sessionTable.keys := by
  have word : uint64 id = some (BitVec.ofNat 64 id) := if_pos fits
  let session := Firewall.buildRequest .ipv4 zeroDraw (BitVec.ofNat 64 id)
  let fw' : Firewall :=
    ⟨fw.sessionTable.set id (Firewall.localSession .ipv4 zeroDraw session), id⟩
  have built : fw.newSession .ipv4 zeroDraw = some (session, fw') := by
    simp only [Firewall.newSession, next, word, Option.bind_eq_bind, Option.bind_some]
    rfl
  refine ⟨(.add .ipv4 zeroDraw, some session.sessionId), fw', ?_, rfl, fun k => ?_⟩
  · simp only [serves, fwServe, built]
    rfl
  · exact Dict.mem_keys_set

theorem arrives_succ {last : Nat} {others : List Nat} (arrives : Arrives last others)
    (apart : ∀ k ∈ others, last + 1 < k) (below : last < Firewall.maxSessionId) :
    Arrives (last + 1) others := by
  obtain ⟨ls, fw, path, rfl, keys⟩ := arrives
  have start : fw.searchStart = fw.lastSessionId := if_neg (Nat.ne_of_lt below)
  have next : fw.nextSessionId = some (fw.lastSessionId + 1) := by
    apply Firewall.nextSessionId_eq
    · omega
    · intro taken
      rcases (keys _).mp taken with same | other
      · omega
      · exact absurd (apart _ other) (Nat.lt_irrefl _)
    · intro k low high
      exact (keys k).mpr (.inl (by omega))
  have small : Firewall.maxSessionId < 2 ^ 64 := by decide
  obtain ⟨l, fw₁, added, last₁, keys₁⟩ := add_step next (by omega)
  let response : TimedSessionResponse :=
    { TimedSessionResponse.empty with sessionId := BitVec.ofNat 64 fw.lastSessionId }
  have value : response.sessionId.toNat = fw.lastSessionId := by
    rw [BitVec.toNat_ofNat, Nat.mod_eq_of_lt (by omega)]
  have closed : FwStep fw₁ (.closed response, none) (fw₁.sessionClosed response) := rfl
  refine ⟨_, _, path.append (.cons added (.single closed)),
    (Firewall.sessionClosed_last response fw₁).trans last₁, fun k => ?_⟩
  rw [Firewall.sessionClosed_keys, keys₁, keys, value]
  constructor
  · rintro ⟨new | same | other, differs⟩
    · exact .inl new
    · exact absurd same differs
    · exact .inr other
  · rintro (new | other)
    · exact ⟨.inl new, by omega⟩
    · have above := apart k other
      exact ⟨.inr (.inr other), by omega⟩

theorem arrives_add {last : Nat} {others : List Nat} (arrives : Arrives last others) (n : Nat)
    (apart : ∀ k ∈ others, last + n < k) (below : last + n ≤ Firewall.maxSessionId) :
    Arrives (last + n) others := by
  induction n with
  | zero => exact arrives
  | succ n ih =>
    have before := ih (fun k other => by have := apart k other; omega) (by omega)
    have room : last + n < Firewall.maxSessionId := by omega
    exact arrives_succ before apart room

/-- A session that keeps the maximum as its id for one round of the ids: the counter arrives
just below it and finds both taken. -/
theorem arrives_below : Arrives 999998 [999999] := by
  have first : Arrives 1000 [] := by
    obtain ⟨l, fw, added, last, keys⟩ := @add_step .init 1000 rfl (by decide)
    refine ⟨_, fw, .single added, last, fun k => (keys k).trans ?_⟩
    exact or_congr_right (iff_of_false List.not_mem_nil List.not_mem_nil)
  have round : Arrives 999999 [] :=
    arrives_add first 998999 (fun k none => by cases none) (Nat.le_refl _)
  have again : Arrives 1000 [999999] := by
    obtain ⟨ls, fw, path, last, keys⟩ := round
    have start : fw.searchStart = 1000 := if_pos last
    have next : fw.nextSessionId = some 1000 := by
      apply Firewall.nextSessionId_eq
      · exact Nat.le_of_eq start
      · intro taken
        rcases (keys _).mp taken with same | none
        · cases same
        · cases none
      · intro k low high
        omega
    obtain ⟨l, fw₁, added, last₁, keys₁⟩ := add_step next (by decide)
    refine ⟨_, fw₁, path.append (.single added), last₁, fun k => (keys₁ k).trans ?_⟩
    rw [keys]
    exact or_congr_right (by simp)
  exact arrives_add again 998998 (fun k other => by
    cases List.mem_singleton.mp other
    decide) (by decide)

/-- There the next id is a million, although nearly all ids of the range are free. -/
theorem id_leaves_range : ∃ ls fw, Path FwStep .init ls fw ∧ fw.SomeFree ∧
    fw.nextSessionId = some 1000000 ∧ ¬ fw.NextInRange := by
  obtain ⟨ls, fw, path, last, keys⟩ := arrives_below
  have start : fw.searchStart = 999998 := by
    unfold Firewall.searchStart
    rw [last]
    rfl
  have next : fw.nextSessionId = some 1000000 := by
    apply Firewall.nextSessionId_eq
    · omega
    · rw [keys]
      decide
    · intro k low high
      rw [keys, List.mem_singleton]
      omega
  refine ⟨ls, fw, path, ⟨1000, ⟨Nat.le_refl _, by decide⟩, ?_⟩, next, ?_⟩
  · rw [keys]
    decide
  · rintro ⟨id, next', _, range⟩
    cases Option.some.inj (next.symm.trans next')
    exact absurd range.2 (by decide)

end SessionOffload
