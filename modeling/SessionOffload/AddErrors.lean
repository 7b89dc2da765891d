import SessionOffload.NosLifecycle
import Mathlib.Data.List.Perm.Subperm

/-! The responseError list of addSession. What a stream of requests meets in a table is
which seven tuples it holds and how many slots are left; the entries of the response are
read off from these two. -/
namespace SessionOffload
open Transition

structure Admission where
  held : List SevenTuple
  room : Nat
  deriving DecidableEq

namespace Admission

def reasons (request : SessionRequest) (a : Admission) : List AddSessionStatus :=
  (if request.seven ∈ a.held then [.alreadyExists] else []) ++
    (if a.room = 0 then [.tableFull] else [])

def next (request : SessionRequest) (a : Admission) : Admission :=
  if a.reasons request = [] then ⟨a.held ++ [request.seven], a.room - 1⟩ else a

def rejections : List SessionRequest → Admission → List (SessionRequest × List AddSessionStatus)
  | [], _ => []
  | request :: requests, a =>
    (if a.reasons request = [] then [] else [(request, a.reasons request)]) ++
      rejections requests (a.next request)

/-- No request repeats a session that is held at a time when there is no room. -/
def Single : List SessionRequest → Admission → Prop
  | [], _ => True
  | request :: requests, a =>
    ¬ (request.seven ∈ a.held ∧ a.room = 0) ∧ Single requests (a.next request)

instance decidableSingle : ∀ (requests : List SessionRequest) (a : Admission),
    Decidable (Single requests a)
  | [], _ => inferInstanceAs (Decidable True)
  | request :: requests, a =>
    have := decidableSingle requests (a.next request)
    inferInstanceAs (Decidable (¬ (request.seven ∈ a.held ∧ a.room = 0) ∧ _))

theorem rejections_some {requests : List SessionRequest} {a : Admission}
    {rejection : SessionRequest × List AddSessionStatus}
    (member : rejection ∈ rejections requests a) : rejection.2 ≠ [] := by
  induction requests generalizing a with
  | nil => cases member
  | cons request requests ih =>
    rw [rejections] at member
    rcases List.mem_append.mp member with here | later
    · split at here
      · cases here
      · next some =>
        cases List.mem_singleton.mp here
        exact some
    · exact ih later

theorem rejections_length (requests : List SessionRequest) (a : Admission) :
    (rejections requests a).length ≤ requests.length := by
  induction requests generalizing a with
  | nil => exact Nat.le_refl 0
  | cons request requests ih =>
    have later := ih (a.next request)
    rw [rejections, List.length_append, List.length_cons]
    split
    · rw [List.length_nil]
      omega
    · rw [List.length_singleton]
      omega

theorem both_iff (request : SessionRequest) (a : Admission) :
    (request.seven ∈ a.held ∧ a.room = 0) ↔ (a.reasons request).length = 2 := by
  unfold reasons
  by_cases held : request.seven ∈ a.held
  · by_cases full : a.room = 0
    · simp [held, full]
    · simp [held, full]
  · by_cases full : a.room = 0
    · simp [held, full]
    · simp [held, full]

theorem reasons_length (request : SessionRequest) (a : Admission) :
    (a.reasons request).length ≤ 2 := by
  unfold reasons
  split <;> split <;> simp

theorem single_iff (requests : List SessionRequest) (a : Admission) :
    Single requests a ↔ ∀ rejection ∈ rejections requests a, rejection.2.length = 1 := by
  induction requests generalizing a with
  | nil => exact iff_of_true trivial (fun _ member => by cases member)
  | cons request requests ih =>
    have few := a.reasons_length request
    rw [Single, rejections, both_iff, ih, List.forall_mem_append]
    apply and_congr_left'
    split
    · next none =>
      rw [none]
      exact iff_of_true (by decide) (fun _ member => by cases member)
    · next some =>
      have more := List.length_pos_iff.mpr some
      simp only [List.forall_mem_singleton]
      omega

end Admission

def reasonEntry (request : SessionRequest) (status : AddSessionStatus) : SessionResponseError :=
  ⟨request.sessionId, status.code⟩

/-- One entry for each rejected request, in their order, with a reason against it. -/
def OneEntryEach (rejections : List (SessionRequest × List AddSessionStatus))
    (errors : List SessionResponseError) : Prop :=
  List.Forall₂ (fun rejection e => ∃ status ∈ rejection.2, e = reasonEntry rejection.1 status)
    rejections errors

theorem parts_single {α β : Type*} (parts : α → List β) (l : List α)
    (some : ∀ a ∈ l, parts a ≠ []) :
    l.length ≤ (l.flatMap parts).length ∧
      ((l.flatMap parts).length = l.length → ∀ a ∈ l, (parts a).length = 1) := by
  induction l with
  | nil => exact ⟨Nat.le_refl 0, fun _ _ member => by cases member⟩
  | cons a l ih =>
    obtain ⟨here, rest⟩ := List.forall_mem_cons.mp some
    obtain ⟨few, each⟩ := ih rest
    have first := List.length_pos_iff.mpr here
    rw [List.flatMap_cons, List.length_append, List.length_cons]
    refine ⟨by omega, fun same => List.forall_mem_cons.mpr ⟨by omega, each (by omega)⟩⟩

theorem oneEntryEach_iff (rejections : List (SessionRequest × List AddSessionStatus))
    (some : ∀ rejection ∈ rejections, rejection.2 ≠ []) :
    OneEntryEach rejections (rejections.flatMap fun r => r.2.map (reasonEntry r.1)) ↔
      ∀ rejection ∈ rejections, rejection.2.length = 1 := by
  constructor
  · intro each
    have parts := parts_single (fun r : SessionRequest × List AddSessionStatus =>
      r.2.map (reasonEntry r.1)) rejections
      (fun r member => mt List.map_eq_nil_iff.mp (some r member))
    intro rejection member
    have one := parts.2 each.length_eq.symm rejection member
    rwa [List.length_map] at one
  · intro single
    clear some
    induction rejections with
    | nil => exact .nil
    | cons rejection rejections ih =>
      obtain ⟨here, rest⟩ := List.forall_mem_cons.mp single
      obtain ⟨status, only⟩ := List.length_eq_one_iff.mp here
      rw [List.flatMap_cons, only]
      exact .cons ⟨status, only ▸ List.mem_singleton_self status, rfl⟩ (ih rest)

namespace SessionTableServicer

def admission (s : SessionTableServicer) : Admission :=
  ⟨s.offloadSessionTable.values.map OffloadSession.seven,
    s.maxSessionId - 1 - s.offloadSessionTable.keys.length⟩

variable {s : SessionTableServicer}

theorem known_iff_held (request : SessionRequest) (s : SessionTableServicer) :
    s.Known request ↔ request.seven ∈ s.admission.held := by
  rw [admission, List.mem_map]
  rfl

theorem roomy_iff (inv : s.Inv) :
    s.Roomy ↔ s.offloadSessionTable.keys.length < s.maxSessionId - 1 := by
  have distinct := s.offloadSessionTable.keys_nodup
  have range : ∀ slot, slot ∈ List.range' 1 (s.maxSessionId - 1) ↔
      1 ≤ slot ∧ slot < s.maxSessionId := by
    intro slot
    have positive := s.positive
    rw [List.mem_range'_1]
    omega
  constructor
  · rintro ⟨slot, low, high, free⟩
    have more : (slot :: s.offloadSessionTable.keys).Nodup := List.nodup_cons.mpr ⟨free, distinct⟩
    have inside : slot :: s.offloadSessionTable.keys ⊆ List.range' 1 (s.maxSessionId - 1) := by
      intro other member
      rcases List.mem_cons.mp member with rfl | old
      · exact (range other).mpr ⟨low, high⟩
      · exact (range other).mpr (inv.slots other old)
    have few := (List.subperm_of_subset more inside).length_le
    rwa [List.length_range', List.length_cons] at few
  · intro few
    by_contra crowded
    have inside : List.range' 1 (s.maxSessionId - 1) ⊆ s.offloadSessionTable.keys := by
      intro slot member
      obtain ⟨low, high⟩ := (range slot).mp member
      by_contra free
      exact crowded ⟨slot, low, high, free⟩
    have many := (List.subperm_of_subset List.nodup_range' inside).length_le
    rw [List.length_range'] at many
    omega

theorem room_iff (inv : s.Inv) : s.Roomy ↔ s.admission.room ≠ 0 := by
  rw [roomy_iff inv]
  change _ ↔ s.maxSessionId - 1 - s.offloadSessionTable.keys.length ≠ 0
  omega

theorem refusal_reasons (inv : s.Inv) {request : SessionRequest}
    {errors : List SessionResponseError} (refusal : s.Refusal request errors) :
    s.admission.reasons request ≠ [] ∧
      errors = (s.admission.reasons request).map (reasonEntry request) := by
  unfold Admission.reasons
  cases refusal with
  | known present room =>
    rw [if_pos ((known_iff_held request s).mp present), if_neg ((room_iff inv).mp room)]
    exact ⟨List.cons_ne_nil _ _, rfl⟩
  | full absent crowded =>
    rw [if_neg (mt (known_iff_held request s).mpr absent),
      if_pos (not_not.mp (mt (room_iff inv).mpr crowded))]
    exact ⟨List.cons_ne_nil _ _, rfl⟩
  | both present crowded =>
    rw [if_pos ((known_iff_held request s).mp present),
      if_pos (not_not.mp (mt (room_iff inv).mpr crowded))]
    exact ⟨List.cons_ne_nil _ _, rfl⟩

theorem addRequest_admission (inv : s.Inv) {request : SessionRequest}
    (shown : printable request = true) (timestamp : Timestamp) :
    ∃ t, s.addRequest timestamp request =
        some ((s.admission.reasons request).map (reasonEntry request), t) ∧
      t.Inv ∧ t.admission = s.admission.next request := by
  unfold Admission.next
  rcases addRequest_cases inv timestamp request with
    ⟨hidden, _⟩ | ⟨_, errors, refusal, run⟩ | ⟨_, absent, room, slot, low, high, free, run⟩
  · cases hidden.symm.trans shown
  · obtain ⟨refused, same⟩ := refusal_reasons inv refusal
    have step : NosStep s (.add timestamp request, .add (some errors)) s.probed := by
      simp only [serves, nosServe, run]
    rw [if_neg refused, ← same]
    exact ⟨s.probed, run, nosStep_inv inv step, rfl⟩
  · have none : s.admission.reasons request = [] := by
      rw [Admission.reasons, if_neg (mt (known_iff_held request s).mpr absent),
        if_neg ((room_iff inv).mp room)]
      rfl
    have step : NosStep s (.add timestamp request, .add (some []))
        (s.installed slot timestamp request) := by
      simp only [serves, nosServe, run]
    have table : (s.installed slot timestamp request).offloadSessionTable.entries =
        s.offloadSessionTable.entries ++ [(slot, newOffloadSession timestamp request)] :=
      Dict.set_fresh free _
    rw [none, if_pos rfl]
    refine ⟨_, run, nosStep_inv inv step, ?_⟩
    simp only [admission, Dict.values, Dict.keys, table, List.map_append, List.length_append]
    exact congrArg (Admission.mk _) (Nat.sub_add_eq _ _ _)

theorem addSession_errors (inv : s.Inv) (requests : List (Timestamp × SessionRequest))
    (shown : ∀ r ∈ requests, printable r.2 = true) :
    (s.addSession requests).1 = some ⟨((s.admission.rejections (requests.map Prod.snd)).flatMap
      fun r => r.2.map (reasonEntry r.1))⟩ := by
  induction requests generalizing s with
  | nil => rfl
  | cons first rest ih =>
    obtain ⟨timestamp, request⟩ := first
    obtain ⟨here, later⟩ := List.forall_mem_cons.mp shown
    obtain ⟨t, run, kept, moved⟩ := addRequest_admission inv here timestamp
    have answer := ih kept later
    simp only [addSession, run, answer, moved, List.map_cons, Admission.rejections,
      List.flatMap_append, Option.map_some]
    split
    · next none => rw [none, List.map_nil, List.flatMap_nil]
    · rw [List.flatMap_singleton]

theorem addSession_shown {requests : List (Timestamp × SessionRequest)}
    {response : AddSessionResponse} (answer : (s.addSession requests).1 = some response) :
    ∀ r ∈ requests, printable r.2 = true := by
  induction requests generalizing s response with
  | nil => exact fun _ member => by cases member
  | cons first rest ih =>
    obtain ⟨timestamp, request⟩ := first
    cases run : s.addRequest timestamp request with
    | none =>
      simp only [addSession, run] at answer
      cases answer
    | some turn =>
      obtain ⟨errors, t⟩ := turn
      simp only [addSession, run] at answer
      obtain ⟨later, rest, _⟩ := Option.map_eq_some_iff.mp answer
      refine List.forall_mem_cons.mpr ⟨?_, ih rest⟩
      by_contra hidden
      rw [addRequest, if_neg hidden] at run
      cases run

def ErrorsExact (requests : List (Timestamp × SessionRequest)) (s : SessionTableServicer) : Prop :=
  ∃ response, (s.addSession requests).1 = some response ∧
    OneEntryEach (s.admission.rejections (requests.map Prod.snd)) response.responseError

theorem errorsExact_iff (inv : s.Inv) (requests : List (Timestamp × SessionRequest)) :
    ErrorsExact requests s ↔ (∀ r ∈ requests, printable r.2 = true) ∧
      s.admission.Single (requests.map Prod.snd) := by
  rw [Admission.single_iff,
    ← oneEntryEach_iff _ (fun _ member => Admission.rejections_some member)]
  constructor
  · rintro ⟨response, answer, each⟩
    have shown := addSession_shown answer
    rw [addSession_errors inv requests shown] at answer
    cases Option.some.inj answer
    exact ⟨shown, each⟩
  · rintro ⟨shown, each⟩
    exact ⟨_, addSession_errors inv requests shown, each⟩

end SessionTableServicer

/-- In every reachable state the answer to a stream has one entry for each rejected request,
in their order, if and only if every request can be printed and none repeats a session
while the table is full; there are then at most as many entries as requests. -/
theorem add_errors_exact {maxSessionId : Nat} {positive : 0 < maxSessionId}
    {ls : List (NosCall × NosReply)} {s : SessionTableServicer}
    (path : Path NosStep (.init maxSessionId positive) ls s)
    (requests : List (Timestamp × SessionRequest)) :
    (s.ErrorsExact requests ↔ (∀ r ∈ requests, printable r.2 = true) ∧
      s.admission.Single (requests.map Prod.snd)) ∧
    (s.ErrorsExact requests → ∀ response, (s.addSession requests).1 = some response →
      response.responseError.length ≤ requests.length) := by
  refine ⟨SessionTableServicer.errorsExact_iff (nosPath_inv path) requests, ?_⟩
  rintro ⟨_, answer, each⟩ response answer'
  cases answer.symm.trans answer'
  have few := Admission.rejections_length (requests.map Prod.snd) s.admission
  rw [List.length_map] at few
  exact each.length_eq.symm.trans_le few

/-- After a session was added a stream repeats it, brings two others and repeats one of them. -/
theorem add_errors_three : ∃ s, Path NosStep .simulator
      [(.add dawn (numbered 80), .add (some []))] s ∧
    s.ErrorsExact ([80, 22, 443, 22].map fun i => (dawn, numbered i)) ∧
    (s.addSession ([80, 22, 443, 22].map fun i => (dawn, numbered i))).1 =
      some ⟨[⟨80#64, 4⟩, ⟨22#64, 4⟩]⟩ := by
  have path : ∃ s, Path NosStep .simulator [(.add dawn (numbered 80), .add (some []))] s ∧
      s.admission.Single ([80, 22, 443, 22].map numbered) ∧
      (s.addSession ([80, 22, 443, 22].map fun i => (dawn, numbered i))).1 =
        some ⟨[⟨80#64, 4⟩, ⟨22#64, 4⟩]⟩ := ⟨_, .single rfl, by decide, rfl⟩
  obtain ⟨s, path, single, answer⟩ := path
  exact ⟨s, path, (add_errors_exact path _).1.mpr ⟨by decide, single⟩, answer⟩

/-- As many sessions as there are slots, and the first of them again. -/
def fullTwice : List (Timestamp × SessionRequest) :=
  (List.range 19 ++ [0]).map fun i => (dawn, numbered i)

/-- The one rejected request has two entries. -/
theorem rejected_twice :
    (SessionTableServicer.simulator.addSession fullTwice).1 = some ⟨[⟨0#64, 4⟩, ⟨0#64, 2⟩]⟩ ∧
    ¬ SessionTableServicer.simulator.ErrorsExact fullTwice := by
  have inv := SessionTableServicer.init_inv 20 (by decide)
  have shown : ∀ r ∈ fullTwice, printable r.2 = true := by decide
  constructor
  · exact (SessionTableServicer.addSession_errors inv fullTwice shown).trans (by decide)
  · intro exact
    have single := ((SessionTableServicer.errorsExact_iff inv fullTwice).mp exact).2
    exact absurd single (by decide)

end SessionOffload
