import Mathlib.Data.Nat.Init

/-! While loops over an explicit state, with a bound on the number of turns. A body that
fails ends the loop without a result, and so does a bound that is too small. -/
namespace Loop

variable {σ : Type*}

def run (running : σ → Bool) (body : σ → Option σ) : Nat → σ → Option σ
  | 0, s => if running s then none else some s
  | fuel + 1, s => if running s then (body s).bind (run running body fuel) else some s

variable {running : σ → Bool} {body : σ → Option σ}

theorem run_stopped {s : σ} (stopped : running s = false) (fuel : Nat) :
    run running body fuel s = some s := by
  cases fuel <;> simp [run, stopped]

theorem run_turn {s t : σ} (more : running s = true) (turn : body s = some t) (fuel : Nat) :
    run running body (fuel + 1) s = run running body fuel t := by
  simp [run, more, turn]

/-- A turn that keeps the invariant and makes the measure smaller leads to the end of the
loop. -/
theorem run_terminates (Inv : σ → Prop) (measure : σ → Nat)
    (turn : ∀ s, Inv s → running s = true → ∃ t, body s = some t ∧ Inv t ∧ measure t < measure s)
    (fuel : Nat) (s : σ) (start : Inv s) (enough : measure s ≤ fuel) :
    ∃ t, run running body fuel s = some t ∧ Inv t ∧ running t = false := by
  induction fuel generalizing s with
  | zero =>
    have stopped : running s = false := by
      rw [← Bool.not_eq_true]
      intro more
      obtain ⟨t, _, _, smaller⟩ := turn s start more
      omega
    exact ⟨s, run_stopped stopped 0, start, stopped⟩
  | succ fuel ih =>
    cases more : running s with
    | false => exact ⟨s, run_stopped more (fuel + 1), start, more⟩
    | true =>
      obtain ⟨t, step, kept, smaller⟩ := turn s start more
      rw [run_turn more step]
      exact ih t kept (by omega)

theorem run_diverges (Inv : σ → Prop) (more : ∀ s, Inv s → running s = true)
    (turn : ∀ s t, Inv s → body s = some t → Inv t) (fuel : Nat) (s : σ) (start : Inv s) :
    run running body fuel s = none := by
  induction fuel generalizing s with
  | zero => simp [run, more s start]
  | succ fuel ih =>
    cases step : body s with
    | none => simp [run, more s start, step]
    | some t =>
      rw [run_turn (more s start) step]
      exact ih t (turn s t start step)

theorem run_invariant (Inv : σ → Prop) (turn : ∀ s t, Inv s → body s = some t → Inv t)
    (fuel : Nat) {s t : σ} (result : run running body fuel s = some t) (start : Inv s) :
    Inv t ∧ running t = false := by
  induction fuel generalizing s with
  | zero =>
    cases more : running s with
    | false =>
      rw [run_stopped more] at result
      cases result
      exact ⟨start, more⟩
    | true => simp [run, more] at result
  | succ fuel ih =>
    cases more : running s with
    | false =>
      rw [run_stopped more] at result
      cases result
      exact ⟨start, more⟩
    | true =>
      cases step : body s with
      | none => simp [run, more, step] at result
      | some u =>
        rw [run_turn more step] at result
        exact ih result (turn s u start step)

theorem run_more {fuel : Nat} {s t : σ} (result : run running body fuel s = some t) (more : Nat) :
    run running body (fuel + more) s = some t := by
  induction fuel generalizing s with
  | zero =>
    cases stop : running s with
    | false =>
      rw [run_stopped stop] at result ⊢
      exact result
    | true => simp [run, stop] at result
  | succ fuel ih =>
    rw [Nat.succ_add]
    cases stop : running s with
    | false =>
      rw [run_stopped stop] at result ⊢
      exact result
    | true =>
      cases step : body s with
      | none => simp [run, stop, step] at result
      | some u =>
        rw [run_turn stop step] at result ⊢
        exact ih result

theorem run_unique {fuel fuel' : Nat} {s t u : σ} (left : run running body fuel s = some t)
    (right : run running body fuel' s = some u) : t = u := by
  have first := run_more left fuel'
  have second := run_more right fuel
  rw [Nat.add_comm, first] at second
  exact Option.some.inj second

inductive Reached (running : σ → Bool) (body : σ → Option σ) (s : σ) : σ → Prop where
  | start : Reached running body s s
  | turn {t u : σ} (before : Reached running body s t) (more : running t = true)
      (step : body t = some u) : Reached running body s u

/-- A call that is repeated while its outcome asks for it, at most so many times more. -/
def attempt (again : σ → Bool) (call : σ → Option σ) : Nat → σ → Option σ
  | 0, s => call s
  | more + 1, s => (call s).bind fun t => if again t then attempt again call more t else some t

variable {again : σ → Bool} {call : σ → Option σ}

theorem attempt_once {s t : σ} (turn : call s = some t) (done : again t = false) (more : Nat) :
    attempt again call more s = some t := by
  cases more <;> simp [attempt, turn, done]

theorem attempt_again {s t : σ} (turn : call s = some t) (failed : again t = true) (more : Nat) :
    attempt again call (more + 1) s = attempt again call more t := by
  simp [attempt, turn, failed]

theorem attempt_invariant (Inv : σ → Prop) (turn : ∀ s t, Inv s → call s = some t → Inv t)
    (more : Nat) {s t : σ} (result : attempt again call more s = some t) (start : Inv s) :
    Inv t := by
  induction more generalizing s with
  | zero => exact turn s t start result
  | succ more ih =>
    cases step : call s with
    | none => simp [attempt, step] at result
    | some u =>
      have kept := turn s u start step
      cases failed : again u with
      | false =>
        rw [attempt_once step failed] at result
        cases result
        exact kept
      | true =>
        rw [attempt_again step failed] at result
        exact ih result kept

section
variable {α β : Type*}

/-- Every bound from some number on leads to the result. -/
def Yields (f : Nat → Option α) (a : α) : Prop := ∃ n, ∀ fuel, n ≤ fuel → f fuel = some a

theorem Yields.of_some {r : Option α} {a : α} (result : r = some a) : Yields (fun _ => r) a :=
  ⟨0, fun _ _ => result⟩

theorem Yields.bind {f : Nat → Option α} {g : α → Nat → Option β} {a : α} {b : β}
    (first : Yields f a) (second : Yields (g a) b) :
    Yields (fun fuel => (f fuel).bind fun a => g a fuel) b := by
  obtain ⟨n, left⟩ := first
  obtain ⟨m, right⟩ := second
  refine ⟨max n m, fun fuel enough => ?_⟩
  change (f fuel).bind (fun a => g a fuel) = some b
  rw [left fuel (by omega), Option.bind_some, right fuel (by omega)]

theorem Yields.map {f : Nat → Option α} {a : α} (ends : Yields f a) (g : α → β) :
    Yields (fun fuel => (f fuel).map g) (g a) := by
  obtain ⟨n, result⟩ := ends
  refine ⟨n, fun fuel enough => ?_⟩
  change (f fuel).map g = some (g a)
  rw [result fuel enough, Option.map_some]

theorem Yields.run {fuel : Nat} {s t : σ} (result : Loop.run running body fuel s = some t) :
    Yields (fun fuel => Loop.run running body fuel s) t := by
  refine ⟨fuel, fun fuel' enough => ?_⟩
  obtain ⟨more, rfl⟩ := Nat.exists_eq_add_of_le enough
  exact run_more result more

theorem foldlM_range {f : σ → Nat → Option σ} (Inv : Nat → σ → Prop) (n : Nat)
    (turn : ∀ i s, i < n → Inv i s → ∃ t, f s i = some t ∧ Inv (i + 1) t) {s : σ}
    (start : Inv 0 s) : ∃ t, (List.range n).foldlM f s = some t ∧ Inv n t := by
  induction n with
  | zero => exact ⟨s, rfl, start⟩
  | succ n ih =>
    obtain ⟨u, before, here⟩ := ih fun i s less => turn i s (Nat.lt_succ_of_lt less)
    obtain ⟨t, last, after⟩ := turn n u (Nat.lt_succ_self n) here
    refine ⟨t, ?_, after⟩
    rw [List.range_succ, List.foldlM_append, before]
    simpa using last

end

end Loop
