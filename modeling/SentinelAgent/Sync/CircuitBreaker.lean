import Mathlib.Algebra.Group.Int.Defs
import Mathlib.Algebra.Group.Nat.Defs
import SentinelAgent.Library.Tasks

/-!
The circuit breaker of the synchronisation. Its state, its count of failures and the time it
opened at stand behind locks of their own, taken one after the other, so the calls of several
tasks interleave between any two of them.
-/
namespace SentinelAgent.Sync.Offline
open Runs

inductive CircuitState where
  | closed | opened | halfOpen
  deriving DecidableEq

structure CircuitBreaker where
  state : CircuitState
  failureCount : Nat
  openedAt : Option Int
  deriving DecidableEq

def CircuitBreaker.new : CircuitBreaker := ⟨.closed, 0, none⟩

def circuitBreakerThreshold : Nat := 5
def circuitBreakerOpenSecs : Nat := 300

/- Times are in nanoseconds. -/
def elapsedSecs (now opened : Int) : Nat := ((now - opened).tdiv (10 ^ 9)).toNat

/- What a task does next: the first access of each call, and what follows in it. -/
inductive Call where
  | isAllowed
  | readOpenedAt
  | allowProbe
  | recordSuccess
  | closeCircuit
  | clearOpenedAt
  | recordFailure
  | openCircuit
  | noteOpenedAt (now : Int)
  deriving DecidableEq

def Call.begins : Call → Bool
  | .isAllowed | .recordSuccess | .recordFailure => true
  | _ => false

/- One access, at the time of the clock, and what the task does after it. -/
def Call.step (b : CircuitBreaker) : Call → Int → CircuitBreaker × Option Call
  | .isAllowed, _ => (b, if b.state = .opened then some .readOpenedAt else none)
  | .readOpenedAt, now =>
    (b, match b.openedAt with
      | some opened =>
        if circuitBreakerOpenSecs ≤ elapsedSecs now opened then some .allowProbe else none
      | none => none)
  | .allowProbe, _ => ({ b with state := .halfOpen }, none)
  | .recordSuccess, _ => ({ b with failureCount := 0 }, some .closeCircuit)
  | .closeCircuit, _ => ({ b with state := .closed }, some .clearOpenedAt)
  | .clearOpenedAt, _ => ({ b with openedAt := none }, none)
  | .recordFailure, _ =>
    -- the atomic counter wraps, the sum that is compared with the threshold does not
    if b.failureCount + 1 = 2 ^ 32 then ({ b with failureCount := 0 }, none)
    else
      ({ b with failureCount := b.failureCount + 1 },
        if circuitBreakerThreshold ≤ b.failureCount + 1 then some .openCircuit else none)
  | .openCircuit, now =>
    if b.state ≠ .opened then ({ b with state := .opened }, some (.noteOpenedAt now)) else (b, none)
  | .noteOpenedAt now, _ => ({ b with openedAt := some now }, none)

abbrev State := Tasks.State CircuitBreaker Call

abbrev Act := Tasks.Act Call Int

def State.step : State → Act → State := Tasks.next Call.begins Call.step

def State.start : State := ⟨CircuitBreaker.new, []⟩

/- `is_allowed` where nothing happens between its accesses. -/
def isAllowed (b : CircuitBreaker) (now : Int) : CircuitBreaker × Bool :=
  match b.state with
  | .closed => (b, true)
  | .opened =>
    match b.openedAt with
    | some opened =>
      if circuitBreakerOpenSecs ≤ elapsedSecs now opened then ({ b with state := .halfOpen }, true)
      else (b, false)
    | none => (b, false)
  | .halfOpen => (b, true)

theorem isAllowed_steps (b : CircuitBreaker) (now : Int) :
    run State.step ⟨b, []⟩ [.begin .isAllowed, .step 0 now, .step 0 now, .step 0 now] =
      ⟨(isAllowed b now).1, []⟩ := by
  obtain ⟨state, count, openedAt⟩ := b
  cases state with
  | closed => rfl
  | halfOpen => rfl
  | opened =>
    cases openedAt with
    | none => rfl
    | some opened =>
      by_cases waited : circuitBreakerOpenSecs ≤ elapsedSecs now opened
      · simp [State.step, Tasks.next, Call.begins, Call.step, isAllowed, waited]
      · simp [State.step, Tasks.next, Call.begins, Call.step, isAllowed, waited]

/- It is not open without an opening time, and after the reset timeout a probe gets through. -/
structure NotJammed (b : CircuitBreaker) : Prop where
  timed : b.state = .opened → b.openedAt ≠ none
  probes : ∃ opened, ∀ now, circuitBreakerOpenSecs ≤ elapsedSecs now opened →
    (isAllowed b now).2 = true

theorem notJammed_of_timed {b : CircuitBreaker} (timed : b.state = .opened → b.openedAt ≠ none) :
    NotJammed b := by
  refine ⟨timed, ?_⟩
  cases state : b.state with
  | closed => exact ⟨0, fun now _ => by simp [isAllowed, state]⟩
  | halfOpen => exact ⟨0, fun now _ => by simp [isAllowed, state]⟩
  | opened =>
    obtain ⟨opened, noted⟩ := Option.ne_none_iff_exists'.mp (timed state)
    exact ⟨opened, fun now waited => by simp [isAllowed, state, noted, waited]⟩

/-! The opening time of an open circuit is noted, or a task has yet to note it. -/

/- A task that opened the circuit and has yet to note the time. -/
def opening (calls : List Call) : Bool :=
  calls.any fun
    | .noteOpenedAt _ => true
    | _ => false

/- A success clears no opening time of an open circuit, unless another is about to be noted. -/
def Call.Spares (b : CircuitBreaker) (others : List Call) (call : Call) (_ : Int) : Prop :=
  call = .clearOpenedAt → b.state = .opened → opening others = true

instance (b : CircuitBreaker) (others : List Call) (call : Call) (now : Int) :
    Decidable (call.Spares b others now) :=
  inferInstanceAs (Decidable (_ → _ → _))

def State.Spares : State → Act → Prop := Tasks.Meets Call.Spares

instance (s : State) (act : Act) : Decidable (s.Spares act) :=
  inferInstanceAs (Decidable (Tasks.Meets Call.Spares s act))

def Timed (b : CircuitBreaker) (calls : List Call) : Prop :=
  b.state = .opened → b.openedAt ≠ none ∨ opening calls = true

theorem opening_append {calls more : List Call} (noting : opening calls = true) :
    opening (more ++ calls) = true := by
  simp only [opening, List.any_append, Bool.or_eq_true]
  exact .inr noting

theorem timed_reorder {b : CircuitBreaker} {calls calls' : List Call} (same : calls.Perm calls')
    (timed : Timed b calls) : Timed b calls' :=
  fun is_open => (timed is_open).imp_right fun noting => by
    rw [opening, ← same.any_eq]
    exact noting

theorem timed_begin {b : CircuitBreaker} {calls : List Call} (call : Call)
    (timed : Timed b calls) : Timed b (call :: calls) :=
  fun is_open => (timed is_open).imp_right fun noting => by
    change opening ([call] ++ calls) = true
    exact opening_append noting

theorem timed_made {b : CircuitBreaker} {others : List Call} {call : Call} {now : Int}
    (spares : call.Spares b others now) (timed : Timed b (call :: others)) :
    Timed (call.step b now).1 ((call.step b now).2.toList ++ others) := by
  cases call with
  | isAllowed | readOpenedAt | recordSuccess =>
    exact fun is_open => (timed is_open).imp_right opening_append
  | allowProbe | closeCircuit => nofun
  | clearOpenedAt => exact fun is_open => .inr (spares rfl is_open)
  | recordFailure =>
    intro is_open
    simp only [Call.step] at is_open ⊢
    split
    · rename_i wraps
      rw [if_pos wraps] at is_open
      exact (timed is_open).imp_right opening_append
    · rename_i counts
      rw [if_neg counts] at is_open
      exact (timed is_open).imp_right opening_append
  | openCircuit =>
    intro is_open
    by_cases already : b.state = .opened
    · simp only [Call.step, already, ne_eq, not_true_eq_false, if_false]
      exact (timed already).imp_right opening_append
    · simp only [Call.step, ne_eq, already, not_false_eq_true, if_true]
      exact .inr rfl
  | noteOpenedAt => exact fun _ => .inl (Option.some_ne_none _)

/-- In a run in which no success clears the opening time of an open circuit, unless a task is
    about to note another, the breaker is not jammed when no call is in progress. -/
theorem never_jammed (acts : List Act) (spares : Along State.step State.Spares .start acts)
    (quiet : (run State.step .start acts).calls = []) :
    NotJammed (run State.step .start acts).shared := by
  have timed : Timed (run State.step .start acts).shared (run State.step .start acts).calls := by
    refine Tasks.run_keeps Call.begins Call.step (I := Timed) ?_ ?_ ?_ ?_ spares
    · exact fun b calls calls' same => timed_reorder same
    · exact fun b calls call _ => timed_begin call
    · exact fun b others call now spares => timed_made spares
    · nofun
  refine notJammed_of_timed fun is_open => ?_
  have noted := timed is_open
  rw [quiet] at noted
  exact noted.resolve_right (by decide)

/- Calls that nothing interrupts. -/
def failure (now : Int) : List Act := [.begin .recordFailure, .step 0 now, .step 0 now, .step 0 now]

def success (now : Int) : List Act := [.begin .recordSuccess, .step 0 now, .step 0 now, .step 0 now]

def fourFailures : List Act := failure 0 ++ failure 1 ++ failure 2 ++ failure 3

theorem never_jammed_opened :
    (run State.step .start (fourFailures ++ failure 4)).shared.state = .opened ∧
      NotJammed (run State.step .start (fourFailures ++ failure 4)).shared :=
  ⟨by decide, never_jammed _ (by decide) (by decide)⟩

/- A success closes the circuit, a failure counted before it opens it again and notes the time,
   and then the success clears the time. -/
def successAmidFailure : List Act :=
  [.begin .recordFailure, .step 0 4, .begin .recordSuccess, .step 0 4, .step 0 4, .step 1 4,
    .step 0 4, .step 0 4]

theorem opened_without_time : ∃ b : CircuitBreaker,
    run State.step .start (fourFailures ++ successAmidFailure) = ⟨b, []⟩ ∧
    b.state = .opened ∧ b.openedAt = none ∧ (∀ now, isAllowed b now = (b, false)) ∧
    ¬ NotJammed b := by
  refine ⟨⟨.opened, 0, none⟩, by decide, rfl, rfl, fun now => rfl, fun fine => ?_⟩
  exact fine.timed rfl rfl

end SentinelAgent.Sync.Offline
