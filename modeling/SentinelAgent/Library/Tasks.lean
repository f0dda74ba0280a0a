import SentinelAgent.Library.Places
import SentinelAgent.Library.Runs

/-!
Tasks that share a state. Each has a call to make next; a step makes the call of one of them,
which changes what is shared and leaves the task with another call, or ends it. The rule for
invariants looks at one call and the others beside it, in whatever order they stand.
-/
namespace Tasks

variable {S C E : Type}

structure State (S C : Type) where
  shared : S
  calls : List C
  deriving DecidableEq

inductive Act (C E : Type) where
  | begin (call : C)
  | step (n : Nat) (event : E)
  deriving DecidableEq

section Steps

variable (begins : C → Bool) (make : S → C → E → S × Option C)

def next (s : State S C) : Act C E → State S C
  | .begin call => if begins call then { s with calls := call :: s.calls } else s
  | .step n event =>
    match s.calls[n]? with
    | some call =>
      { shared := (make s.shared call event).1
        calls := (make s.shared call event).2.toList ++ s.calls.eraseIdx n }
    | none => s

/- Whether a call that is made meets a condition beside the others. -/
def Meets (condition : S → List C → C → E → Prop) (s : State S C) : Act C E → Prop
  | .begin _ => True
  | .step n event =>
    ∀ call ∈ s.calls[n]?, condition s.shared (s.calls.eraseIdx n) call event

instance (condition : S → List C → C → E → Prop)
    [∀ s others call event, Decidable (condition s others call event)] (s : State S C)
    (act : Act C E) : Decidable (Meets condition s act) :=
  match act with
  | .begin _ => isTrue trivial
  | .step n event =>
    inferInstanceAs (Decidable (∀ call ∈ s.calls[n]?,
      condition s.shared (s.calls.eraseIdx n) call event))

/-- The invariant rule: what does not depend on the order of the calls, and is kept when a task
    begins and when one of them makes its call, is kept by a run. -/
theorem run_keeps {condition : S → List C → C → E → Prop} {I : S → List C → Prop}
    (reorder : ∀ s calls calls', calls.Perm calls' → I s calls → I s calls')
    (entered : ∀ s calls call, begins call → I s calls → I s (call :: calls))
    (made : ∀ s others call event, condition s others call event → I s (call :: others) →
      I (make s call event).1 ((make s call event).2.toList ++ others))
    {s : State S C} (start : I s.shared s.calls) {acts : List (Act C E)}
    (along : Runs.Along (next begins make) (Meets condition) s acts) :
    I (Runs.run (next begins make) s acts).shared (Runs.run (next begins make) s acts).calls := by
  refine Runs.run_keeps (I := fun s => I s.shared s.calls) (fun s act kept meets => ?_) start along
  cases act with
  | begin call =>
    by_cases may : begins call
    · simp only [next, may, if_true]
      exact entered s.shared s.calls call may kept
    · simp only [next, may, if_false, Bool.false_eq_true]
      exact kept
  | step n event =>
    cases found : s.calls[n]? with
    | none =>
      simp only [next, found]
      exact kept
    | some call =>
      simp only [next, found]
      exact made s.shared (s.calls.eraseIdx n) call event (meets call found)
        (reorder _ _ _ (Places.place_perm found).symm kept)

end Steps

end Tasks
