import Mathlib.Data.List.Basic

/-!
Runs of a total step function. An action that cannot happen in a state leaves the state
alone, so every list of actions is a run. `Along` says that each action of a run meets a
condition in the state it is taken in; it is what a conditional invariant is proved over.
-/
namespace Runs

variable {S A : Type*}

def run (step : S → A → S) (s : S) (as : List A) : S := as.foldl step s

def Along (step : S → A → S) (P : S → A → Prop) : S → List A → Prop
  | _, [] => True
  | s, a :: as => P s a ∧ Along step P (step s a) as

/-- The states a run from a start state can end in. -/
def Reachable (step : S → A → S) (start : S → Prop) (s : S) : Prop :=
  ∃ s₀ as, start s₀ ∧ s = run step s₀ as

instance decidableAlong (step : S → A → S) (P : S → A → Prop) [∀ s a, Decidable (P s a)] :
    ∀ s as, Decidable (Along step P s as)
  | _, [] => isTrue trivial
  | s, a :: as =>
    have := decidableAlong step P (step s a) as
    inferInstanceAs (Decidable (P s a ∧ Along step P (step s a) as))

@[simp] theorem run_nil (step : S → A → S) (s : S) : run step s [] = s := rfl

@[simp] theorem run_cons (step : S → A → S) (s : S) (a : A) (as : List A) :
    run step s (a :: as) = run step (step s a) as := rfl

theorem run_append (step : S → A → S) (s : S) (as bs : List A) :
    run step s (as ++ bs) = run step (run step s as) bs :=
  List.foldl_append

theorem along_mono {step : S → A → S} {P Q : S → A → Prop} {s : S} {as : List A}
    (weaker : ∀ s a, P s a → Q s a) (along : Along step P s as) : Along step Q s as := by
  induction as generalizing s with
  | nil => trivial
  | cons a as ih => exact ⟨weaker s a along.1, ih along.2⟩

theorem along_append {step : S → A → S} {P : S → A → Prop} {s : S} {as bs : List A} :
    Along step P s (as ++ bs) ↔ Along step P s as ∧ Along step P (run step s as) bs := by
  induction as generalizing s with
  | nil => simp [Along]
  | cons a as ih => simp only [List.cons_append, Along, ih, run_cons, and_assoc]

theorem along_and {step : S → A → S} {P Q : S → A → Prop} {s : S} {as : List A}
    (first : Along step P s as) (second : Along step Q s as) :
    Along step (fun s a => P s a ∧ Q s a) s as := by
  induction as generalizing s with
  | nil => trivial
  | cons a as ih => exact ⟨⟨first.1, second.1⟩, ih first.2 second.2⟩

theorem along_always {step : S → A → S} {P : S → A → Prop} (always : ∀ s a, P s a) (s : S)
    (as : List A) : Along step P s as := by
  induction as generalizing s with
  | nil => trivial
  | cons a as ih => exact ⟨always s a, ih _⟩

theorem along_congr {step : S → A → S} {P Q : S → A → Prop} {s : S} {as : List A}
    (same : ∀ s a, P s a ↔ Q s a) : Along step P s as ↔ Along step Q s as :=
  ⟨along_mono fun s a => (same s a).mp, along_mono fun s a => (same s a).mpr⟩

/-- What is known of each action by itself. -/
theorem along_and_mem {step : S → A → S} {P : S → A → Prop} {Q : A → Prop} {s : S} {as : List A}
    (along : Along step P s as) (each : ∀ a ∈ as, Q a) :
    Along step (fun s a => P s a ∧ Q a) s as := by
  induction as generalizing s with
  | nil => trivial
  | cons a as ih =>
    exact ⟨⟨along.1, each a List.mem_cons_self⟩,
      ih along.2 fun b member => each b (List.mem_cons_of_mem a member)⟩

/-- A condition that implies another where an invariant holds which it keeps. -/
theorem along_imp {step : S → A → S} {P Q : S → A → Prop} {I : S → Prop}
    (good : ∀ s a, I s → P s a → Q s a) (keep : ∀ s a, I s → P s a → I (step s a))
    {s : S} {as : List A} (start : I s) (along : Along step P s as) : Along step Q s as := by
  induction as generalizing s with
  | nil => trivial
  | cons a as ih =>
    obtain ⟨first, rest⟩ := along
    exact ⟨good s a start first, ih (keep s a start first) rest⟩

/-- Two conditions that agree where an invariant holds which the first keeps. -/
theorem along_iff {step : S → A → S} {P Q : S → A → Prop} {I : S → Prop}
    (same : ∀ s a, I s → (P s a ↔ Q s a)) (keep : ∀ s a, I s → P s a → I (step s a))
    {s : S} {as : List A} (start : I s) : Along step P s as ↔ Along step Q s as := by
  constructor
  · exact along_imp (I := I) (fun s a holds => (same s a holds).mp) keep start
  · exact along_imp (I := I) (fun s a holds => (same s a holds).mpr)
      (fun s a holds other => keep s a holds ((same s a holds).mpr other)) start

/-- The invariant rule: what one step keeps under its condition, a run keeps whose steps
    all meet the condition. -/
theorem run_keeps {step : S → A → S} {P : S → A → Prop} {I : S → Prop}
    (keep : ∀ s a, I s → P s a → I (step s a)) {s : S} {as : List A}
    (start : I s) (along : Along step P s as) : I (run step s as) := by
  induction as generalizing s with
  | nil => exact start
  | cons a as ih => exact ih (keep s a start along.1) along.2

/-- The same rule with an invariant that needs no condition. -/
theorem run_invariant {step : S → A → S} {I : S → Prop}
    (keep : ∀ s a, I s → I (step s a)) {s : S} (start : I s) (as : List A) :
    I (run step s as) := by
  induction as generalizing s with
  | nil => exact start
  | cons a as ih => exact ih (keep s a start)

theorem reachable_invariant {step : S → A → S} {start I : S → Prop}
    (initial : ∀ s, start s → I s) (keep : ∀ s a, I s → I (step s a)) {s : S}
    (reached : Reachable step start s) : I s := by
  obtain ⟨s₀, as, begins, rfl⟩ := reached
  exact run_invariant keep (initial s₀ begins) as

/-- What the actions of a run cost, each in the state it is taken in. -/
def total (step : S → A → S) (cost : S → A → Nat) : S → List A → Nat
  | _, [] => 0
  | s, a :: as => cost s a + total step cost (step s a) as

/-- The progress rule: steps that pay their cost out of a potential, until a goal is reached
    that stays reached, pay no more than the potential there was. -/
theorem run_progress {step : S → A → S} {P : S → A → Prop} (goal pending : S → Prop)
    (potential : S → Nat) (cost : S → A → Nat) (stays : ∀ s a, goal s → goal (step s a))
    (advance : ∀ s a, pending s → P s a → goal (step s a) ∨
      (pending (step s a) ∧ potential (step s a) + cost s a ≤ potential s))
    {s : S} {as : List A} (start : pending s) (along : Along step P s as) :
    goal (run step s as) ∨
      (pending (run step s as) ∧ potential (run step s as) + total step cost s as ≤ potential s) := by
  induction as generalizing s with
  | nil => exact Or.inr ⟨start, Nat.le_refl _⟩
  | cons a as ih =>
    rcases advance s a start along.1 with reached | ⟨still, paid⟩
    · exact Or.inl (run_invariant stays reached as)
    · rcases ih still along.2 with reached | ⟨last, rest⟩
      · exact Or.inl reached
      · refine Or.inr ⟨last, ?_⟩
        simp only [run_cons, total]
        omega

end Runs
