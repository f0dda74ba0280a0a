import Mathlib.Data.List.Basic
import Mathlib.Data.List.Pairwise

/-!
Batches of commands that may fail. A command fails where the state leaves it nothing to do, or
because it is refused; `refused n` says that of the batch's command number `n`. A batch is run
to its end whatever fails, or up to the first failure, after which another batch clears up.
-/
namespace Batches

variable {S C : Type*} (exec : S → C → Option S)

def later (refused : Nat → Bool) : Nat → Bool := fun n => refused (n + 1)

/-- The state after a command that may be refused. -/
def after (s : S) (c : C) (refuse : Bool) : S := if refuse then s else (exec s c).getD s

def bestEffort (s : S) : List C → (Nat → Bool) → S
  | [], _ => s
  | c :: cs, refused => bestEffort (after exec s c (refused 0)) cs (later refused)

/-- The state, and whether every command succeeded. -/
def orRollback (rollback : List C) (back : Nat → Bool) (s : S) :
    List C → (Nat → Bool) → S × Bool
  | [], _ => (s, true)
  | c :: cs, refused =>
    match if refused 0 then none else exec s c with
    | none => (bestEffort exec s rollback back, false)
    | some s' => orRollback rollback back s' cs (later refused)

/-- No command that had an effect to make is refused. -/
def Harmless (s : S) : List C → (Nat → Bool) → Prop
  | [], _ => True
  | c :: cs, refused => (refused 0 = true → (exec s c).getD s = s) ∧
      Harmless (after exec s c (refused 0)) cs (later refused)

def never : Nat → Bool := fun _ => false

@[simp] theorem later_never : later never = never := rfl

@[simp] theorem after_never (s : S) (c : C) (n : Nat) :
    after exec s c (never n) = (exec s c).getD s := rfl

theorem bestEffort_harmless {s : S} {cs : List C} {refused : Nat → Bool}
    (harmless : Harmless exec s cs refused) :
    bestEffort exec s cs refused = bestEffort exec s cs never := by
  induction cs generalizing s refused with
  | nil => rfl
  | cons c cs ih =>
    obtain ⟨first, rest⟩ := harmless
    have same : after exec s c (refused 0) = after exec s c (never 0) := by
      cases refuse : refused 0 with
      | false => rfl
      | true => simp [after, never, first refuse]
    rw [bestEffort, bestEffort, ih rest, same, later_never]

theorem harmless_never (s : S) (cs : List C) : Harmless exec s cs never := by
  induction cs generalizing s with
  | nil => trivial
  | cons c cs ih => exact ⟨fun refuse => Bool.noConfusion refuse, ih _⟩

theorem bestEffort_append (s : S) (first second : List C) :
    bestEffort exec s (first ++ second) never =
      bestEffort exec (bestEffort exec s first never) second never := by
  induction first generalizing s with
  | nil => rfl
  | cons c cs ih => exact ih _

/-- A command with nothing to do changes nothing. -/
theorem harmless_idle {s : S} {cs : List C} (idle : ∀ c ∈ cs, (exec s c).getD s = s)
    (refused : Nat → Bool) : Harmless exec s cs refused ∧ bestEffort exec s cs refused = s := by
  induction cs generalizing refused with
  | nil => exact ⟨trivial, rfl⟩
  | cons c cs ih =>
    have first := idle c List.mem_cons_self
    have same : after exec s c (refused 0) = s := by
      cases refuse : refused 0 <;> simp [after, first]
    obtain ⟨harmless, unchanged⟩ :=
      ih (fun c member => idle c (List.mem_cons_of_mem _ member)) (later refused)
    rw [Harmless, bestEffort, same]
    exact ⟨⟨fun _ => first, harmless⟩, unchanged⟩

/-- The clearing batch, should it run, is refused nothing it has to do. -/
def RollbackHarmless (rollback : List C) (back : Nat → Bool) (s : S) :
    List C → (Nat → Bool) → Prop
  | [], _ => True
  | c :: cs, refused =>
    match if refused 0 then none else exec s c with
    | none => Harmless exec s rollback back
    | some s' => RollbackHarmless rollback back s' cs (later refused)

theorem rollbackHarmless_never (rollback : List C) (s : S) (cs : List C)
    (refused : Nat → Bool) : RollbackHarmless exec rollback never s cs refused := by
  induction cs generalizing s refused with
  | nil => trivial
  | cons c cs ih =>
    rw [RollbackHarmless]
    split
    · exact harmless_never exec s rollback
    · exact ih _ _

/-- A run up to the first failure: all the commands, or some of the first ones and then the
    clearing batch. -/
theorem orRollback_cases (rollback : List C) (back : Nat → Bool) (s : S) (cs : List C)
    (refused : Nat → Bool) :
    (∃ s', cs.foldlM exec s = some s' ∧ orRollback exec rollback back s cs refused = (s', true) ∧
      RollbackHarmless exec rollback back s cs refused ∧
      ∀ n < cs.length, refused n = false) ∨
    ∃ n s', n < cs.length ∧ (cs.take n).foldlM exec s = some s' ∧
      orRollback exec rollback back s cs refused = (bestEffort exec s' rollback back, false) ∧
      (RollbackHarmless exec rollback back s cs refused ↔ Harmless exec s' rollback back) := by
  induction cs generalizing s refused with
  | nil => exact Or.inl ⟨s, rfl, rfl, trivial, by simp⟩
  | cons c cs ih =>
    cases ran : (if refused 0 then none else exec s c) with
    | none =>
      refine Or.inr ⟨0, s, by simp, rfl, ?_, ?_⟩
      · simp [orRollback, ran]
      · simp [RollbackHarmless, ran]
    | some s' =>
      have accepted : refused 0 = false ∧ exec s c = some s' := by
        cases refuse : refused 0 <;> simp_all
      obtain ⟨first, done⟩ := accepted
      have goes_on : orRollback exec rollback back s (c :: cs) refused =
          orRollback exec rollback back s' cs (later refused) := by
        simp [orRollback, ran]
      have harmless : RollbackHarmless exec rollback back s (c :: cs) refused ↔
          RollbackHarmless exec rollback back s' cs (later refused) := by
        simp [RollbackHarmless, ran]
      rcases ih s' (later refused) with ⟨last, all, result, quiet, none_refused⟩ |
        ⟨n, last, some_left, part, result, quiet⟩
      · refine Or.inl ⟨last, by simp [done, all], goes_on.trans result, harmless.mpr quiet, ?_⟩
        intro n bound
        cases n with
        | zero => exact first
        | succ n => exact none_refused n (by simpa using bound)
      · exact Or.inr ⟨n + 1, last, by simpa using some_left, by simp [done, part],
          goes_on.trans result, harmless.trans quiet⟩

/-- Commands of which none fails are all run. -/
theorem orRollback_all (rollback : List C) (back : Nat → Bool) {s s' : S} {cs : List C}
    {refused : Nat → Bool} (all : cs.foldlM exec s = some s')
    (accepted : ∀ n < cs.length, refused n = false) :
    orRollback exec rollback back s cs refused = (s', true) := by
  induction cs generalizing s refused with
  | nil =>
    rw [List.foldlM_nil] at all
    rw [orRollback, Option.some.inj all]
  | cons c cs ih =>
    have first := accepted 0 (by simp)
    cases ran : exec s c with
    | none => simp [ran] at all
    | some next =>
      simp only [List.foldlM_cons, ran, Option.bind_eq_bind, Option.bind_some] at all
      simp only [orRollback, first, ran, Bool.false_eq_true, if_false]
      apply ih all
      intro n bound
      exact accepted (n + 1) (by simpa using bound)

/-- A batch that succeeds unless refused: it runs whole where it is refused nothing, and else
    clears up after some of its first commands. -/
theorem orRollback_whole (rollback : List C) (back : Nat → Bool) {s s' : S} {cs : List C}
    {refused : Nat → Bool} (all : cs.foldlM exec s = some s') :
    ((∀ n < cs.length, refused n = false) ∧
      orRollback exec rollback back s cs refused = (s', true) ∧
      RollbackHarmless exec rollback back s cs refused) ∨
    (¬ (∀ n < cs.length, refused n = false) ∧ ∃ n part, (cs.take n).foldlM exec s = some part ∧
      orRollback exec rollback back s cs refused = (bestEffort exec part rollback back, false) ∧
      (RollbackHarmless exec rollback back s cs refused ↔ Harmless exec part rollback back)) := by
  rcases orRollback_cases exec rollback back s cs refused with
    ⟨last, done, result, quiet, accepted⟩ | ⟨n, part, _, first, result, quiet⟩
  · rw [all] at done
    cases done
    exact Or.inl ⟨accepted, result, quiet⟩
  · right
    constructor
    · intro accepted
      have whole := orRollback_all exec rollback back all accepted
      rw [result] at whole
      cases whole
    · exact ⟨n, part, first, result, quiet⟩

/-- Where each command has a trace that only it removes, a clearing batch that clears
    everything was refused nothing it had to do. -/
theorem harmless_of_cleared (trace : C → S → Prop)
    (cs : List C) (effect : ∀ c ∈ cs, ∀ s, (exec s c).getD s ≠ s → trace c s)
    (keeps : cs.Pairwise fun c other => ∀ s, trace c s → trace c ((exec s other).getD s))
    {s : S} {refused : Nat → Bool}
    (cleared : ∀ c ∈ cs, ¬ trace c (bestEffort exec s cs refused)) :
    Harmless exec s cs refused := by
  induction cs generalizing s refused with
  | nil => trivial
  | cons c cs ih =>
    obtain ⟨keeps_first, keeps⟩ := List.pairwise_cons.mp keeps
    constructor
    · intro refuse
      by_contra effective
      have left : ∀ (others : List C) (s : S) (refused : Nat → Bool),
          (∀ other ∈ others, ∀ s, trace c s → trace c ((exec s other).getD s)) →
          trace c s → trace c (bestEffort exec s others refused) := by
        intro others
        induction others with
        | nil => exact fun s _ _ present => present
        | cons other others ih =>
          intro s refused keeps present
          apply ih _ _ fun other member => keeps other (List.mem_cons_of_mem _ member)
          cases refuse : refused 0 with
          | true => simpa [after] using present
          | false => simpa [after] using keeps other List.mem_cons_self s present
      have remains := left cs s (later refused) keeps_first
        (effect c List.mem_cons_self s effective)
      apply cleared c List.mem_cons_self
      rw [bestEffort, refuse]
      exact remains
    · exact ih (fun other member => effect other (List.mem_cons_of_mem _ member)) keeps
        fun other member => cleared other (List.mem_cons_of_mem _ member)

end Batches
