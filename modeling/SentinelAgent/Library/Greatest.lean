import Mathlib.Data.List.MinMax

/-!
The first of the greatest in a list, found by holding on to one until a greater one comes, and
what a store holds that keeps the greatest under each key.
-/
namespace Greatest
open Std

variable {α : Type} (cmp : α → α → Ordering)

/- What is held gives way to what is greater only. -/
def better : Option α → α → Option α := List.argAux fun x held => cmp x held = .gt

def greatest (xs : List α) : Option α := xs.foldl (better cmp) none

variable {cmp} {xs : List α}

theorem greatest_append (xs : List α) (x : α) :
    greatest cmp (xs ++ [x]) = better cmp (greatest cmp xs) x := by
  simp [greatest]

theorem greatest_mem {x : α} (found : greatest cmp xs = some x) : x ∈ xs := by
  induction xs using List.reverseRecOn with
  | nil => simp [greatest] at found
  | append_singleton xs y ih =>
    rw [greatest_append] at found
    cases held : greatest cmp xs with
    | none =>
      have same : y = x := by simpa [held, better, List.argAux] using found
      simp [same]
    | some z =>
      by_cases greater : cmp y z = .gt
      · have same : y = x := by simpa [held, better, List.argAux, greater] using found
        simp [same]
      · have same : z = x := by simpa [held, better, List.argAux, greater] using found
        exact List.mem_append_left _ (ih (held.trans (congrArg some same)))

theorem le_greatest [TransCmp cmp] {x : α} (found : greatest cmp xs = some x) :
    ∀ y ∈ xs, (cmp y x).isLE = true := by
  intro y member
  have irreflexive : Std.Irrefl fun x y => cmp x y = .gt :=
    ⟨fun z => by simp [ReflCmp.compare_self]⟩
  have transitive : IsTrans α fun x y => cmp x y = .gt := ⟨fun _ _ _ => TransCmp.gt_trans⟩
  have not_greater := List.not_of_mem_foldl_argAux _ irreflexive transitive member found
  cases compared : cmp y x
  · rfl
  · rfl
  · exact absurd compared not_greater

/-- There is a greatest one, unless there is none at all. -/
theorem exists_greatest [TransCmp cmp] (some : xs ≠ []) :
    ∃ x, greatest cmp xs = .some x ∧ x ∈ xs ∧ ∀ y ∈ xs, (cmp y x).isLE = true := by
  cases found : greatest cmp xs with
  | none => exact absurd ((List.foldl_argAux_eq_none _).mp found).1 some
  | some x => exact ⟨x, rfl, greatest_mem found, le_greatest found⟩

theorem greatest_keeps {x : α} (after : List α) (none_greater : ∀ y ∈ after, (cmp y x).isLE = true) :
    after.foldl (better cmp) (some x) = some x := by
  induction after with
  | nil => rfl
  | cons y after ih =>
    have not_greater : cmp y x ≠ .gt := fun greater => by
      simpa [greater] using none_greater y List.mem_cons_self
    rw [List.foldl_cons]
    simp only [better, List.argAux, if_neg not_greater] at ih ⊢
    exact ih fun z member => none_greater z (List.mem_cons_of_mem _ member)

/-- It is above all that stand before it, and nothing after it is above it. -/
theorem greatest_eq_some [TransCmp cmp] {x : α} : greatest cmp xs = some x ↔
    ∃ before after, xs = before ++ x :: after ∧ (∀ y ∈ before, cmp y x = .lt) ∧
      ∀ y ∈ after, (cmp y x).isLE = true := by
  constructor
  · intro found
    induction xs using List.reverseRecOn with
    | nil => simp [greatest] at found
    | append_singleton xs y ih =>
      rw [greatest_append] at found
      cases held : greatest cmp xs with
      | none =>
        have empty : xs = [] := ((List.foldl_argAux_eq_none _).mp held).1
        have same : y = x := by simpa [held, better, List.argAux] using found
        exact ⟨[], [], by simp [empty, same], by simp, by simp⟩
      | some z =>
        by_cases greater : cmp y z = .gt
        · have same : y = x := by simpa [held, better, List.argAux, greater] using found
          subst same
          have less : cmp z y = .lt := OrientedCmp.lt_of_gt greater
          exact ⟨xs, [], rfl, fun w member =>
            TransCmp.lt_of_isLE_of_lt (le_greatest held w member) less, by simp⟩
        · have same : z = x := by simpa [held, better, List.argAux, greater] using found
          subst same
          obtain ⟨before, after, parts, below, above⟩ := ih held
          refine ⟨before, after ++ [y], by simp [parts], below, ?_⟩
          intro w member
          rcases List.mem_append.mp member with earlier | last
          · exact above w earlier
          · rw [List.mem_singleton.mp last]
            cases compared : cmp y z
            · rfl
            · rfl
            · exact absurd compared greater
  · rintro ⟨before, after, rfl, below, above⟩
    have first : before.foldl (better cmp) none = greatest cmp before := rfl
    rw [greatest, List.foldl_append, first, List.foldl_cons]
    have reached : better cmp (greatest cmp before) x = some x := by
      cases held : greatest cmp before with
      | none => rfl
      | some z =>
        have greater : cmp x z = .gt := OrientedCmp.gt_of_lt (below z (greatest_mem held))
        simp [better, List.argAux, greater]
    rw [reached]
    exact greatest_keeps after above

/-- What is held under a key is the greatest of what came with the key. -/
theorem held_foldl {S E K : Type} [DecidableEq K] {step : S → E → S} {held : S → Option α}
    {key : E → K} {value : E → α} {k : K}
    (one : ∀ s e, held (step s e) =
      if key e = k then better cmp (held s) (value e) else held s)
    (es : List E) {s : S} (none : held s = .none) :
    held (es.foldl step s) = greatest cmp ((es.filter (key · = k)).map value) := by
  induction es using List.reverseRecOn with
  | nil => exact none
  | append_singleton es e ih =>
    rw [List.foldl_append, List.foldl_cons, List.foldl_nil, one, ih, List.filter_append,
      List.map_append]
    by_cases same : key e = k
    · simp [same, greatest_append]
    · simp [same]

end Greatest
