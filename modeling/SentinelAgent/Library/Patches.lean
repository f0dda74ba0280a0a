import Mathlib.Algebra.GroupWithZero.Nat
import Mathlib.Data.List.Infix

/-!
How one list becomes another: entries kept, removed and added, the changes in groups that say
where they stand in the new list. The fewest changes there can be leave a longest common part.
-/
namespace Patches

variable {A : Type}

inductive Step (A : Type) where
  | keep (a : A)
  | change (added : Bool) (a : A)

def olds (steps : List (Step A)) : List A :=
  steps.filterMap fun
    | .keep a => some a
    | .change added a => if added then none else some a

def news (steps : List (Step A)) : List A :=
  steps.filterMap fun
    | .keep a => some a
    | .change added a => if added then some a else none

def kept (steps : List (Step A)) : List A :=
  steps.filterMap fun
    | .keep a => some a
    | .change .. => none

def changes (steps : List (Step A)) : List (Bool × A) :=
  steps.filterMap fun
    | .keep _ => none
    | .change added a => some (added, a)

def removed (changes : List (Bool × A)) : List A := (changes.filter (!·.1)).map Prod.snd

def added (changes : List (Bool × A)) : List A := (changes.filter (·.1)).map Prod.snd

/- Changes with nothing kept between them, and the place of the first in the new list. -/
structure ChangeGroup (A : Type) where
  line : Nat
  changes : List (Bool × A)

def startsChanged : List (Step A) → Bool
  | .change .. :: _ => true
  | _ => false

/- A change belongs to the group that begins right after it. -/
def joined (line : Nat) (change : Bool × A) : Bool → List (ChangeGroup A) → List (ChangeGroup A)
  | true, group :: groups => ⟨line, change :: group.changes⟩ :: groups
  | _, groups => ⟨line, [change]⟩ :: groups

def groupsFrom : Nat → List (Step A) → List (ChangeGroup A)
  | _, [] => []
  | line, .keep _ :: steps => groupsFrom (line + 1) steps
  | line, .change added a :: steps =>
    joined line (added, a) (startsChanged steps)
      (groupsFrom (if added then line + 1 else line) steps)

/- The groups applied one after the other, so many entries of the new list being there already. -/
def applyFrom [DecidableEq A] : Nat → List (ChangeGroup A) → List A → Option (List A)
  | _, [], old => some old
  | there, group :: groups, old =>
    let same := group.line - 1 - there
    let rest := old.drop same
    if there < group.line ∧ same ≤ old.length ∧ removed group.changes <+: rest then
      (applyFrom (there + same + (added group.changes).length) groups
          (rest.drop (removed group.changes).length)).map fun new =>
        old.take same ++ (added group.changes ++ new)
    else none

def cost (groups : List (ChangeGroup A)) : Nat := (groups.map fun group => group.changes.length).sum

section Apply

theorem joined_cases (line : Nat) (change : Bool × A) (starts : Bool) (later : List (ChangeGroup A)) :
    (∃ group groups, starts = true ∧ later = group :: groups ∧
      joined line change starts later = ⟨line, change :: group.changes⟩ :: groups) ∨
      (starts = true → later = []) ∧ joined line change starts later = ⟨line, [change]⟩ :: later := by
  cases starts with
  | false => exact Or.inr ⟨fun starts => absurd starts Bool.false_ne_true, rfl⟩
  | true =>
    cases later with
    | nil => exact Or.inr ⟨fun _ => rfl, rfl⟩
    | cons group groups => exact Or.inl ⟨group, groups, rfl, rfl, rfl⟩

theorem startsChanged_iff {steps : List (Step A)} :
    startsChanged steps = true ↔ ∃ added a rest, steps = .change added a :: rest := by
  constructor
  · intro starts
    match steps, starts with
    | .change added a :: rest, _ => exact ⟨added, a, rest, rfl⟩
  · rintro ⟨added, a, rest, rfl⟩
    rfl

/- The first group of the steps stands where the change is. -/
theorem groups_change (line : Nat) (added : Bool) (a : A) (steps : List (Step A)) :
    ∃ more groups, groupsFrom line (.change added a :: steps) =
      ⟨line, (added, a) :: more⟩ :: groups := by
  rw [groupsFrom]
  rcases joined_cases line (added, a) (startsChanged steps)
    (groupsFrom (if added then line + 1 else line) steps) with ⟨group, groups, _, _, shape⟩ | ⟨_, shape⟩
  · exact ⟨group.changes, groups, shape⟩
  · exact ⟨[], _, shape⟩

theorem groups_line {line : Nat} {steps : List (Step A)} {group : ChangeGroup A}
    {groups : List (ChangeGroup A)} (found : groupsFrom line steps = group :: groups) :
    line ≤ group.line := by
  induction steps generalizing line with
  | nil => cases found
  | cons step steps ih =>
    cases step with
    | keep a => exact Nat.le_of_succ_le (ih found)
    | change added a =>
      obtain ⟨more, rest, shape⟩ := groups_change line added a steps
      rw [shape] at found
      rw [← (List.cons.inj found).1]

variable [DecidableEq A]

theorem apply_keep {there : Nat} {groups : List (ChangeGroup A)}
    (later : ∀ group rest, groups = group :: rest → there + 2 ≤ group.line) (a : A)
    (old : List A) :
    applyFrom there groups (a :: old) = (applyFrom (there + 1) groups old).map (a :: ·) := by
  cases groups with
  | nil => rfl
  | cons group groups =>
    have place := later group groups rfl
    obtain ⟨same, shift⟩ : ∃ same, group.line - 1 - there = same + 1 :=
      ⟨group.line - 2 - there, by omega⟩
    have shift' : group.line - 1 - (there + 1) = same := by omega
    have before : there < group.line ∧ there + 1 < group.line := by omega
    have count : there + (same + 1) = there + 1 + same := by omega
    rw [applyFrom, applyFrom]
    simp only [shift, shift', before.1, before.2, true_and, List.drop_succ_cons,
      List.length_cons, Nat.add_le_add_iff_right, List.take_succ_cons, count]
    split
    · rw [Option.map_map]
      rfl
    · rfl

theorem apply_nothing (there : Nat) (groups : List (ChangeGroup A)) (old : List A) :
    applyFrom there (⟨there + 1, []⟩ :: groups) old = applyFrom there groups old := by
  rw [applyFrom]
  simp [removed, added]

theorem apply_removed (there : Nat) (a : A) (more : List (Bool × A)) (groups : List (ChangeGroup A))
    (old : List A) : applyFrom there (⟨there + 1, (false, a) :: more⟩ :: groups) (a :: old) =
      applyFrom there (⟨there + 1, more⟩ :: groups) old := by
  rw [applyFrom, applyFrom]
  simp [removed, added]

theorem apply_added (there : Nat) (a : A) (more : List (Bool × A)) (groups : List (ChangeGroup A))
    (old : List A) : applyFrom there (⟨there + 1, (true, a) :: more⟩ :: groups) old =
      (applyFrom (there + 1) (⟨there + 2, more⟩ :: groups) old).map (a :: ·) := by
  have none_same : there + 1 - 1 - there = 0 := by omega
  have none_same' : there + 2 - 1 - (there + 1) = 0 := by omega
  have count : there + ((added more).length + 1) = there + 1 + (added more).length := by omega
  have removes : removed ((true, a) :: more) = removed more := rfl
  have adds : added ((true, a) :: more) = a :: added more := rfl
  rw [applyFrom, applyFrom]
  simp only [none_same, none_same', removes, adds, List.length_cons, List.take_zero,
    List.drop_zero, List.nil_append, Nat.add_zero, Nat.lt_add_one, Nat.zero_le, true_and, count]
  split
  · rw [Option.map_map]
    rfl
  · rfl

/- The first change of a group, and what the rest of the group and the groups after it do. -/
theorem groups_first (line : Nat) (added : Bool) (a : A) (steps : List (Step A)) :
    ∃ more groups, groupsFrom (line + 1) (.change added a :: steps) =
        ⟨line + 1, (added, a) :: more⟩ :: groups ∧
      ∀ old, applyFrom (if added then line + 1 else line)
          (⟨(if added then line + 1 else line) + 1, more⟩ :: groups) old =
        applyFrom (if added then line + 1 else line)
          (groupsFrom ((if added then line + 1 else line) + 1) steps) old := by
  have next : (if added then line + 1 + 1 else line + 1) =
      (if added then line + 1 else line) + 1 := by
    split <;> rfl
  rw [groupsFrom, next]
  rcases joined_cases (line + 1) (added, a) (startsChanged steps)
    (groupsFrom ((if added then line + 1 else line) + 1) steps) with
      ⟨group, groups, starts, found, shape⟩ | ⟨_, shape⟩
  · obtain ⟨added', a', rest, rfl⟩ := startsChanged_iff.mp starts
    obtain ⟨more, groups', place⟩ := groups_change ((if added then line + 1 else line) + 1) added' a' rest
    rw [place] at found
    obtain ⟨rfl, rfl⟩ := List.cons.inj found
    exact ⟨_, _, shape, fun old => by rw [place]⟩
  · exact ⟨[], _, shape, fun old => apply_nothing _ _ old⟩

/-- The groups of the steps lead from the one list to the other. -/
theorem apply_groups (there : Nat) (steps : List (Step A)) :
    applyFrom there (groupsFrom (there + 1) steps) (olds steps) = some (news steps) := by
  induction steps generalizing there with
  | nil => rfl
  | cons step steps ih =>
    cases step with
    | keep a =>
      have later := ih (there + 1)
      have place : ∀ group rest, groupsFrom (there + 2) steps = group :: rest →
          there + 2 ≤ group.line := fun group rest found => groups_line found
      exact (apply_keep place a (olds steps)).trans (by rw [later]; rfl)
    | change added a =>
      obtain ⟨more, groups, shape, later⟩ := groups_first there added a steps
      rw [shape]
      cases added with
      | false =>
        have removes : olds (.change false a :: steps) = a :: olds steps := rfl
        rw [removes, apply_removed]
        exact (later _).trans (ih there)
      | true =>
        have adds : olds (.change true a :: steps) = olds steps := rfl
        rw [adds, apply_added]
        exact (congrArg (Option.map (a :: ·)) ((later _).trans (ih (there + 1)))).trans rfl

end Apply

section Fewest

theorem olds_length (steps : List (Step A)) :
    (olds steps).length + (news steps).length =
      (changes steps).length + 2 * (kept steps).length := by
  induction steps with
  | nil => rfl
  | cons step steps ih =>
    cases step with
    | keep a =>
      simp only [olds, news, changes, kept, List.filterMap_cons, List.length_cons] at ih ⊢
      omega
    | change added a =>
      cases added <;>
        simp only [olds, news, changes, kept, List.filterMap_cons, List.length_cons, if_true,
          Bool.false_eq_true, if_false] at ih ⊢ <;>
        omega

theorem kept_olds (steps : List (Step A)) : (kept steps).Sublist (olds steps) := by
  induction steps with
  | nil => exact List.Sublist.slnil
  | cons step steps ih =>
    cases step with
    | keep a => exact ih.cons_cons a
    | change added a =>
      cases added with
      | false => exact ih.cons a
      | true => exact ih

theorem kept_news (steps : List (Step A)) : (kept steps).Sublist (news steps) := by
  induction steps with
  | nil => exact List.Sublist.slnil
  | cons step steps ih =>
    cases step with
    | keep a => exact ih.cons_cons a
    | change added a =>
      cases added with
      | false => exact ih
      | true => exact ih.cons a

theorem cost_groups (line : Nat) (steps : List (Step A)) :
    cost (groupsFrom line steps) = (changes steps).length := by
  induction steps generalizing line with
  | nil => rfl
  | cons step steps ih =>
    cases step with
    | keep a => exact ih (line + 1)
    | change added a =>
      have later := ih (if added then line + 1 else line)
      have more : (changes (.change added a :: steps)).length = (changes steps).length + 1 := rfl
      rw [groupsFrom, more, ← later]
      rcases joined_cases line (added, a) (startsChanged steps)
        (groupsFrom (if added then line + 1 else line) steps) with
          ⟨group, groups, _, found, shape⟩ | ⟨_, shape⟩
      · rw [shape, found]
        simp only [cost, List.map_cons, List.sum_cons, List.length_cons]
        omega
      · rw [shape]
        simp only [cost, List.map_cons, List.sum_cons, List.length_cons, List.length_nil]
        omega

theorem changes_length (changes : List (Bool × A)) :
    (removed changes).length + (added changes).length = changes.length := by
  induction changes with
  | nil => rfl
  | cons change changes ih =>
    obtain ⟨added', a⟩ := change
    cases added' <;> simp [removed, added] at ih ⊢ <;> omega

/-- Groups that lead from one list to another leave a common part of both, and the more there is
of it the fewer the changes. -/
theorem applied_common [DecidableEq A] {there : Nat} {groups : List (ChangeGroup A)} {old new : List A}
    (applied : applyFrom there groups old = some new) : ∃ common : List A,
      common.Sublist old ∧ common.Sublist new ∧
        old.length + new.length = cost groups + 2 * common.length := by
  induction groups generalizing there old new with
  | nil =>
    obtain rfl : old = new := Option.some.inj applied
    refine ⟨old, List.Sublist.refl old, List.Sublist.refl old, ?_⟩
    simp only [cost, List.map_nil, List.sum_nil]
    omega
  | cons group groups ih =>
    rw [applyFrom] at applied
    split at applied
    · rename_i fits
      obtain ⟨later, found, rfl⟩ := Option.map_eq_some_iff.mp applied
      obtain ⟨common, part, part', count⟩ := ih found
      obtain ⟨rest, shape⟩ := fits.2.2
      have left : (old.drop (group.line - 1 - there)).drop (removed group.changes).length = rest := by
        rw [← shape, List.drop_left]
      have whole : old = old.take (group.line - 1 - there) ++ (removed group.changes ++ rest) := by
        rw [shape, List.take_append_drop]
      have lengths := congrArg List.length whole
      have all := changes_length group.changes
      rw [left] at part count
      refine ⟨old.take (group.line - 1 - there) ++ common, ?_, ?_, ?_⟩
      · conv_rhs => rw [whole]
        exact (List.Sublist.refl _).append (part.trans (List.sublist_append_right _ _))
      · exact (List.Sublist.refl _).append (part'.trans (List.sublist_append_right _ _))
      · simp only [cost, List.map_cons, List.sum_cons, List.length_append] at count lengths ⊢
        omega
    · cases applied

/- The changes of a group are steps of a run in which nothing is kept. -/
theorem first_run {line : Nat} {added : Bool} {a : A} {steps : List (Step A)} {group : ChangeGroup A}
    {groups : List (ChangeGroup A)} (found : groupsFrom line (.change added a :: steps) = group :: groups) :
    ∃ run after, .change added a :: steps = run ++ after ∧ kept run = [] ∧
      changes run = group.changes := by
  induction steps generalizing line added a group groups with
  | nil =>
    obtain ⟨rfl, _⟩ := List.cons.inj found
    exact ⟨[.change added a], [], rfl, rfl, rfl⟩
  | cons step steps ih =>
    rw [groupsFrom] at found
    rcases joined_cases line (added, a) (startsChanged (step :: steps))
      (groupsFrom (if added then line + 1 else line) (step :: steps)) with
        ⟨next, others, starts, later, shape⟩ | ⟨_, shape⟩
    · rw [shape] at found
      obtain ⟨rfl, _⟩ := List.cons.inj found
      obtain ⟨added', b, rest, whole⟩ := startsChanged_iff.mp starts
      rw [whole] at later ⊢
      obtain ⟨rfl, rfl⟩ := List.cons.inj whole
      obtain ⟨run, after, parts, none_kept, same⟩ := ih later
      exact ⟨.change added a :: run, after, congrArg (_ :: ·) parts, none_kept,
        congrArg ((added, a) :: ·) same⟩
    · rw [shape] at found
      obtain ⟨rfl, _⟩ := List.cons.inj found
      exact ⟨[.change added a], _, rfl, rfl, rfl⟩

theorem group_run {line : Nat} {steps : List (Step A)} {group : ChangeGroup A}
    (member : group ∈ groupsFrom line steps) : ∃ before run after,
      steps = before ++ (run ++ after) ∧ kept run = [] ∧ changes run = group.changes := by
  induction steps generalizing line with
  | nil => cases member
  | cons step steps ih =>
    have further {line : Nat} (member : group ∈ groupsFrom line steps) : ∃ before run after,
        step :: steps = before ++ (run ++ after) ∧ kept run = [] ∧
          changes run = group.changes := by
      obtain ⟨before, run, after, whole, rest⟩ := ih member
      exact ⟨step :: before, run, after, congrArg (step :: ·) whole, rest⟩
    cases step with
    | keep a => exact further member
    | change added a =>
      cases shape : groupsFrom line (.change added a :: steps) with
      | nil =>
        rw [shape] at member
        cases member
      | cons first groups =>
        rw [shape] at member
        rcases List.mem_cons.mp member with rfl | member
        · obtain ⟨run, after, whole, rest⟩ := first_run shape
          exact ⟨[], run, after, whole, rest⟩
        · rw [groupsFrom] at shape
          rcases joined_cases line (added, a) (startsChanged steps)
            (groupsFrom (if added then line + 1 else line) steps) with
              ⟨next, others, _, later, found⟩ | ⟨_, found⟩
          · rw [found] at shape
            obtain ⟨_, rfl⟩ := List.cons.inj shape
            exact further (later ▸ List.mem_cons_of_mem _ member)
          · rw [found] at shape
            obtain ⟨_, rfl⟩ := List.cons.inj shape
            exact further member

theorem changes_of_run {run : List (Step A)} (none_kept : kept run = []) :
    olds run = removed (changes run) ∧ news run = added (changes run) := by
  induction run with
  | nil => exact ⟨rfl, rfl⟩
  | cons step run ih =>
    cases step with
    | keep a => cases none_kept
    | change added' a =>
      obtain ⟨first, second⟩ := ih none_kept
      cases added' with
      | false => exact ⟨congrArg (a :: ·) first, second⟩
      | true => exact ⟨first, congrArg (a :: ·) second⟩

end Fewest

section Longest
variable [DecidableEq A]

/- The length of the longest common part. -/
def longest : List A → List A → Nat
  | [], _ => 0
  | _ :: _, [] => 0
  | a :: old, b :: new =>
    if a = b then longest old new + 1 else max (longest old (b :: new)) (longest (a :: old) new)
termination_by old new => old.length + new.length

theorem longest_nil (old : List A) : longest old [] = 0 := by
  cases old <;> rw [longest]

theorem length_le_longest {common old new : List A} (part : common.Sublist old)
    (part' : common.Sublist new) : common.length ≤ longest old new := by
  fun_induction longest old new generalizing common with
  | case1 new => exact part.length_le
  | case2 a old => exact part'.length_le
  | case3 a old new ih =>
    have rest := ih part.tail part'.tail
    have length := List.length_tail (l := common)
    omega
  | case4 a old b new different ih ih' =>
    cases part with
    | cons _ skipped => exact Nat.le_trans (ih skipped part') (Nat.le_max_left _ _)
    | cons_cons _ taken =>
      cases part' with
      | cons _ skipped => exact Nat.le_trans (ih' (taken.cons_cons a) skipped) (Nat.le_max_right _ _)
      | cons_cons _ _ => exact absurd rfl different

theorem longest_common (old new : List A) : ∃ common : List A, common.Sublist old ∧
    common.Sublist new ∧ common.length = longest old new := by
  fun_induction longest old new with
  | case1 new => exact ⟨[], List.Sublist.slnil, List.nil_sublist new, rfl⟩
  | case2 a old => exact ⟨[], List.nil_sublist _, List.Sublist.slnil, rfl⟩
  | case3 old b new ih =>
    obtain ⟨common, part, part', length⟩ := ih
    exact ⟨b :: common, part.cons_cons b, part'.cons_cons b, congrArg (· + 1) length⟩
  | case4 a old b new different ih ih' =>
    obtain ⟨common, part, part', length⟩ := ih
    obtain ⟨other, otherPart, otherPart', otherLength⟩ := ih'
    by_cases more : longest (a :: old) new ≤ longest old (b :: new)
    · exact ⟨common, part.cons a, part', by rw [length, Nat.max_eq_left more]⟩
    · exact ⟨other, otherPart, otherPart'.cons b,
        by rw [otherLength, Nat.max_eq_right (Nat.le_of_not_le more)]⟩

theorem longest_start (same old new : List A) :
    longest (same ++ old) (same ++ new) = same.length + longest old new := by
  induction same with
  | nil => exact (Nat.zero_add _).symm
  | cons a same ih =>
    rw [List.cons_append, List.cons_append, longest, if_pos rfl, ih, List.length_cons]
    omega

omit [DecidableEq A] in
theorem dropLast_part {common whole : List A} {a : A} (part : common.Sublist (whole ++ [a])) :
    common.dropLast.Sublist whole := by
  obtain ⟨first, last, rfl, within, ends⟩ := List.sublist_append_iff.mp part
  cases ends with
  | cons _ none_left =>
    obtain rfl := List.sublist_nil.mp none_left
    rw [List.append_nil]
    exact (List.dropLast_sublist first).trans within
  | cons_cons _ none_left =>
    obtain rfl := List.sublist_nil.mp none_left
    rw [List.dropLast_concat]
    exact within

theorem longest_stop (old new same : List A) :
    longest (old ++ same) (new ++ same) ≤ longest old new + same.length := by
  induction same using List.reverseRecOn with
  | nil => simp
  | append_singleton same a ih =>
    obtain ⟨common, part, part', length⟩ :=
      longest_common (old ++ (same ++ [a])) (new ++ (same ++ [a]))
    rw [← List.append_assoc] at part part'
    have shorter := length_le_longest (dropLast_part part) (dropLast_part part')
    rw [List.length_dropLast] at shorter
    rw [List.length_append, List.length_singleton]
    omega

/- Nothing that has to be removed could have been kept instead of an entry added with it. -/
theorem apart_of_longest {before run after : List (Step A)}
    (fewest : (kept (before ++ (run ++ after))).length =
      longest (olds (before ++ (run ++ after))) (news (before ++ (run ++ after))))
    (changed : kept run = []) {a : A} (old : a ∈ olds run) : a ∉ news run := by
  intro new
  have olds_eq : olds (before ++ (run ++ after)) = olds before ++ (olds run ++ olds after) := by
    simp only [olds, List.filterMap_append]
  have news_eq : news (before ++ (run ++ after)) = news before ++ (news run ++ news after) := by
    simp only [news, List.filterMap_append]
  have kept_eq : kept (before ++ (run ++ after)) = kept before ++ (kept run ++ kept after) := by
    simp only [kept, List.filterMap_append]
  have part : (kept before ++ ([a] ++ kept after)).Sublist (olds before ++ (olds run ++ olds after)) :=
    (kept_olds before).append ((List.singleton_sublist.mpr old).append (kept_olds after))
  have part' : (kept before ++ ([a] ++ kept after)).Sublist (news before ++ (news run ++ news after)) :=
    (kept_news before).append ((List.singleton_sublist.mpr new).append (kept_news after))
  have more := length_le_longest part part'
  rw [olds_eq, news_eq, kept_eq, changed] at fewest
  simp only [List.length_append, List.length_singleton, List.length_nil] at more fewest
  omega

/-- Steps that keep as much as there is in common: no group removes what it adds, and no other
patch is cheaper. -/
theorem fewest_changes {line : Nat} {steps : List (Step A)}
    (fewest : (kept steps).length = longest (olds steps) (news steps)) :
    (∀ group ∈ groupsFrom line steps, ∀ a ∈ removed group.changes, a ∉ added group.changes) ∧
      ∀ there groups, applyFrom there groups (olds steps) = some (news steps) →
        cost (groupsFrom line steps) ≤ cost groups := by
  refine ⟨fun group member a old => ?_, fun there groups applied => ?_⟩
  · obtain ⟨before, run, after, rfl, none_kept, same⟩ := group_run member
    obtain ⟨removes, adds⟩ := changes_of_run none_kept
    rw [← same, ← removes] at old
    rw [← same, ← adds]
    exact apart_of_longest fewest none_kept old
  · obtain ⟨common, part, part', count⟩ := applied_common applied
    have most := length_le_longest part part'
    have own := olds_length steps
    rw [cost_groups]
    omega

end Longest

end Patches
