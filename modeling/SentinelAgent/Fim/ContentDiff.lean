import Mathlib.Data.List.GetD
import SentinelAgent.Library.Json
import SentinelAgent.Library.Patches
import SentinelAgent.Library.Text

/-!
The lines removed from a watched file and added to it, as they are reported.
-/
namespace SentinelAgent.Content
open Json Patches Text

def maxDiffChars : Nat := 4000
def maxDiffLines : Nat := 2000

section Table

/- One row of the table, from the row below it. -/
def fillRow (line : String) : List String → List Nat → List Nat
  | [], _ => [0]
  | other :: rest, below =>
    let right := fillRow line rest below.tail
    (if line = other then below.tail.headD 0 + 1 else max (below.headD 0) (right.headD 0)) :: right

/- For each place in both versions the length of the longest common part from there on. -/
def table : List String → List String → List (List Nat)
  | [], new => [List.replicate (new.length + 1) 0]
  | line :: old, new => fillRow line new ((table old new).headD []) :: table old new

def entry (table : List (List Nat)) (row column : Nat) : Nat :=
  (table.getD row []).getD column 0

def rowOf (old new : List String) : List Nat := new.tails.map (longest old)

theorem fillRow_eq (line : String) (old new : List String) :
    fillRow line new (rowOf old new) = rowOf (line :: old) new := by
  induction new with
  | nil => simp [fillRow, rowOf, longest]
  | cons other new ih =>
    have below : (rowOf old (other :: new)).tail = rowOf old new := rfl
    have first : ∀ old : List String, (rowOf old new).headD 0 = longest old new := by
      intro old
      cases new <;> rfl
    have here : (rowOf old (other :: new)).headD 0 = longest old (other :: new) := rfl
    rw [fillRow, below, ih, first, first, here]
    simp only [rowOf, List.tails_cons, List.map_cons]
    rw [longest.eq_def (line :: old) (other :: new)]

theorem table_eq (old new : List String) : table old new = old.tails.map fun old => rowOf old new := by
  induction old with
  | nil =>
    have zeros : ∀ new : List String, List.replicate (new.length + 1) 0 = rowOf [] new := by
      intro new
      induction new with
      | nil => simp [rowOf, longest]
      | cons line new ih =>
        rw [List.length_cons, List.replicate_succ, ih]
        simp [rowOf, longest]
    rw [table, zeros]
    rfl
  | cons line old ih =>
    have first : (old.tails.map fun old => rowOf old new).headD [] = rowOf old new := by
      cases old <;> rfl
    rw [table, ih, first, fillRow_eq]
    simp

theorem tails_getD {B : Type} (f : List String → B) (b : B) {lines : List String} {n : Nat}
    (within : n ≤ lines.length) : (lines.tails.map f).getD n b = f (lines.drop n) := by
  have inside : n < (lines.tails.map f).length := by
    rw [List.length_map, List.length_tails]
    omega
  rw [List.getD_eq_getElem _ _ inside, List.getElem_map, List.getElem_tails]

theorem entry_table {old new : List String} {row column : Nat} (rows : row ≤ old.length)
    (columns : column ≤ new.length) :
    entry (table old new) row column = longest (old.drop row) (new.drop column) := by
  rw [entry, table_eq, tails_getD _ _ rows, rowOf, tails_getD _ _ columns]

end Table

section Walk

def header (line : Nat) : List Char := "@@ line ".toList ++ line.repr.toList ++ ['\n']

def changeText (added : Bool) (line : String) : List Char :=
  (if added then '+' else '-') :: (line.toList ++ ['\n'])

/- The characters that begin within so many bytes. -/
def cutAt : Nat → List Char → List Char
  | _, [] => []
  | bytes, c :: rest =>
    if bytes ≤ maxDiffChars then c :: cutAt (bytes + c.utf8Size) rest else []

def cutShort (out : List Char) : List Char :=
  cutAt 0 out ++ "\n… (the rest of the difference is not shown)\n".toList

/- A change put behind the text so far, under a header of its own where a group begins. -/
def push (out : List Char) (inGroup : Bool) (line : Nat) (added : Bool) (text : String) :
    List Char :=
  out ++ ((if inGroup then [] else header line) ++ changeText added text)

variable (table : Nat → Nat → Nat) (start : Nat)

/- The walk through the table, from a row and a column on with the lines left there. -/
def walk (row column : Nat) (old new : List String) (out : List Char) (inGroup : Bool) :
    List Char :=
  match old, new with
  | [], [] => out
  | line :: old, [] =>
    let out := push out inGroup (start + column + 1) false line
    if maxDiffChars < utf8Length out then cutShort out
    else walk (row + 1) column old [] out true
  | [], line :: new =>
    let out := push out inGroup (start + column + 1) true line
    if maxDiffChars < utf8Length out then cutShort out
    else walk row (column + 1) [] new out true
  | line :: old, other :: new =>
    if line = other then walk (row + 1) (column + 1) old new out false
    else if table row (column + 1) ≤ table (row + 1) column then
      let out := push out inGroup (start + column + 1) false line
      if maxDiffChars < utf8Length out then cutShort out
      else walk (row + 1) column old (other :: new) out true
    else
      let out := push out inGroup (start + column + 1) true other
      if maxDiffChars < utf8Length out then cutShort out
      else walk row (column + 1) (line :: old) new out true
termination_by old.length + new.length

/- The steps of the walk. -/
def steps (row column : Nat) (old new : List String) : List (Step String) :=
  match old, new with
  | [], [] => []
  | line :: old, [] => .change false line :: steps (row + 1) column old []
  | [], line :: new => .change true line :: steps row (column + 1) [] new
  | line :: old, other :: new =>
    if line = other then .keep line :: steps (row + 1) (column + 1) old new
    else if table row (column + 1) ≤ table (row + 1) column then
      .change false line :: steps (row + 1) column old (other :: new)
    else .change true other :: steps row (column + 1) (line :: old) new
termination_by old.length + new.length

/- How many lines two versions have in common from the start. -/
def commonStart (old new : List String) : Nat :=
  ((old.zip new).takeWhile fun pair => pair.1 = pair.2).length

def tooMany (start removed added : Nat) : List Char :=
  header (start + 1) ++ '(' :: (removed.repr.toList ++ " lines replaced by ".toList ++
    added.repr.toList ++ ": too many to list)\n".toList)

/- The lines in between, with what the versions share at their start and end set aside. -/
structure Middle where
  start : Nat
  old : List String
  new : List String

def middle (oldLines newLines : List String) : Middle :=
  let start := commonStart oldLines newLines
  let stop := commonStart (oldLines.drop start).reverse (newLines.drop start).reverse
  { start
    old := (oldLines.take (oldLines.length - stop)).drop start
    new := (newLines.take (newLines.length - stop)).drop start }

def diffLines (old new : String) : Option String :=
  let between := middle (lines old) (lines new)
  if between.old = [] ∧ between.new = [] then none
  else if maxDiffLines < between.old.length ∨ maxDiffLines < between.new.length then
    some (String.ofList (tooMany between.start between.old.length between.new.length))
  else
    let entries := entry (Content.table between.old between.new)
    some (String.ofList (walk entries between.start 0 0 between.old between.new [] false))

end Walk

section Reported

/- The steps from a line on as they are reported. -/
def render : Nat → Bool → List (Step String) → List Char
  | _, _, [] => []
  | line, _, .keep _ :: steps => render (line + 1) false steps
  | line, inGroup, .change added text :: steps =>
    ((if inGroup then [] else header line) ++ changeText added text) ++
      render (if added then line + 1 else line) true steps

def groupText (group : ChangeGroup String) : List Char :=
  header group.line ++ group.changes.flatMap fun change => changeText change.1 change.2

theorem push_render (out : List Char) (inGroup : Bool) (line : Nat) (added : Bool) (text : String)
    (steps : List (Step String)) :
    out ++ render line inGroup (.change added text :: steps) =
      push out inGroup line added text ++
        render (if added then line + 1 else line) true steps := by
  rw [render, push, List.append_assoc out]

/-- A difference that is not too long is reported whole. -/
theorem walk_text (table : Nat → Nat → Nat) (start row column : Nat) (old new : List String)
    (out : List Char) (inGroup : Bool)
    (short : utf8Length (out ++ render (start + column + 1) inGroup
      (steps table row column old new)) ≤ maxDiffChars) :
    walk table start row column old new out inGroup =
      out ++ render (start + column + 1) inGroup (steps table row column old new) := by
  fun_induction walk table start row column old new out inGroup with
  | case1 row column out inGroup => simp [steps, render]
  | case2 row column out inGroup line old out' long =>
    rw [steps, push_render, utf8Length_append] at short
    exact absurd long (Nat.not_lt.mpr (Nat.le_trans (Nat.le_add_right _ _) short))
  | case3 row column out inGroup line old out' fits ih =>
    rw [steps, push_render] at short ⊢
    exact ih short
  | case4 row column out inGroup line new out' long =>
    rw [steps, push_render, utf8Length_append] at short
    exact absurd long (Nat.not_lt.mpr (Nat.le_trans (Nat.le_add_right _ _) short))
  | case5 row column out inGroup line new out' fits ih =>
    rw [steps, push_render] at short ⊢
    exact ih short
  | case6 row column out inGroup line old new ih =>
    rw [steps, if_pos rfl] at short ⊢
    exact ih short
  | case7 row column out inGroup line old other new different prefers out' long =>
    rw [steps, if_neg different, if_pos prefers, push_render, utf8Length_append] at short
    exact absurd long (Nat.not_lt.mpr (Nat.le_trans (Nat.le_add_right _ _) short))
  | case8 row column out inGroup line old other new different prefers out' fits ih =>
    rw [steps, if_neg different, if_pos prefers, push_render] at short ⊢
    exact ih short
  | case9 row column out inGroup line old other new different prefers out' long =>
    rw [steps, if_neg different, if_neg prefers, push_render, utf8Length_append] at short
    exact absurd long (Nat.not_lt.mpr (Nat.le_trans (Nat.le_add_right _ _) short))
  | case10 row column out inGroup line old other new different prefers out' fits ih =>
    rw [steps, if_neg different, if_neg prefers, push_render] at short ⊢
    exact ih short

theorem render_starts (line : Nat) {steps : List (Step String)}
    (starts : startsChanged steps = true) :
    render line false steps = header line ++ render line true steps := by
  obtain ⟨added, text, rest, rfl⟩ := startsChanged_iff.mp starts
  rw [render, render, if_neg (by decide), if_pos rfl, List.nil_append, List.append_assoc]

theorem render_keeps (line : Nat) {steps : List (Step String)}
    (keeps : startsChanged steps ≠ true) : render line true steps = render line false steps := by
  cases steps with
  | nil => rfl
  | cons step steps =>
    cases step with
    | keep text => rfl
    | change added text => exact absurd rfl keeps

/-- What is reported are the groups of the steps. -/
theorem render_groups (line : Nat) (steps : List (Step String)) :
    render line false steps = (groupsFrom line steps).flatMap groupText := by
  induction steps generalizing line with
  | nil => rfl
  | cons step steps ih =>
    cases step with
    | keep text => exact ih (line + 1)
    | change added text =>
      have later := ih (if added then line + 1 else line)
      rw [render, groupsFrom, if_neg (by decide)]
      rcases joined_cases line (added, text) (startsChanged steps)
        (groupsFrom (if added then line + 1 else line) steps) with
          ⟨group, groups, starts, found, shape⟩ | ⟨none_later, shape⟩
      · rw [render_starts _ starts] at later
        obtain ⟨added', text', rest, rfl⟩ := startsChanged_iff.mp starts
        obtain ⟨more, others, first⟩ :=
          groups_change (if added then line + 1 else line) added' text' rest
        rw [first] at found
        obtain ⟨rfl, rfl⟩ := List.cons.inj found
        rw [first, List.flatMap_cons, groupText, List.append_assoc] at later
        rw [shape, List.flatMap_cons, groupText, List.append_cancel_left later]
        simp [List.flatMap_cons]
      · have alone : render (if added then line + 1 else line) true steps =
            render (if added then line + 1 else line) false steps := by
          refine render_keeps _ fun starts => ?_
          have empty := none_later starts
          obtain ⟨added', text', rest, rfl⟩ := startsChanged_iff.mp starts
          obtain ⟨more, others, first⟩ :=
            groups_change (if added then line + 1 else line) added' text' rest
          rw [first] at empty
          cases empty
        rw [alone, later, shape, List.flatMap_cons, groupText]
        simp

theorem steps_lists (table : Nat → Nat → Nat) (row column : Nat) (old new : List String) :
    olds (steps table row column old new) = old ∧ news (steps table row column old new) = new := by
  fun_induction steps table row column old new with
  | case1 row column => exact ⟨rfl, rfl⟩
  | case2 row column line old ih => exact ⟨congrArg (line :: ·) ih.1, ih.2⟩
  | case3 row column line new ih => exact ⟨ih.1, congrArg (line :: ·) ih.2⟩
  | case4 row column line old new ih =>
    exact ⟨congrArg (_ :: ·) ih.1, congrArg (_ :: ·) ih.2⟩
  | case5 row column line old other new different prefers ih =>
    exact ⟨congrArg (line :: ·) ih.1, ih.2⟩
  | case6 row column line old other new different prefers ih =>
    exact ⟨ih.1, congrArg (other :: ·) ih.2⟩

/-- The walk through the table keeps as many lines as the versions have in common. -/
theorem steps_longest (table : Nat → Nat → Nat) (row column : Nat) (old new : List String)
    (right : ∀ i j, i ≤ old.length → j ≤ new.length →
      table (row + i) (column + j) = longest (old.drop i) (new.drop j)) :
    (kept (steps table row column old new)).length = longest old new := by
  have below : ∀ {row i : Nat}, row + 1 + i = row + (i + 1) := by
    intro row i
    omega
  fun_induction steps table row column old new with
  | case1 row column => rw [longest]; rfl
  | case2 row column line old ih =>
    refine (ih fun i j rows columns => ?_).trans ?_
    · rw [below]
      exact right (i + 1) j (Nat.succ_le_succ rows) columns
    · rw [longest_nil, longest_nil]
  | case3 row column line new ih =>
    refine (ih fun i j rows columns => ?_).trans ?_
    · rw [below]
      exact right i (j + 1) rows (Nat.succ_le_succ columns)
    · rw [longest, longest]
  | case4 row column line old new ih =>
    have later := ih fun i j rows columns => by
      rw [below, below]
      exact right (i + 1) (j + 1) (Nat.succ_le_succ rows) (Nat.succ_le_succ columns)
    rw [longest, if_pos rfl, ← later]
    rfl
  | case5 row column line old other new different prefers ih =>
    have later := ih fun i j rows columns => by
      rw [below]
      exact right (i + 1) j (Nat.succ_le_succ rows) columns
    have first := right 1 0 (by simp) (by simp)
    have second := right 0 1 (by simp) (by simp)
    simp only [Nat.add_zero, List.drop_zero, List.drop_succ_cons] at first second
    rw [first, second] at prefers
    rw [longest, if_neg different, Nat.max_eq_left prefers, ← later]
    rfl
  | case6 row column line old other new different prefers ih =>
    have later := ih fun i j rows columns => by
      rw [below]
      exact right i (j + 1) rows (Nat.succ_le_succ columns)
    have first := right 1 0 (by simp) (by simp)
    have second := right 0 1 (by simp) (by simp)
    simp only [Nat.add_zero, List.drop_zero, List.drop_succ_cons] at first second
    rw [first, second] at prefers
    rw [longest, if_neg different, Nat.max_eq_right (Nat.le_of_not_le prefers), ← later]
    rfl

end Reported

section Versions

theorem commonStart_spec (old new : List String) :
    commonStart old new ≤ old.length ∧ commonStart old new ≤ new.length ∧
      old.take (commonStart old new) = new.take (commonStart old new) := by
  induction old generalizing new with
  | nil => exact ⟨Nat.le_refl 0, Nat.zero_le _, rfl⟩
  | cons line old ih =>
    cases new with
    | nil => exact ⟨Nat.zero_le _, Nat.le_refl 0, rfl⟩
    | cons other new =>
      by_cases same : line = other
      · obtain ⟨short, short', starts⟩ := ih new
        have longer : commonStart (line :: old) (other :: new) = commonStart old new + 1 := by
          simp [commonStart, same]
        rw [longer]
        refine ⟨Nat.succ_le_succ short, Nat.succ_le_succ short', ?_⟩
        rw [List.take_succ_cons, List.take_succ_cons, same, starts]
      · have none : commonStart (line :: old) (other :: new) = 0 := by
          simp [commonStart, same]
        rw [none]
        exact ⟨Nat.zero_le _, Nat.zero_le _, rfl⟩

/- The versions are what lies in between, between the same lines. -/
theorem middle_parts (oldLines newLines : List String) : ∃ before after : List String,
    before.length = (middle oldLines newLines).start ∧
      oldLines = before ++ ((middle oldLines newLines).old ++ after) ∧
      newLines = before ++ ((middle oldLines newLines).new ++ after) := by
  obtain ⟨short, short', starts⟩ := commonStart_spec oldLines newLines
  let start := commonStart oldLines newLines
  let old := oldLines.drop start
  let new := newLines.drop start
  obtain ⟨left, left', stops⟩ := commonStart_spec old.reverse new.reverse
  let stop := commonStart old.reverse new.reverse
  have old_middle : (middle oldLines newLines).old = old.take (old.length - stop) := by
    have length : old.length = oldLines.length - start := List.length_drop
    have parts : (middle oldLines newLines).old =
        (oldLines.take (oldLines.length - stop)).drop start := rfl
    rw [parts, List.drop_take, length]
    exact congrArg (fun n => old.take n) (Nat.sub_right_comm _ _ _)
  have new_middle : (middle oldLines newLines).new = new.take (new.length - stop) := by
    have length : new.length = newLines.length - start := List.length_drop
    have parts : (middle oldLines newLines).new =
        (newLines.take (newLines.length - stop)).drop start := rfl
    rw [parts, List.drop_take, length]
    exact congrArg (fun n => new.take n) (Nat.sub_right_comm _ _ _)
  have same_end : old.drop (old.length - stop) = new.drop (new.length - stop) := by
    rw [List.take_reverse, List.take_reverse] at stops
    exact List.reverse_injective stops
  refine ⟨oldLines.take start, old.drop (old.length - stop), ?_, ?_, ?_⟩
  · rw [List.length_take, Nat.min_eq_left short]
    rfl
  · rw [old_middle, List.take_append_drop, List.take_append_drop]
  · rw [new_middle, same_end, List.take_append_drop, starts, List.take_append_drop]

/- The groups of a difference, the lines numbered as in the new version. -/
def diffGroups (oldLines newLines : List String) : List (ChangeGroup String) :=
  let between := middle oldLines newLines
  groupsFrom (between.start + 1)
    (steps (entry (table between.old between.new)) 0 0 between.old between.new)

theorem kept_keeps (same : List String) : olds (same.map .keep) = same ∧
    news (same.map .keep) = same ∧ kept (same.map .keep) = same := by
  simp [olds, news, kept, List.filterMap_map]

theorem groupsFrom_start (line : Nat) (same : List String) (steps : List (Step String)) :
    groupsFrom line (same.map .keep ++ steps) = groupsFrom (line + same.length) steps := by
  induction same generalizing line with
  | nil => rfl
  | cons text same ih =>
    rw [List.map_cons, List.cons_append, groupsFrom, ih, List.length_cons]
    congr 1
    omega

theorem groupsFrom_stop (line : Nat) (steps : List (Step String)) (same : List String) :
    groupsFrom line (steps ++ same.map .keep) = groupsFrom line steps := by
  induction steps generalizing line with
  | nil =>
    have rest := groupsFrom_start line same []
    rw [List.append_nil] at rest
    exact rest
  | cons step steps ih =>
    cases step with
    | keep text => exact ih (line + 1)
    | change added text =>
      have starts : startsChanged (steps ++ same.map .keep) = startsChanged steps := by
        cases steps with
        | nil => cases same <;> rfl
        | cons step steps => cases step <;> rfl
      rw [List.cons_append, groupsFrom, groupsFrom, starts, ih]

theorem commonStart_self (same : List String) : commonStart same same = same.length := by
  induction same with
  | nil => rfl
  | cons line same ih =>
    rw [List.length_cons, ← ih]
    simp [commonStart]

theorem middle_self (same : List String) : (middle same same).old = [] := by
  rw [middle, commonStart_self]
  refine List.drop_eq_nil_of_le ?_
  rw [List.length_take]
  exact Nat.min_le_right _ _

/- Groups that lead from one version to the other with the fewest changes there can be. -/
structure FewestChanges (old new : List String) (groups : List (ChangeGroup String)) : Prop where
  applies : applyFrom 0 groups old = some new
  apart : ∀ group ∈ groups, ∀ line ∈ removed group.changes, line ∉ added group.changes
  fewest : ∀ others, applyFrom 0 others old = some new → cost groups ≤ cost others
  common : old.length + new.length = cost groups + 2 * longest old new

/- The versions are compared line by line, and what is reported is not cut. -/
structure Within (old new : List String) (groups : List (ChangeGroup String)) : Prop where
  oldLines : (middle old new).old.length ≤ maxDiffLines
  newLines : (middle old new).new.length ≤ maxDiffLines
  report : utf8Length (groups.flatMap groupText) ≤ maxDiffChars

theorem diffGroups_fewest (old new : List String) : FewestChanges old new (diffGroups old new) := by
  obtain ⟨before, after, length, old_parts, new_parts⟩ := middle_parts old new
  let between := middle old new
  let inside := steps (entry (table between.old between.new)) 0 0 between.old between.new
  let all := before.map .keep ++ (inside ++ after.map .keep)
  obtain ⟨inside_olds, inside_news⟩ :=
    steps_lists (entry (table between.old between.new)) 0 0 between.old between.new
  have inside_kept : (kept inside).length = longest between.old between.new :=
    steps_longest _ 0 0 between.old between.new fun i j rows columns => by
      rw [Nat.zero_add, Nat.zero_add]
      exact entry_table rows columns
  obtain ⟨before_olds, before_news, before_kept⟩ := kept_keeps before
  obtain ⟨after_olds, after_news, after_kept⟩ := kept_keeps after
  have all_olds : olds all = old := by
    have parts : olds all = olds (before.map .keep) ++ (olds inside ++ olds (after.map .keep)) := by
      simp only [olds, all, List.filterMap_append]
    rw [parts, before_olds, after_olds, inside_olds, ← old_parts]
  have all_news : news all = new := by
    have parts : news all = news (before.map .keep) ++ (news inside ++ news (after.map .keep)) := by
      simp only [news, all, List.filterMap_append]
    rw [parts, before_news, after_news, inside_news, ← new_parts]
  have all_kept : (kept all).length = longest old new := by
    have parts : kept all = kept (before.map .keep) ++ (kept inside ++ kept (after.map .keep)) := by
      simp only [kept, all, List.filterMap_append]
    have count : (kept all).length =
        before.length + (longest between.old between.new + after.length) := by
      rw [parts, before_kept, after_kept, List.length_append, List.length_append, inside_kept]
    refine Nat.le_antisymm ?_ ?_
    · exact length_le_longest (all_olds ▸ kept_olds all) (all_news ▸ kept_news all)
    · have whole := congrArg₂ longest old_parts new_parts
      rw [longest_start] at whole
      rw [count, whole]
      exact Nat.add_le_add_left (longest_stop _ _ after) _
  have all_groups : groupsFrom 1 all = diffGroups old new := by
    rw [groupsFrom_start, groupsFrom_stop, length, Nat.add_comm]
    rfl
  have fewest := @fewest_changes _ _ 1 all (by rw [all_kept, all_olds, all_news])
  have counted := olds_length all
  rw [all_groups, all_olds, all_news] at fewest
  refine ⟨?_, fewest.1, fewest.2 0, ?_⟩
  · have applied := apply_groups 0 all
    rw [all_groups, all_olds, all_news] at applied
    exact applied
  · rw [all_olds, all_news, ← cost_groups 1, all_groups, all_kept] at counted
    exact counted

/-- What is reported of two versions of a file is a smallest patch. -/
theorem diff_is_patch (old new : String) :
    (diffLines old new = none ↔ lines old = lines new) ∧
      ∃ groups, FewestChanges (lines old) (lines new) groups ∧
        (lines old ≠ lines new → Within (lines old) (lines new) groups →
          diffLines old new = some (String.ofList (groups.flatMap groupText))) := by
  obtain ⟨before, after, length, old_parts, new_parts⟩ := middle_parts (lines old) (lines new)
  have same_iff : (middle (lines old) (lines new)).old = [] ∧
      (middle (lines old) (lines new)).new = [] ↔ lines old = lines new := by
    refine ⟨fun empty => ?_, fun same => ?_⟩
    · rw [empty.1] at old_parts
      rw [empty.2] at new_parts
      exact old_parts.trans new_parts.symm
    · rw [same]
      exact ⟨middle_self _, middle_self _⟩
  refine ⟨?_, diffGroups (lines old) (lines new), diffGroups_fewest _ _, fun differ within => ?_⟩
  · rw [← same_iff, diffLines]
    simp only
    split
    · rename_i empty
      exact ⟨fun _ => empty, fun _ => rfl⟩
    · rename_i some_left
      refine ⟨fun none => ?_, fun empty => absurd empty some_left⟩
      split at none <;> cases none
  · have short := within.report
    rw [diffGroups, ← render_groups] at short
    rw [diffLines]
    simp only
    rw [if_neg (fun none => differ (same_iff.mp none)), if_neg, walk_text]
    · rw [List.nil_append, render_groups]
      rfl
    · exact short
    · rintro (many | many)
      · exact absurd within.oldLines (Nat.not_le.mpr many)
      · exact absurd within.newLines (Nat.not_le.mpr many)

end Versions

end SentinelAgent.Content
