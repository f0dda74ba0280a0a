import Mathlib.Data.List.TakeWhile
import SentinelAgent.Library.Text

/- Regular expressions that begin at the start of a text, and what their groups capture. Of the
   ways to match, the first in the order of preference counts: a repetition takes as much as it
   can, an optional part is taken when it can be, the first alternative goes first. -/
namespace Captures

inductive Regex where
  | word (letters : List Char)
  | many (least : Nat) (accepts : Char → Bool)
  | stop
  | seq (first second : Regex)
  | either (first second : Regex)
  | maybe (inner : Regex)
  | group (n : Nat) (inner : Regex)

abbrev Groups := List (Nat × List Char)

/- How far a match came: the groups it captured, and what it leaves of the text. -/
structure Found where
  groups : Groups
  rest : List Char

/- The ways to match, the preferred one first. -/
@[grind =] def run : Regex → Found → List Found
  | .word letters, found =>
    if letters <+: found.rest then [⟨found.groups, found.rest.drop letters.length⟩] else []
  | .many least accepts, found =>
    ((List.range ((found.rest.takeWhile accepts).length + 1)).reverse.filter (least ≤ ·)).map
      fun taken => ⟨found.groups, found.rest.drop taken⟩
  | .stop, found => if found.rest = [] then [found] else []
  | .seq first second, found => (run first found).flatMap (run second)
  | .either first second, found => run first found ++ run second found
  | .maybe inner, found => run inner found ++ [found]
  | .group n inner, found =>
    (run inner found).map fun further =>
      ⟨further.groups ++ [(n, found.rest.take (found.rest.length - further.rest.length))],
        further.rest⟩

def captures (r : Regex) (text : List Char) : Option Groups :=
  (run r ⟨[], text⟩).head?.map Found.groups

/- What is relied on of an engine: the preferred match, and which letters are digits to it. -/
structure Engine where
  captures : Regex → List Char → Option Groups
  isDigit : Char → Bool
  preferred : captures = Captures.captures
  ascii : ∀ c, c.isDigit = true → isDigit c = true
  blank : ∀ c, Text.isWhitespace c = true → isDigit c = false

def sequence (rs : List Regex) : Regex := rs.foldr .seq (.word [])

theorem run_sequence_nil (found : Found) : run (sequence []) found = [found] := by
  simp [sequence, run]

theorem run_sequence_single (r : Regex) (found : Found) : run (sequence [r]) found = run r found := by
  simp [sequence, run]

theorem run_sequence_cons (r : Regex) (rs : List Regex) (found : Found) :
    run (sequence (r :: rs)) found = (run r found).flatMap (run (sequence rs)) := rfl

/- What stands after a word the text begins with. -/
def after (letters text : List Char) : Option (List Char) :=
  if letters <+: text then some (text.drop letters.length) else none

theorem after_eq_some {letters text rest : List Char} :
    after letters text = some rest ↔ text = letters ++ rest := by
  constructor
  · intro found
    unfold after at found
    split at found
    · rename_i starts
      rw [← Option.some.inj found]
      exact (List.prefix_iff_eq_append.mp starts).symm
    · cases found
  · rintro rfl
    simp [after]

theorem run_word (letters : List Char) (rs : List Regex) (groups : Groups) (text : List Char) :
    run (sequence (.word letters :: rs)) ⟨groups, text⟩ =
      (after letters text).elim [] fun rest => run (sequence rs) ⟨groups, rest⟩ := by
  rw [run_sequence_cons, run, after]
  by_cases starts : letters <+: text
  · simp [starts]
  · simp [starts]

section Runs
variable (accepts : Char → Bool) (text : List Char)

theorem drop_run : text.drop (text.takeWhile accepts).length = text.dropWhile accepts := by
  have parts := List.takeWhile_append_dropWhile (p := accepts) (l := text)
  calc text.drop (text.takeWhile accepts).length
      = (text.takeWhile accepts ++ text.dropWhile accepts).drop (text.takeWhile accepts).length := by
        rw [parts]
    _ = text.dropWhile accepts := List.drop_left

theorem take_run : text.take (text.length - (text.dropWhile accepts).length) =
    text.takeWhile accepts := by
  have parts := List.takeWhile_append_dropWhile (p := accepts) (l := text)
  have lengths := congrArg List.length parts
  rw [List.length_append] at lengths
  calc text.take (text.length - (text.dropWhile accepts).length)
      = (text.takeWhile accepts ++ text.dropWhile accepts).take (text.takeWhile accepts).length := by
        rw [parts]
        congr 1
        omega
    _ = text.takeWhile accepts := List.take_left

end Runs

/- The ways a repetition can end before the whole run of its letters. -/
def shorter (least : Nat) (accepts : Char → Bool) (text : List Char) : List Nat :=
  (List.range (text.takeWhile accepts).length).reverse.filter (least ≤ ·)

theorem run_many (least : Nat) (accepts : Char → Bool) (groups : Groups) (text : List Char) :
    run (.many least accepts) ⟨groups, text⟩ =
      (if least ≤ (text.takeWhile accepts).length then [⟨groups, text.dropWhile accepts⟩] else []) ++
        (shorter least accepts text).map fun taken => ⟨groups, text.drop taken⟩ := by
  rw [run, List.range_succ, List.reverse_append, List.reverse_singleton, List.filter_append,
    List.map_append, shorter]
  by_cases enough : least ≤ (text.takeWhile accepts).length
  · simp [enough, drop_run]
  · simp [enough]

/- Where a repetition ends early, one of its letters comes next. -/
theorem shorter_next {least : Nat} {accepts : Char → Bool} {text : List Char} {taken : Nat}
    (early : taken ∈ shorter least accepts text) :
    ∃ c rest, text.drop taken = c :: rest ∧ accepts c = true := by
  obtain ⟨within, _⟩ := List.mem_filter.mp early
  have within := List.mem_range.mp (List.mem_reverse.mp within)
  refine ⟨(text.takeWhile accepts)[taken],
    (text.takeWhile accepts).drop (taken + 1) ++ text.dropWhile accepts, ?_, ?_⟩
  · calc text.drop taken = (text.takeWhile accepts ++ text.dropWhile accepts).drop taken := by
          rw [List.takeWhile_append_dropWhile]
      _ = _ := by
          rw [List.drop_append_of_le_length within.le, List.drop_eq_getElem_cons within]
          rfl
  · exact List.mem_takeWhile_imp (List.getElem_mem within)

/-- A repetition before a word it cannot take the first letter of takes its whole run. -/
theorem run_many_word {accepts : Char → Bool} {c : Char} (stops : accepts c = false) (least n : Nat)
    (letters : List Char) (rs : List Regex) (groups : Groups) (text : List Char) :
    run (sequence (.group n (.many least accepts) :: .word (c :: letters) :: rs)) ⟨groups, text⟩ =
      if least ≤ (text.takeWhile accepts).length then
        (after (c :: letters) (text.dropWhile accepts)).elim [] fun rest =>
          run (sequence rs) ⟨groups ++ [(n, text.takeWhile accepts)], rest⟩
      else [] := by
  have early : ∀ short ∈ shorter least accepts text,
      after (c :: letters) (text.drop short) = none := by
    intro short member
    obtain ⟨d, rest, next, accepted⟩ := shorter_next member
    rw [after, next, if_neg]
    rintro ⟨_, same⟩
    rw [List.cons_append, List.cons.injEq] at same
    rw [← same.1, stops] at accepted
    cases accepted
  rw [run_sequence_cons, run, run_many, List.map_append, List.flatMap_append]
  have none_early : ((((shorter least accepts text).map fun taken =>
      (⟨groups, text.drop taken⟩ : Found)).map fun further =>
        (⟨further.groups ++ [(n, text.take (text.length - further.rest.length))],
          further.rest⟩ : Found)).flatMap (run (sequence (.word (c :: letters) :: rs)))) = [] := by
    simp only [List.flatMap_eq_nil_iff, List.mem_map]
    rintro _ ⟨_, ⟨short, member, rfl⟩, rfl⟩
    rw [run_word, early short member]
    rfl
  rw [none_early, List.append_nil]
  split_ifs with enough
  · simp [run_word, take_run]
  · rfl

section Here
variable (rs : List Regex) (groups : Groups) (text : List Char)

theorem run_word_here (letters : List Char) :
    run (sequence (.word letters :: rs)) ⟨groups, letters ++ text⟩ =
      run (sequence rs) ⟨groups, text⟩ := by
  rw [run_word, after_eq_some.mpr rfl]
  rfl

theorem run_word_other {c d : Char} (other : c ≠ d) (letters : List Char) :
    run (sequence (.word (c :: letters) :: rs)) ⟨groups, d :: text⟩ = [] := by
  rw [run_word, after, if_neg]
  · rfl
  · rintro ⟨rest, same⟩
    exact other (List.cons.inj same).1

theorem run_word_start {c : Char} {letters : List Char} (other : text.head? ≠ some c) :
    run (sequence (.word (c :: letters) :: rs)) ⟨groups, text⟩ = [] := by
  cases text with
  | nil => simp [run_sequence_cons, run]
  | cons d text =>
    exact run_word_other rs groups text (fun same => other (by rw [same]; rfl)) letters

theorem run_maybe (inner : Regex) (found : Found) : run (sequence (.maybe inner :: rs)) found =
    run (sequence (inner :: rs)) found ++ run (sequence rs) found := by
  simp [run_sequence_cons, run]

theorem run_either (one other : Regex) (found : Found) :
    run (sequence (.either one other :: rs)) found =
      run (sequence (one :: rs)) found ++ run (sequence (other :: rs)) found := by
  simp [run_sequence_cons, run]

theorem run_many_word_here {accepts : Char → Bool} {c : Char} (stops : accepts c = false)
    {least : Nat} {word : List Char} (accepted : ∀ d ∈ word, accepts d = true)
    (enough : least ≤ word.length) (n : Nat) (letters : List Char) :
    run (sequence (.group n (.many least accepts) :: .word (c :: letters) :: rs))
        ⟨groups, word ++ (c :: letters ++ text)⟩ =
      run (sequence rs) ⟨groups ++ [(n, word)], text⟩ := by
  have taken : (word ++ (c :: letters ++ text)).takeWhile accepts = word := by
    rw [List.takeWhile_append_of_pos accepted, List.cons_append,
      List.takeWhile_cons_of_neg (by simp [stops]), List.append_nil]
  have left : (word ++ (c :: letters ++ text)).dropWhile accepts = c :: letters ++ text := by
    rw [List.dropWhile_append_of_pos accepted, List.cons_append,
      List.dropWhile_cons_of_neg (by simp [stops])]
  rw [run_many_word stops, taken, left, if_pos enough, after_eq_some.mpr rfl]
  rfl

end Here

/- The preferred way to match. -/
def First (r : Regex) (start stop : Found) : Prop := (run r start).head? = some stop

section First
variable {rs : List Regex} {groups : Groups} {text : List Char} {stop : Found}

theorem first_nil : First (sequence []) ⟨groups, text⟩ stop ↔ stop = ⟨groups, text⟩ := by
  rw [First, run_sequence_nil, List.head?_cons, Option.some.injEq, eq_comm]

theorem first_word {letters : List Char} : First (sequence (.word letters :: rs)) ⟨groups, text⟩ stop ↔
    ∃ rest, text = letters ++ rest ∧ First (sequence rs) ⟨groups, rest⟩ stop := by
  rw [First, run_word]
  simp only [← after_eq_some]
  cases after letters text with
  | none => simp
  | some rest => simp [First]

theorem first_many_word {accepts : Char → Bool} {c : Char} (stops : accepts c = false)
    {least n : Nat} {letters : List Char} :
    First (sequence (.group n (.many least accepts) :: .word (c :: letters) :: rs))
        ⟨groups, text⟩ stop ↔
      ∃ run rest, text = run ++ (c :: letters ++ rest) ∧ (∀ d ∈ run, accepts d = true) ∧
        least ≤ run.length ∧ First (sequence rs) ⟨groups ++ [(n, run)], rest⟩ stop := by
  rw [First, run_many_word stops]
  have parts := List.takeWhile_append_dropWhile (p := accepts) (l := text)
  constructor
  · intro found
    split_ifs at found with enough
    · cases there : after (c :: letters) (text.dropWhile accepts) with
      | none =>
        rw [there] at found
        cases found
      | some rest =>
        rw [there] at found
        refine ⟨text.takeWhile accepts, rest, ?_, fun d => List.mem_takeWhile_imp, enough, found⟩
        rw [← after_eq_some.mp there, parts]
    · cases found
  · rintro ⟨run, rest, rfl, accepted, enough, found⟩
    rwa [← run_many_word stops, run_many_word_here _ _ _ stops accepted enough]

/-- A repetition takes its whole run before what matches always. -/
theorem first_many {accepts : Char → Bool} {least n : Nat}
    (total : ∀ found, run (sequence rs) found ≠ []) :
    First (sequence (.group n (.many least accepts) :: rs)) ⟨groups, text⟩ stop ↔
      ∃ run rest, text = run ++ rest ∧ (∀ d ∈ run, accepts d = true) ∧
        (∀ d ∈ rest.head?, accepts d = false) ∧ least ≤ run.length ∧
          First (sequence rs) ⟨groups ++ [(n, run)], rest⟩ stop := by
  have parts := List.takeWhile_append_dropWhile (p := accepts) (l := text)
  have whole : (Captures.run (sequence (.group n (.many least accepts) :: rs))
      ⟨groups, text⟩).head? =
      if least ≤ (text.takeWhile accepts).length then
        (Captures.run (sequence rs)
          ⟨groups ++ [(n, text.takeWhile accepts)], text.dropWhile accepts⟩).head?
      else none := by
    rw [run_sequence_cons, Captures.run, run_many]
    split_ifs with enough
    · simp only [List.map_append, List.map_cons, List.map_nil, List.flatMap_append,
        List.flatMap_cons, List.flatMap_nil, List.append_nil, take_run]
      exact List.head?_append_of_ne_nil _ (total _)
    · have none_shorter : shorter least accepts text = [] := by
        simp only [shorter, List.filter_eq_nil_iff, List.mem_reverse, List.mem_range,
          decide_eq_true_eq]
        omega
      simp [none_shorter]
  rw [First, whole]
  constructor
  · intro found
    split_ifs at found with enough
    · refine ⟨_, _, parts.symm, fun d => List.mem_takeWhile_imp, ?_, enough, found⟩
      have next := List.head?_dropWhile_not accepts text
      intro d first
      rw [Option.mem_def] at first
      rw [first] at next
      exact next
  · rintro ⟨run, rest, rfl, accepted, stops, enough, found⟩
    have taken : (run ++ rest).takeWhile accepts = run := by
      rw [List.takeWhile_append_of_pos accepted]
      cases rest with
      | nil => simp
      | cons d rest => simp [List.takeWhile_cons_of_neg, stops d rfl]
    have left : (run ++ rest).dropWhile accepts = rest := by
      rw [List.dropWhile_append_of_pos accepted]
      cases rest with
      | nil => rfl
      | cons d rest => simp [List.dropWhile_cons_of_neg, stops d rfl]
    rw [taken, left, if_pos enough]
    exact found

/-- A repetition at the end takes its whole run. -/
theorem first_many_last {accepts : Char → Bool} {least n : Nat} :
    First (sequence [.group n (.many least accepts)]) ⟨groups, text⟩ stop ↔
      ∃ run rest, text = run ++ rest ∧ (∀ d ∈ run, accepts d = true) ∧
        (∀ d ∈ rest.head?, accepts d = false) ∧ least ≤ run.length ∧
          stop = ⟨groups ++ [(n, run)], rest⟩ := by
  have total : ∀ found, run (sequence []) found ≠ [] := fun found => by
    simp [run_sequence_nil]
  simp only [first_many total, first_nil]

theorem first_maybe {inner : Regex} : First (sequence (.maybe inner :: rs)) ⟨groups, text⟩ stop ↔
    First (sequence (inner :: rs)) ⟨groups, text⟩ stop ∨
      (∀ other, ¬ First (sequence (inner :: rs)) ⟨groups, text⟩ other) ∧
        First (sequence rs) ⟨groups, text⟩ stop := by
  simp only [First, run_sequence_cons, run, List.flatMap_append, List.flatMap_singleton,
    List.head?_append]
  cases ((run inner ⟨groups, text⟩).flatMap (run (sequence rs))).head? with
  | none => simp
  | some found => simp

theorem first_group_word {n : Nat} {letters : List Char} :
    First (sequence (.group n (.word letters) :: rs)) ⟨groups, text⟩ stop ↔
      ∃ rest, text = letters ++ rest ∧
        First (sequence rs) ⟨groups ++ [(n, letters)], rest⟩ stop := by
  rw [First, run_sequence_cons, run, run]
  by_cases starts : letters <+: text
  · obtain ⟨rest, rfl⟩ := starts
    simp [First]
  · rw [if_neg starts]
    constructor
    · intro found
      cases found
    · rintro ⟨rest, rfl, _⟩
      exact absurd (List.prefix_append _ _) starts

theorem captures_eq_none {r : Regex} (nowhere : run r ⟨[], text⟩ = []) : captures r text = none := by
  rw [captures, nowhere]
  rfl

end First
end Captures
