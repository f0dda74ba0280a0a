import SentinelAgent.Library.Expressions
import SentinelAgent.Scanner.SigmaValues

/-!
What the comparison of a value accepts: the texts of its Sigma pattern, anchored as the
modifiers ask. The regular expressions are built and run by a library.
-/
namespace SentinelAgent.Sigma
open Expressions

/-! The language of a value. -/

def isSpecial (c : Char) : Bool := c == '*' || c == '?' || c == '\\'

/- The texts a value stands for. A backslash takes away the meaning of a special letter after
   it; before any other letter, and at the end, it is a letter itself. -/
inductive Glob (same : Char → Char → Bool) : List Char → List Char → Prop
  | nil : Glob same [] []
  | star {value text} (skipped : List Char) : Glob same value text →
      Glob same ('*' :: value) (skipped ++ text)
  | question {value text} (d : Char) : Glob same value text → Glob same ('?' :: value) (d :: text)
  | escaped {value text c d} : isSpecial c = true → same c d = true → Glob same value text →
      Glob same ('\\' :: c :: value) (d :: text)
  | backslash {value text d} : (∀ c ∈ value.head?, isSpecial c = false) → same '\\' d = true →
      Glob same value text → Glob same ('\\' :: value) (d :: text)
  | letter {value text c d} : isSpecial c = false → same c d = true → Glob same value text →
      Glob same (c :: value) (d :: text)

/- What an anchor asks of a text. -/
@[grind =] def Anchor.Asks (language : List Char → Prop) (text : List Char) : Anchor → Prop
  | .exact => language text
  | .contains => ∃ before word after, text = before ++ word ++ after ∧ language word
  | .startsWith => ∃ word after, text = word ++ after ∧ language word
  | .endsWith => ∃ before word, text = before ++ word ∧ language word

/- Letters that are the same, with or without their case. -/
def sameLetter (fold : Char → Char) (cased : Bool) (c d : Char) : Bool :=
  if cased then c == d else fold c == fold d

/- The library builds the expression it is given: it escapes a text as it is documented to, and
   what it built finds what its pieces say. -/
structure Implements {F : Type} (l : Libraries F) (fold : Char → Char) : Prop where
  escape : ∀ s, l.escape s = String.ofList (Expressions.escape s.toList)
  finds : ∀ pattern cased pieces isMatch, read pattern.toList = some pieces →
    l.regex pattern cased = .ok isMatch →
      ∀ text, isMatch text = Expressions.isMatch (sameLetter fold cased) pieces text.toList

/-! The pattern of a value. -/

@[grind =] def valueWilds : List Char → List Wild
  | [] => []
  | '\\' :: next :: rest =>
    if isSpecial next then .letter next :: valueWilds rest
    else .letter '\\' :: valueWilds (next :: rest)
  | '\\' :: [] => [.letter '\\']
  | '*' :: rest => .many :: valueWilds rest
  | '?' :: rest => .one :: valueWilds rest
  | c :: rest => .letter c :: valueWilds rest

section Language
variable {same : Char → Char → Bool}

theorem valueWilds_letter {c : Char} (plain : isSpecial c = false) (rest : List Char) :
    valueWilds (c :: rest) = .letter c :: valueWilds rest := by
  have not_special : ∀ d, isSpecial d = true → c ≠ d := by
    rintro d special rfl
    rw [plain] at special
    cases special
  rw [valueWilds]
  · intro _ _ is_backslash
    exact absurd is_backslash (not_special _ (by decide))
  · intro is_backslash
    exact absurd is_backslash (not_special _ (by decide))
  · exact not_special _ (by decide)
  · exact not_special _ (by decide)

theorem valueWilds_backslash {rest : List Char} (plain : ∀ c ∈ rest.head?, isSpecial c = false) :
    valueWilds ('\\' :: rest) = .letter '\\' :: valueWilds rest := by
  cases rest with
  | nil => rfl
  | cons c rest =>
    rw [valueWilds, plain c rfl]
    rfl

theorem glob_iff (value text : List Char) :
    Glob same value text ↔ Globs.Matches ((valueWilds value).map (Wild.item same)) text := by
  constructor
  · intro stands
    induction stands with
    | nil => rfl
    | star skipped _ ih => exact ⟨_, List.suffix_append _ _, ih⟩
    | question d _ ih => exact ⟨d, _, rfl, rfl, ih⟩
    | escaped special letter _ ih =>
      rw [valueWilds, if_pos special]
      exact ⟨_, _, rfl, letter, ih⟩
    | backslash plain letter _ ih =>
      rw [valueWilds_backslash plain]
      exact ⟨_, _, rfl, letter, ih⟩
    | letter plain letter _ ih =>
      rw [valueWilds_letter plain]
      exact ⟨_, _, rfl, letter, ih⟩
  · intro matched
    induction value using valueWilds.induct generalizing text with
    | case1 =>
      rw [matched]
      exact .nil
    | case2 next rest special ih =>
      rw [valueWilds, if_pos special] at matched
      obtain ⟨d, left, rfl, letter, matched⟩ := matched
      exact .escaped special letter (ih _ matched)
    | case3 next rest plain ih =>
      rw [valueWilds, if_neg plain] at matched
      obtain ⟨d, left, rfl, letter, matched⟩ := matched
      exact .backslash (by simpa using plain) letter (ih _ matched)
    | case4 =>
      obtain ⟨d, left, rfl, letter, matched⟩ := matched
      rw [matched]
      exact .backslash (by simp) letter .nil
    | case5 rest ih =>
      obtain ⟨left, ⟨skipped, rfl⟩, matched⟩ := matched
      exact .star skipped (ih _ matched)
    | case6 rest ih =>
      obtain ⟨d, left, rfl, _, matched⟩ := matched
      exact .question d (ih _ matched)
    | case7 c rest not_escape not_last not_star not_question ih =>
      have plain : isSpecial c = false := by
        have not_backslash : c ≠ '\\' := by
          rintro rfl
          cases rest with
          | nil => exact not_last rfl rfl
          | cons next rest => exact not_escape next rest rfl rfl
        simpa [isSpecial, not_backslash] using ⟨not_star, not_question⟩
      rw [valueWilds_letter plain] at matched
      obtain ⟨d, left, rfl, letter, matched⟩ := matched
      exact .letter plain letter (ih _ matched)

theorem asks_iff (anchor : Anchor) (value text : List Char) :
    anchor.Asks (Glob same value) text ↔
      let items := (valueWilds value).map (Wild.item same)
      Globs.Matches (match anchor with
        | .exact => items
        | .contains => .many :: items ++ [.many]
        | .startsWith => items ++ [.many]
        | .endsWith => .many :: items) text := by
  cases anchor with
  | exact => exact glob_iff value text
  | contains =>
    simp only [Anchor.Asks, glob_iff, List.cons_append, Globs.Matches, Globs.matches_then_many]
    constructor
    · rintro ⟨before, word, after, rfl, matched⟩
      exact ⟨word ++ after, ⟨before, by simp⟩, word, after, rfl, matched⟩
    · rintro ⟨_, ⟨before, rfl⟩, word, after, rfl, matched⟩
      exact ⟨before, word, after, by simp, matched⟩
  | startsWith => simp only [Anchor.Asks, glob_iff, Globs.matches_then_many]
  | endsWith =>
    simp only [Anchor.Asks, glob_iff, Globs.Matches]
    constructor
    · rintro ⟨before, word, rfl, matched⟩
      exact ⟨word, List.suffix_append _ _, matched⟩
    · rintro ⟨word, ⟨before, rfl⟩, matched⟩
      exact ⟨before, word, rfl, matched⟩

end Language

section Comparisons
variable {F : Type} {l : Libraries F} {fold : Char → Char}

/- The expression of a value is written for the pieces of its pattern. -/
theorem globToRegex_text (engine : Implements l fold) (value : List Char) :
    (globToRegex l value).toList = ((valueWilds value).map Wild.piece).flatMap Piece.text := by
  have letter (c : Char) : (l.escape (String.singleton c)).toList = (Wild.letter c).piece.text := by
    rw [engine.escape, String.toList_ofList, String.toList_singleton]
    rfl
  induction value using valueWilds.induct with
  | case1 => rfl
  | case2 next rest special ih =>
    have special' : next = '*' ∨ next = '?' ∨ next = '\\' := by
      simpa [isSpecial, or_assoc] using special
    rw [valueWilds, if_pos special, globToRegex, if_pos special', String.toList_append, letter, ih]
    rfl
  | case3 next rest plain ih =>
    have plain' : ¬ (next = '*' ∨ next = '?' ∨ next = '\\') := by
      simpa [isSpecial, or_assoc] using plain
    rw [valueWilds, if_neg plain, globToRegex, if_neg plain', String.toList_append, ih]
    rfl
  | case4 =>
    rw [globToRegex, valueWilds]
    rfl
  | case5 rest ih =>
    rw [globToRegex, String.toList_append, ih]
    rfl
  | case6 rest ih =>
    rw [globToRegex, String.toList_append, ih]
    rfl
  | case7 c rest not_escape not_last not_star not_question ih =>
    rw [globToRegex, String.toList_append, letter, ih, valueWilds] <;> first | rfl | assumption

theorem anchored_text (engine : Implements l fold) (anchor : Anchor) (value : List Char) :
    let pieces := (valueWilds value).map Wild.piece
    (anchored anchor (globToRegex l value)).toList = List.flatMap Piece.text (match anchor with
      | .exact => [.start] ++ (pieces ++ [.stop])
      | .contains => pieces
      | .startsWith => [.start] ++ pieces
      | .endsWith => pieces ++ [.stop]) := by
  have text := globToRegex_text engine value
  cases anchor <;> simp [anchored, text, Piece.text]

/-- The compiled comparison of a value accepts the texts its pattern stands for, anchored as the
    comparison asks, and no others. -/
theorem value_accepts {F : Type} (l : Libraries F) (fold : Char → Char) (engine : Implements l fold)
    (value : String) (anchor : Anchor) (cased : Bool) {matchers : List (Matcher F)}
    (compiled : stringMatchers l value { Modifiers.none with anchor := anchor, cased := cased } =
      .ok matchers) (event : Scanner.SigmaEvent) (text : String) :
    (matchers.any fun m => m.matches l (some text) event) = true ↔
      anchor.Asks (Glob (sameLetter fold cased) value.toList) text.toList := by
  have one : stringMatchers l value { Modifiers.none with anchor := anchor, cased := cased } =
      (compile l (anchored anchor (globToRegex l value.toList)) cased).map fun m => [m] := by
    simp only [stringMatchers, variantsOf, Modifiers.none, Bool.or_false, Bool.false_eq_true,
      if_false, List.mapM_cons, List.mapM_nil]
    cases compile l (anchored anchor (globToRegex l value.toList)) cased <;> rfl
  rw [one, compile] at compiled
  cases built : l.regex (anchored anchor (globToRegex l value.toList)) cased with
  | error e =>
    rw [built] at compiled
    cases compiled
  | ok isMatch =>
    rw [built] at compiled
    obtain rfl := Except.ok.inj compiled
    have reads := (congrArg read (anchored_text engine anchor value.toList)).trans (read_text _)
    have finds := engine.finds _ cased _ isMatch reads built text
    rw [asks_iff]
    simp only [List.any_cons, List.any_nil, Bool.or_false, Matcher.matches, Option.any_some, finds]
    cases anchor with
    | exact => exact isMatch_whole _ _
    | contains => exact isMatch_within _ _
    | startsWith => exact isMatch_from_start _ _
    | endsWith => exact isMatch_to_stop _ _

end Comparisons

section Engine

/- An engine for the expressions the values become. -/
def readingEngine : Libraries Nat where
  regex pattern cased :=
    match read pattern.toList with
    | some pieces => .ok fun text =>
      Expressions.isMatch (sameLetter Char.toLower cased) pieces text.toList
    | none => .error "not supported"
  escape s := String.ofList (Expressions.escape s.toList)
  parseF64 _ := none
  lt _ _ := false
  le _ _ := false
  parseAddress _ := none

theorem readingEngine_implements : Implements readingEngine Char.toLower where
  escape _ := rfl
  finds pattern cased pieces isMatch reads built text := by
    simp only [readingEngine, reads, Except.ok.injEq] at built
    rw [← built]

/-- `\\*` ends the value with a wildcard after a backslash that is a letter. -/
theorem value_accepts_backslash : ∃ matchers,
    stringMatchers readingEngine "C:\\\\*" { Modifiers.none with anchor := .exact, cased := false } =
      .ok matchers ∧
    (matchers.any fun m => m.matches readingEngine (some "c:\\Temp") ∅) = true := by
  refine ⟨_, rfl, ?_⟩
  rw [value_accepts readingEngine Char.toLower readingEngine_implements "C:\\\\*" .exact false rfl,
    Anchor.Asks, glob_iff]
  decide

end Engine

end SentinelAgent.Sigma
