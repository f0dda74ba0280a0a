import Mathlib.Data.List.Infix
import SentinelAgent.Library.Globs

/- Regular expressions made of letters, wildcards and the two ends of a text: how they are
   written, and what they find. A dot stands for every letter, line breaks too. -/
namespace Expressions

inductive Piece where
  | letter (c : Char)
  | anyLetter
  | anyLetters
  | start
  | stop
  deriving DecidableEq

/- The letters that stand for themselves only after a backslash. -/
def isMeta (c : Char) : Bool :=
  c ∈ ['\\', '.', '+', '*', '?', '(', ')', '|', '[', ']', '{', '}', '^', '$', '#', '&', '-', '~']

def escape (text : List Char) : List Char :=
  text.flatMap fun c => if isMeta c then ['\\', c] else [c]

def Piece.text : Piece → List Char
  | letter c => escape [c]
  | anyLetter => ['.']
  | anyLetters => ['.', '*']
  | start => ['^']
  | stop => ['$']

/- The pieces a text is written for, if it is written with these only. -/
def read : List Char → Option (List Piece)
  | [] => some []
  | '\\' :: c :: rest => if isMeta c then (read rest).map (.letter c :: ·) else none
  | '.' :: '*' :: rest => (read rest).map (.anyLetters :: ·)
  | '.' :: rest => (read rest).map (.anyLetter :: ·)
  | '^' :: rest => (read rest).map (.start :: ·)
  | '$' :: rest => (read rest).map (.stop :: ·)
  | c :: rest => if isMeta c then none else (read rest).map (.letter c :: ·)

/- What the pieces say of a text from one place of it on; `first` when this is its start. -/
def found (same : Char → Char → Bool) : List Piece → Bool → List Char → Bool
  | [], _, _ => true
  | .letter _ :: _, _, [] => false
  | .letter c :: pieces, _, d :: rest => same c d && found same pieces false rest
  | .anyLetter :: _, _, [] => false
  | .anyLetter :: pieces, _, _ :: rest => found same pieces false rest
  | .anyLetters :: pieces, first, rest =>
    rest.tails.any fun left => found same pieces (first && left.length == rest.length) left
  | .start :: pieces, first, rest => first && found same pieces first rest
  | .stop :: pieces, first, rest => rest.isEmpty && found same pieces first rest

/- The expression is found somewhere in the text. -/
def isMatch (same : Char → Char → Bool) (pieces : List Piece) (text : List Char) : Bool :=
  text.tails.any fun rest => found same pieces (rest.length == text.length) rest

/- No piece is written with a star first. -/
theorem text_not_star (pieces : List Piece) (rest : List Char) :
    pieces.flatMap Piece.text ≠ '*' :: rest := by
  cases pieces with
  | nil => simp
  | cons piece pieces =>
    cases piece with
    | letter c =>
      by_cases special : isMeta c = true
      · simp [Piece.text, escape, special]
      · simp only [List.flatMap_cons, Piece.text, escape, special, List.flatMap_nil,
          Bool.false_eq_true, if_false, List.append_nil, List.cons_append, List.nil_append, ne_eq,
          List.cons.injEq, not_and]
        rintro rfl
        exact absurd (by decide) special
    | _ => simp [Piece.text]

/-- What is written for some pieces is read as these. -/
theorem read_text (pieces : List Piece) : read (pieces.flatMap Piece.text) = some pieces := by
  induction pieces with
  | nil => rfl
  | cons piece pieces ih =>
    cases piece with
    | letter c =>
      by_cases special : isMeta c = true
      · simp [Piece.text, escape, special, read, ih]
      · have plain : ∀ d, isMeta d = true → c ≠ d := fun d meta_d same => special (same ▸ meta_d)
        simp only [List.flatMap_cons, Piece.text, escape, special, List.flatMap_nil,
          Bool.false_eq_true, if_false, List.append_nil, List.cons_append, List.nil_append]
        rw [read]
        · simp [special, ih]
        · intro _ _ same
          exact absurd same (plain _ (by decide))
        · intro _ same
          exact absurd same (plain _ (by decide))
        · exact plain _ (by decide)
        · exact plain _ (by decide)
        · exact plain _ (by decide)
    | anyLetter =>
      simp only [List.flatMap_cons, Piece.text, List.cons_append, List.nil_append]
      rw [read, ih]
      · rfl
      · intro rest starred
        exact text_not_star pieces rest starred
    | anyLetters => simp [Piece.text, read, ih]
    | start => simp [Piece.text, read, ih]
    | stop => simp [Piece.text, read, ih]

/-! Patterns of letters and wildcards, as expressions. -/

inductive Wild where
  | letter (c : Char)
  | one
  | many
  deriving DecidableEq

def Wild.piece : Wild → Piece
  | letter c => .letter c
  | one => .anyLetter
  | many => .anyLetters

def Wild.item (same : Char → Char → Bool) : Wild → Globs.Item Char
  | letter c => .one (same c)
  | one => .one fun _ => true
  | many => .many

section Wilds
variable {same : Char → Char → Bool}

/- A place is the start of the text when nothing was skipped before it. -/
theorem still_first (first : Bool) (skipped word rest : List Char) :
    (first && (word ++ rest).length == (skipped ++ (word ++ rest)).length && word.isEmpty) =
      (first && (skipped ++ word).isEmpty) := by
  cases skipped with
  | nil => simp
  | cons c skipped =>
    have longer : (word ++ rest).length ≠ (c :: skipped ++ (word ++ rest)).length := by
      simp only [List.length_append, List.length_cons]
      omega
    rw [beq_eq_false_iff_ne.mpr longer]
    simp

/-- A pattern takes a word of its language, and what stands after it is left to the rest. -/
theorem found_wilds (wilds : List Wild) (more : List Piece) (first : Bool) (text : List Char) :
    found same (wilds.map Wild.piece ++ more) first text = true ↔
      ∃ word rest, text = word ++ rest ∧ Globs.Matches (wilds.map (Wild.item same)) word ∧
        found same more (first && word.isEmpty) rest = true := by
  induction wilds generalizing first text with
  | nil => simp [Globs.Matches]
  | cons wild wilds ih =>
    have letter (accepts : Char → Bool) (c : Char) (text : List Char) :
        (accepts c = true ∧ found same (wilds.map Wild.piece ++ more) false text = true) ↔
          ∃ word rest, c :: text = word ++ rest ∧
            Globs.Matches (.one accepts :: wilds.map (Wild.item same)) word ∧
              found same more (first && word.isEmpty) rest = true := by
      rw [ih]
      constructor
      · rintro ⟨accepted, word, rest, rfl, matched, left⟩
        exact ⟨c :: word, rest, rfl, ⟨c, word, rfl, accepted, matched⟩, by simpa using left⟩
      · rintro ⟨_, rest, whole, ⟨d, word, rfl, accepted, matched⟩, left⟩
        obtain ⟨rfl, rfl⟩ := List.cons.inj whole
        exact ⟨accepted, word, rest, rfl, matched, by simpa using left⟩
    have no_letter (accepts : Char → Bool) : ¬ ∃ word rest, [] = word ++ rest ∧
        Globs.Matches (.one accepts :: wilds.map (Wild.item same)) word ∧
          found same more (first && word.isEmpty) rest = true := by
      rintro ⟨_, rest, whole, ⟨d, word, rfl, _⟩, _⟩
      cases whole
    cases wild with
    | letter c =>
      cases text with
      | nil =>
        simp only [List.map_cons, List.cons_append, Wild.piece, Wild.item, found, no_letter,
          Bool.false_eq_true]
      | cons d text =>
        rw [List.map_cons, List.map_cons, List.cons_append, Wild.piece, Wild.item, ← letter]
        simp only [found, Bool.and_eq_true]
    | one =>
      cases text with
      | nil =>
        simp only [List.map_cons, List.cons_append, Wild.piece, Wild.item, found, no_letter,
          Bool.false_eq_true]
      | cons d text =>
        rw [List.map_cons, List.map_cons, List.cons_append, Wild.piece, Wild.item, ← letter]
        simp only [found, true_and]
    | many =>
      simp only [List.map_cons, List.cons_append, Wild.piece, Wild.item, found, List.any_eq_true,
        List.mem_tails, ih, Globs.Matches]
      constructor
      · rintro ⟨_, ⟨skipped, rfl⟩, word, rest, rfl, matched, left⟩
        rw [still_first] at left
        exact ⟨skipped ++ word, rest, by simp, ⟨word, List.suffix_append _ _, matched⟩, left⟩
      · rintro ⟨_, rest, rfl, ⟨word, ⟨skipped, rfl⟩, matched⟩, left⟩
        rw [List.append_assoc] at *
        rw [← still_first _ skipped word rest] at left
        exact ⟨word ++ rest, ⟨skipped, rfl⟩, word, rest, rfl, matched, left⟩

/-- How a pattern is anchored decides what of the text it has to take. -/
theorem isMatch_whole (wilds : List Wild) (text : List Char) :
    isMatch same ([.start] ++ (wilds.map Wild.piece ++ [.stop])) text = true ↔
      Globs.Matches (wilds.map (Wild.item same)) text := by
  simp only [isMatch, List.any_eq_true, List.mem_tails, List.singleton_append, found,
    Bool.and_eq_true, beq_iff_eq, found_wilds, List.isEmpty_iff, and_true]
  constructor
  · rintro ⟨_, ⟨skipped, rfl⟩, all, word, rest, rfl, matched, rfl⟩
    have none_skipped : skipped = [] := by
      simp only [List.length_append] at all
      exact List.length_eq_zero_iff.mp (by omega)
    simpa [none_skipped] using matched
  · intro matched
    exact ⟨text, List.suffix_refl text, rfl, text, [], by simp, matched, rfl⟩

theorem isMatch_from_start (wilds : List Wild) (text : List Char) :
    isMatch same ([.start] ++ wilds.map Wild.piece) text = true ↔
      Globs.Matches (wilds.map (Wild.item same) ++ [.many]) text := by
  rw [Globs.matches_then_many, ← List.append_nil (wilds.map Wild.piece)]
  simp only [isMatch, List.any_eq_true, List.mem_tails, List.singleton_append, found,
    Bool.and_eq_true, beq_iff_eq, found_wilds, and_true]
  constructor
  · rintro ⟨_, ⟨skipped, rfl⟩, all, word, rest, rfl, matched⟩
    have none_skipped : skipped = [] := by
      simp only [List.length_append] at all
      exact List.length_eq_zero_iff.mp (by omega)
    exact ⟨word, rest, by rw [none_skipped, List.nil_append], matched⟩
  · rintro ⟨word, rest, rfl, matched⟩
    exact ⟨word ++ rest, List.suffix_refl _, rfl, word, rest, rfl, matched⟩

theorem isMatch_to_stop (wilds : List Wild) (text : List Char) :
    isMatch same (wilds.map Wild.piece ++ [.stop]) text = true ↔
      Globs.Matches (.many :: wilds.map (Wild.item same)) text := by
  simp only [isMatch, List.any_eq_true, List.mem_tails, found, Bool.and_eq_true, found_wilds,
    List.isEmpty_iff, and_true, Globs.Matches]
  constructor
  · rintro ⟨_, tail, word, rest, rfl, matched, rfl⟩
    exact ⟨word, by simpa using tail, matched⟩
  · rintro ⟨word, tail, matched⟩
    exact ⟨word, tail, word, [], by simp, matched, rfl⟩

theorem isMatch_within (wilds : List Wild) (text : List Char) :
    isMatch same (wilds.map Wild.piece) text = true ↔
      Globs.Matches (.many :: wilds.map (Wild.item same) ++ [.many]) text := by
  rw [← List.append_nil (wilds.map Wild.piece)]
  simp only [isMatch, List.any_eq_true, List.mem_tails, found, found_wilds, and_true,
    List.cons_append, Globs.Matches, Globs.matches_then_many]

end Wilds
end Expressions
