import Mathlib.Data.List.Infix

/- Patterns of letters and wildcards, and the words they stand for. -/
namespace Globs

variable {A : Type}

/- One place of a pattern: a letter, or a run of any letters. -/
inductive Item (A : Type) where
  | one (accepts : A → Bool)
  | many

/- The word belongs to the language of the pattern. -/
def Matches : List (Item A) → List A → Prop
  | [], word => word = []
  | .one accepts :: items, word =>
    ∃ c rest, word = c :: rest ∧ accepts c = true ∧ Matches items rest
  | .many :: items, word => ∃ rest, rest <:+ word ∧ Matches items rest

def matchesHere : List (Item A) → List A → Bool
  | [], word => word.isEmpty
  | .one _ :: _, [] => false
  | .one accepts :: items, c :: rest => accepts c && matchesHere items rest
  | .many :: items, word => word.tails.any (matchesHere items)

theorem matchesHere_iff (items : List (Item A)) (word : List A) :
    matchesHere items word = true ↔ Matches items word := by
  induction items generalizing word with
  | nil => simp [matchesHere, Matches]
  | cons item items ih =>
    cases item with
    | one accepts =>
      cases word with
      | nil => simp [matchesHere, Matches]
      | cons c rest =>
        simp only [matchesHere, Matches, Bool.and_eq_true, ih, List.cons.injEq]
        constructor
        · rintro ⟨accepted, matched⟩
          exact ⟨c, rest, ⟨rfl, rfl⟩, accepted, matched⟩
        · rintro ⟨_, _, ⟨rfl, rfl⟩, accepted, matched⟩
          exact ⟨accepted, matched⟩
    | many =>
      simp only [matchesHere, Matches, List.any_eq_true, List.mem_tails, ih]

instance (items : List (Item A)) (word : List A) : Decidable (Matches items word) :=
  decidable_of_iff _ (matchesHere_iff items word)

/- How many letters a word of the pattern has at least. -/
def letters : List (Item A) → Nat
  | [] => 0
  | .one _ :: items => letters items + 1
  | .many :: items => letters items

theorem letters_le {items : List (Item A)} {word : List A} (matched : Matches items word) :
    letters items ≤ word.length := by
  induction items generalizing word with
  | nil => exact Nat.zero_le _
  | cons item items ih =>
    cases item with
    | one accepts =>
      obtain ⟨c, rest, rfl, _, matched⟩ := matched
      exact Nat.succ_le_succ (ih matched)
    | many =>
      obtain ⟨rest, tail, matched⟩ := matched
      exact (ih matched).trans tail.length_le

theorem matches_append {first second : List (Item A)} {word : List A} :
    Matches (first ++ second) word ↔
      ∃ before after, word = before ++ after ∧ Matches first before ∧ Matches second after := by
  induction first generalizing word with
  | nil => simp [Matches]
  | cons item first ih =>
    cases item with
    | one accepts =>
      simp only [List.cons_append, Matches, ih]
      constructor
      · rintro ⟨c, _, rfl, accepted, before, after, rfl, head, tail⟩
        exact ⟨c :: before, after, rfl, ⟨c, before, rfl, accepted, head⟩, tail⟩
      · rintro ⟨_, after, rfl, ⟨c, before, rfl, accepted, head⟩, tail⟩
        exact ⟨c, before ++ after, rfl, accepted, before, after, rfl, head, tail⟩
    | many =>
      simp only [List.cons_append, Matches, ih]
      constructor
      · rintro ⟨_, ⟨skipped, rfl⟩, before, after, rfl, head, tail⟩
        exact ⟨skipped ++ before, after, by simp, ⟨before, List.suffix_append _ _, head⟩, tail⟩
      · rintro ⟨_, after, rfl, ⟨before, ⟨skipped, rfl⟩, head⟩, tail⟩
        exact ⟨before ++ after, ⟨skipped, by simp⟩, before, after, rfl, head, tail⟩

theorem matches_then_many {items : List (Item A)} {word : List A} :
    Matches (items ++ [.many]) word ↔ ∃ before after, word = before ++ after ∧
      Matches items before := by
  rw [matches_append]
  constructor
  · rintro ⟨before, after, whole, matched, _⟩
    exact ⟨before, after, whole, matched⟩
  · rintro ⟨before, after, whole, matched⟩
    exact ⟨before, after, whole, matched, [], List.nil_suffix, rfl⟩

/- However many runs stand in a row, they are one. -/
theorem matches_runs {n : Nat} {items : List (Item A)} {word : List A} :
    Matches (List.replicate (n + 1) Item.many ++ items) word ↔ Matches (.many :: items) word := by
  induction n generalizing word with
  | zero => rfl
  | succ n ih =>
    rw [List.replicate_succ, List.cons_append]
    simp only [Matches, ih]
    constructor
    · rintro ⟨_, outer, rest, inner, matched⟩
      exact ⟨rest, inner.trans outer, matched⟩
    · rintro ⟨rest, tail, matched⟩
      exact ⟨word, List.suffix_refl word, rest, tail, matched⟩

section Words
variable [BEq A]

/- A letter that stands for itself. -/
def exactly (a : A) : Item A := .one (· == a)

variable [LawfulBEq A]

theorem matches_word {pattern word : List A} :
    Matches (pattern.map exactly) word ↔ word = pattern := by
  induction pattern generalizing word with
  | nil => rfl
  | cons a pattern ih =>
    simp only [List.map_cons, exactly, Matches, beq_iff_eq] at *
    constructor
    · rintro ⟨_, _, rfl, rfl, matched⟩
      rw [ih.mp matched]
    · rintro rfl
      exact ⟨a, pattern, rfl, rfl, ih.mpr rfl⟩

/- A word between whose first and last letters anything may stand. -/
theorem matches_ends {n : Nat} {start stop word : List A} :
    Matches (start.map exactly ++ (List.replicate (n + 1) Item.many ++ stop.map exactly)) word ↔
      ∃ between, word = start ++ between ++ stop := by
  rw [matches_append]
  simp only [matches_word, matches_runs, Matches]
  constructor
  · rintro ⟨_, _, rfl, rfl, _, ⟨between, rfl⟩, rfl⟩
    exact ⟨between, by simp⟩
  · rintro ⟨between, rfl⟩
    exact ⟨start, between ++ stop, by simp, rfl, stop, List.suffix_append _ _, rfl⟩

end Words
end Globs
