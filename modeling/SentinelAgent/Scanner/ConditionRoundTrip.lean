import Mathlib.Data.List.Chain
import SentinelAgent.Scanner.ConditionGrammar

/- Writing a condition and reading it back, and the lists on which the parser
   and the grammar of checked targets agree. -/
namespace SentinelAgent.Scanner.ConditionParser
open Text

variable {target : String → Prop}

theorem quantifier_print {atLeast : Option Nat} (fits : ∀ n, atLeast = some n → n < 2 ^ 64) :
    quantifier (printQuantifier atLeast) = .ok atLeast := by
  cases atLeast with
  | none => decide
  | some n =>
    have not_all : n.repr ≠ "all" := repr_ne_word n (by decide)
    have not_any : n.repr ≠ "any" := repr_ne_word n (by decide)
    simp [printQuantifier, quantifier, lowercase_repr, not_all, not_any, parseUnsigned_repr (fits n rfl)]

/- A level stands for every looser one. -/
theorem Derives.loosen {own asked : Level} {tokens : List String} {expr : Expr}
    (derived : Derives target own tokens expr) (looser : asked.rank ≤ own.rank) :
    Derives target asked tokens expr := by
  cases own <;> cases asked <;> simp only [Level.rank] at looser <;> try omega
  all_goals first
    | exact derived
    | exact derived.ofAnd
    | exact derived.ofNot
    | exact derived.ofPrimary
    | exact derived.ofNot.ofAnd
    | exact derived.ofPrimary.ofNot
    | exact derived.ofPrimary.ofNot.ofAnd

theorem Derives.wrap {own : Level} {tokens : List String} {expr : Expr}
    (derived : Derives target own tokens expr) (asked : Level) :
    Derives target asked (wrap own asked tokens) expr := by
  rw [ConditionParser.wrap]
  split
  · rename_i looser
    exact derived.loosen looser
  · have whole : Derives target .or tokens expr := derived.loosen (Nat.zero_le _)
    exact (Derives.paren whole).loosen (by cases asked <;> decide)

theorem targetPattern_plain {name : String} (plain : eqIgnoreAsciiCase name "them" = false) :
    targetPattern name = name := by
  simp [targetPattern, plain]

theorem print_derives (expr : Expr) (printable : Printable target expr) (asked : Level) :
    Derives target asked (print asked expr) expr := by
  induction expr generalizing asked with
  | search name => exact (Derives.name printable).loosen (by cases asked <;> decide)
  | not inner ih => exact (Derives.not (by decide) (ih printable .not)).wrap asked
  | and left right ihl ihr =>
    exact (Derives.and (ihl printable.1 .and) (by decide) (ihr printable.2 .not)).wrap asked
  | or left right ihl ihr =>
    exact (Derives.or (ihl printable.1 .or) (by decide) (ihr printable.2 .and)).wrap asked
  | of atLeast pattern =>
    obtain ⟨allowed, plain, fits⟩ := printable
    have derived : Derives target .primary [printQuantifier atLeast, "of", pattern]
        (.of atLeast (targetPattern pattern)) :=
      .quantified (quantifier_print fits) (by decide) allowed
    rw [targetPattern_plain plain] at derived
    exact derived.loosen (by cases asked <;> decide)

/- What the printer writes is read back, whatever the pattern after `of` is. -/
theorem print_reads (expr : Expr) (printable : Printable AnyTarget expr) :
    parseTokens (print .or expr) = some (.ok expr) :=
  (parseTokens_iff _ _).mpr (print_derives expr printable .or)

/- A derivation with checked targets, seen on the tokens alone. No expression
   ends with the word `of`. -/
def Tidy (tokens : List String) : Prop :=
  TargetsChecked tokens ∧ ∀ last ∈ tokens.getLast?, eqIgnoreAsciiCase last "of" = false

theorem tidy_cons {word : String} {tokens : List String}
    (other : eqIgnoreAsciiCase word "of" = false) (tidy : Tidy tokens) (some_token : tokens ≠ []) :
    Tidy (word :: tokens) := by
  obtain ⟨checked, last⟩ := tidy
  constructor
  · rw [TargetsChecked, List.isChain_cons]
    constructor
    · intro next _ is_of
      simp [other] at is_of
    · exact checked
  · intro token member
    apply last token
    rwa [List.getLast?_cons_of_ne_nil some_token] at member

theorem tidy_append {first second : List String} (left : Tidy first) (right : Tidy second)
    (some_token : second ≠ []) : Tidy (first ++ second) := by
  constructor
  · rw [TargetsChecked, List.isChain_append]
    refine ⟨left.1, right.1, ?_⟩
    intro word member next _ is_of
    simp [left.2 word member] at is_of
  · intro token member
    apply right.2 token
    rwa [List.getLast?_append_of_ne_nil _ some_token] at member

theorem isName_not_of {token : String} (is_name : IsName token) :
    eqIgnoreAsciiCase token "of" = false := (reserved_false.mp is_name.2.2).2.2.2

theorem tidy_name {token : String} (is_name : IsName token) : Tidy [token] := by
  constructor
  · exact List.isChain_singleton _
  · intro last member
    simp only [List.getLast?_singleton, Option.mem_def, Option.some.injEq] at member
    exact member ▸ isName_not_of is_name

theorem derived_nonempty {level : Level} {tokens : List String} {expr : Expr}
    (derived : Derives target level tokens expr) : tokens ≠ [] := by
  induction derived with
  | ofAnd _ ih => exact ih
  | ofNot _ ih => exact ih
  | ofPrimary _ ih => exact ih
  | _ => simp

theorem checked_tidy {level : Level} {tokens : List String} {expr : Expr}
    (derived : Derives IsName level tokens expr) : Tidy tokens := by
  induction derived with
  | ofAnd _ ih => exact ih
  | or _ is_word right ihl ihr =>
    exact tidy_append ihl (tidy_cons (or_not_of is_word) ihr (derived_nonempty right)) (by simp)
  | ofNot _ ih => exact ih
  | and _ is_word right ihl ihr =>
    exact tidy_append ihl (tidy_cons (and_not_of is_word) ihr (derived_nonempty right)) (by simp)
  | ofPrimary _ ih => exact ih
  | not is_word inner ih =>
    exact tidy_cons (word_unique is_word (by decide)) ih (derived_nonempty inner)
  | name is_name => exact tidy_name is_name
  | paren inner ih =>
    have close : Tidy [")"] := by
      constructor
      · exact List.isChain_singleton _
      · decide
    exact tidy_cons (by decide) (tidy_append ih close (by simp)) (by simp)
  | @quantified token word name atLeast reads is_word allowed =>
    have tail : Tidy [word, name] := by
      constructor
      · simp only [TargetsChecked, List.isChain_cons_cons, List.isChain_singleton, and_true]
        exact fun _ => allowed
      · exact (tidy_name allowed).2
    exact tidy_cons (isName_not_of (quantifier_isName reads)) tail (by simp)

/- On a list with checked targets the parser's grammar is the checked one. -/
theorem derives_checked {level : Level} {tokens : List String} {expr : Expr}
    (derived : Derives AnyTarget level tokens expr) (checked : TargetsChecked tokens) :
    Derives IsName level tokens expr := by
  induction derived with
  | ofAnd _ ih => exact (ih checked).ofAnd
  | or _ is_word _ ihl ihr =>
    obtain ⟨left, right, _⟩ := List.isChain_append.mp checked
    exact .or (ihl left) is_word (ihr (List.isChain_cons.mp right).2)
  | ofNot _ ih => exact (ih checked).ofNot
  | and _ is_word _ ihl ihr =>
    obtain ⟨left, right, _⟩ := List.isChain_append.mp checked
    exact .and (ihl left) is_word (ihr (List.isChain_cons.mp right).2)
  | ofPrimary _ ih => exact (ih checked).ofPrimary
  | not is_word _ ih => exact .not is_word (ih (List.isChain_cons.mp checked).2)
  | name is_name => exact .name is_name
  | paren _ ih =>
    have inner := (List.isChain_cons.mp checked).2
    exact .paren (ih (List.isChain_append.mp inner).1)
  | quantified reads is_word _ =>
    have target := (List.isChain_cons.mp (List.isChain_cons.mp checked).2).1
    exact .quantified reads is_word (target _ rfl is_word)

theorem Derives.weaken {level : Level} {tokens : List String} {expr : Expr}
    (derived : Derives target level tokens expr) : Derives AnyTarget level tokens expr := by
  induction derived with
  | ofAnd _ ih => exact ih.ofAnd
  | or _ is_word _ ihl ihr => exact .or ihl is_word ihr
  | ofNot _ ih => exact ih.ofNot
  | and _ is_word _ ihl ihr => exact .and ihl is_word ihr
  | ofPrimary _ ih => exact ih.ofPrimary
  | not is_word _ ih => exact .not is_word ih
  | name is_name => exact .name is_name
  | paren _ ih => exact .paren ih
  | quantified reads is_word _ => exact .quantified reads is_word trivial

/- The parser reads a list as the grammar with checked targets does exactly when
   every `of` is followed by a name, or the list has no reading under any
   target. Printing and reading back works for every expression. -/
theorem parser_reads_grammar (tokens : List String) :
    ((∀ expr, parseTokens tokens = some (.ok expr) ↔ Derives IsName .or tokens expr) ↔
      TargetsChecked tokens ∨ ∀ expr, ¬ Derives AnyTarget .or tokens expr) ∧
    ∀ expr, Printable AnyTarget expr → parseTokens (print .or expr) = some (.ok expr) := by
  refine ⟨⟨?_, ?_⟩, print_reads⟩
  · intro agrees
    by_cases readable : ∃ expr, Derives AnyTarget .or tokens expr
    · obtain ⟨expr, derived⟩ := readable
      have checked := (agrees expr).mp ((parseTokens_iff tokens expr).mpr derived)
      exact Or.inl (checked_tidy checked).1
    · exact Or.inr (not_exists.mp readable)
  · intro holds expr
    rw [parseTokens_iff]
    constructor
    · intro derived
      rcases holds with checked | unreadable
      · exact derives_checked derived checked
      · exact absurd derived (unreadable expr)
    · exact Derives.weaken

theorem parenthesis_as_target :
    parseTokens ["1", "of", "("] = some (.ok (.of (some 1) "(")) ∧
      ¬ ∃ expr, Derives IsName .or ["1", "of", "("] expr := by
  constructor
  · decide
  · rintro ⟨expr, derived⟩
    have checked := (checked_tidy derived).1
    simp only [TargetsChecked, List.isChain_cons_cons] at checked
    exact absurd (checked.2.1 (by decide)) (by decide)

end SentinelAgent.Scanner.ConditionParser
