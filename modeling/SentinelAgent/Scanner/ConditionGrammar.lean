import SentinelAgent.Scanner.ConditionParser

/- What the condition parser accepts, against the grammar of conditions. -/
namespace SentinelAgent.Scanner.ConditionParser
open Text

variable {target : String → Prop}

/- The parser checks no target. -/
abbrev AnyTarget : String → Prop := fun _ => True

theorem bind_parsed {out : Outcome} {next : Expr → List String → Outcome} {expr : Expr}
    {rest : List String} (done : out.bind next = .parsed expr rest) :
    ∃ inner tail, out = .parsed inner tail ∧ next inner tail = .parsed expr rest := by
  cases out with
  | parsed inner tail => exact ⟨inner, tail, rfl, done⟩
  | error text => simp [Outcome.bind] at done
  | outOfFuel => simp [Outcome.bind] at done

theorem bind_finishes {out : Outcome} {next : Expr → List String → Outcome}
    (first : out ≠ .outOfFuel)
    (then_ : ∀ inner tail, out = .parsed inner tail → next inner tail ≠ .outOfFuel) :
    out.bind next ≠ .outOfFuel := by
  cases out with
  | parsed inner tail => exact then_ inner tail rfl
  | error text => simp [Outcome.bind]
  | outOfFuel => exact absurd rfl first

theorem keyword_cons {word : String} {tokens : List String} (next : keyword word tokens = true) :
    ∃ token, tokens = token :: tokens.tail ∧ eqIgnoreAsciiCase token word = true := by
  cases tokens with
  | nil => simp [keyword] at next
  | cons token rest => exact ⟨token, rfl, by simpa [keyword] using next⟩

@[simp] theorem keyword_cons_eq (word token : String) (rest : List String) :
    keyword word (token :: rest) = eqIgnoreAsciiCase token word := rfl

theorem or_not_of {token : String} (h : eqIgnoreAsciiCase token "or" = true) :
    eqIgnoreAsciiCase token "of" = false := word_unique h (by decide)

theorem or_not_and {token : String} (h : eqIgnoreAsciiCase token "or" = true) :
    eqIgnoreAsciiCase token "and" = false := word_unique h (by decide)

theorem and_not_of {token : String} (h : eqIgnoreAsciiCase token "and" = true) :
    eqIgnoreAsciiCase token "of" = false := word_unique h (by decide)

theorem reserved_false {token : String} :
    reserved token = false ↔ eqIgnoreAsciiCase token "and" = false ∧
      eqIgnoreAsciiCase token "or" = false ∧ eqIgnoreAsciiCase token "not" = false ∧
      eqIgnoreAsciiCase token "of" = false := by
  simp [reserved]

/- A quantifier is no parenthesis and no reserved word. -/
theorem quantifier_isName {token : String} {atLeast : Option Nat}
    (reads : quantifier token = .ok atLeast) : IsName token := by
  have readable : ∀ word, quantifier word = .error ("'" ++ word ++ " of' is not a valid quantifier") →
      token ≠ word := by
    intro word refused same
    subst same
    simp [refused] at reads
  have lowered : ∀ word, toAsciiLowercase word = word → word ≠ "all" → word ≠ "any" →
      parseUnsigned 64 word = none → eqIgnoreAsciiCase token word = false := by
    intro word lower not_all not_any unreadable
    by_contra same
    have equal : toAsciiLowercase token = word := by
      simpa [eqIgnoreAsciiCase, lower] using same
    simp [quantifier, equal, not_all, not_any, unreadable] at reads
  refine ⟨readable "(" (by decide), readable ")" (by decide), reserved_false.mpr ?_⟩
  exact ⟨lowered "and" (by decide) (by decide) (by decide) (by decide),
    lowered "or" (by decide) (by decide) (by decide) (by decide),
    lowered "not" (by decide) (by decide) (by decide) (by decide),
    lowered "of" (by decide) (by decide) (by decide) (by decide)⟩

/- Nothing outside the grammar is read: each function returns the expression
   of the tokens it used. -/
structure Sound (fuel : Nat) : Prop where
  orExpr : ∀ tokens expr rest, orExpr fuel tokens = .parsed expr rest →
    ∃ used, tokens = used ++ rest ∧ Derives AnyTarget .or used expr
  orLoop : ∀ left before tokens expr rest, Derives AnyTarget .or before left →
    orLoop fuel left tokens = .parsed expr rest →
    ∃ used, tokens = used ++ rest ∧ Derives AnyTarget .or (before ++ used) expr
  andExpr : ∀ tokens expr rest, andExpr fuel tokens = .parsed expr rest →
    ∃ used, tokens = used ++ rest ∧ Derives AnyTarget .and used expr
  andLoop : ∀ left before tokens expr rest, Derives AnyTarget .and before left →
    andLoop fuel left tokens = .parsed expr rest →
    ∃ used, tokens = used ++ rest ∧ Derives AnyTarget .and (before ++ used) expr
  notExpr : ∀ tokens expr rest, notExpr fuel tokens = .parsed expr rest →
    ∃ used, tokens = used ++ rest ∧ Derives AnyTarget .not used expr
  primary : ∀ tokens expr rest, primary fuel tokens = .parsed expr rest →
    ∃ used, tokens = used ++ rest ∧ Derives AnyTarget .primary used expr

theorem sound_zero : Sound 0 := by
  constructor <;> intros <;> simp_all [orExpr, orLoop, andExpr, andLoop, notExpr, primary]

theorem sound_orExpr {fuel : Nat} (sound : Sound fuel) (tokens : List String) (expr : Expr)
    (rest : List String) (done : orExpr (fuel + 1) tokens = .parsed expr rest) :
    ∃ used, tokens = used ++ rest ∧ Derives AnyTarget .or used expr := by
  rw [orExpr] at done
  obtain ⟨left, tail, first, more⟩ := bind_parsed done
  obtain ⟨used, split, derived⟩ := sound.andExpr _ _ _ first
  obtain ⟨used', split', derived'⟩ := sound.orLoop _ _ _ _ _ derived.ofAnd more
  exact ⟨used ++ used', by simp [split, split'], derived'⟩

theorem sound_andExpr {fuel : Nat} (sound : Sound fuel) (tokens : List String) (expr : Expr)
    (rest : List String) (done : andExpr (fuel + 1) tokens = .parsed expr rest) :
    ∃ used, tokens = used ++ rest ∧ Derives AnyTarget .and used expr := by
  rw [andExpr] at done
  obtain ⟨left, tail, first, more⟩ := bind_parsed done
  obtain ⟨used, split, derived⟩ := sound.notExpr _ _ _ first
  obtain ⟨used', split', derived'⟩ := sound.andLoop _ _ _ _ _ derived.ofNot more
  exact ⟨used ++ used', by simp [split, split'], derived'⟩

theorem sound_orLoop {fuel : Nat} (sound : Sound fuel) (left : Expr) (before tokens : List String)
    (expr : Expr) (rest : List String) (so_far : Derives AnyTarget .or before left)
    (done : orLoop (fuel + 1) left tokens = .parsed expr rest) :
    ∃ used, tokens = used ++ rest ∧ Derives AnyTarget .or (before ++ used) expr := by
  rw [orLoop] at done
  split at done
  · rename_i next
    obtain ⟨word, split, is_word⟩ := keyword_cons next
    obtain ⟨right, tail, first, more⟩ := bind_parsed done
    obtain ⟨used, split', derived⟩ := sound.andExpr _ _ _ first
    obtain ⟨used', split'', derived'⟩ := sound.orLoop _ _ _ _ _ (.or so_far is_word derived) more
    have tokens_eq : tokens = (word :: used ++ used') ++ rest := by
      rw [split, split', split'']
      simp
    exact ⟨word :: used ++ used', tokens_eq, by simpa using derived'⟩
  · obtain ⟨rfl, rfl⟩ := Outcome.parsed.inj done
    exact ⟨[], rfl, by simpa using so_far⟩

theorem sound_andLoop {fuel : Nat} (sound : Sound fuel) (left : Expr) (before tokens : List String)
    (expr : Expr) (rest : List String) (so_far : Derives AnyTarget .and before left)
    (done : andLoop (fuel + 1) left tokens = .parsed expr rest) :
    ∃ used, tokens = used ++ rest ∧ Derives AnyTarget .and (before ++ used) expr := by
  rw [andLoop] at done
  split at done
  · rename_i next
    obtain ⟨word, split, is_word⟩ := keyword_cons next
    obtain ⟨right, tail, first, more⟩ := bind_parsed done
    obtain ⟨used, split', derived⟩ := sound.notExpr _ _ _ first
    obtain ⟨used', split'', derived'⟩ := sound.andLoop _ _ _ _ _ (.and so_far is_word derived) more
    have tokens_eq : tokens = (word :: used ++ used') ++ rest := by
      rw [split, split', split'']
      simp
    exact ⟨word :: used ++ used', tokens_eq, by simpa using derived'⟩
  · obtain ⟨rfl, rfl⟩ := Outcome.parsed.inj done
    exact ⟨[], rfl, by simpa using so_far⟩

theorem sound_notExpr {fuel : Nat} (sound : Sound fuel) (tokens : List String) (expr : Expr)
    (rest : List String) (done : notExpr (fuel + 1) tokens = .parsed expr rest) :
    ∃ used, tokens = used ++ rest ∧ Derives AnyTarget .not used expr := by
  rw [notExpr] at done
  split at done
  · rename_i next
    obtain ⟨word, split, is_word⟩ := keyword_cons next
    obtain ⟨inner, tail, first, more⟩ := bind_parsed done
    obtain ⟨rfl, rfl⟩ := Outcome.parsed.inj more
    obtain ⟨used, split', derived⟩ := sound.notExpr _ _ _ first
    exact ⟨word :: used, by rw [split, split']; rfl, .not is_word derived⟩
  · obtain ⟨used, split, derived⟩ := sound.primary _ _ _ done
    exact ⟨used, split, derived.ofPrimary⟩

theorem closed_parsed {inner expr : Expr} {tokens rest : List String}
    (done : closed inner tokens = .parsed expr rest) : tokens = ")" :: rest ∧ inner = expr := by
  cases tokens with
  | nil => simp [closed] at done
  | cons token tail =>
    rw [closed] at done
    split at done
    · rename_i is_close
      obtain ⟨rfl, rfl⟩ := Outcome.parsed.inj done
      exact ⟨by rw [is_close], rfl⟩
    · simp at done

theorem ofTarget_parsed {token : String} {expr : Expr} {tokens rest : List String}
    (done : ofTarget token tokens = .parsed expr rest) :
    ∃ atLeast name, quantifier token = .ok atLeast ∧ tokens = name :: rest ∧
      expr = .of atLeast (targetPattern name) := by
  rw [ofTarget] at done
  split at done
  · simp at done
  · rename_i atLeast reads
    cases tokens with
    | nil => simp at done
    | cons name tail =>
      obtain ⟨rfl, rfl⟩ := Outcome.parsed.inj done
      exact ⟨atLeast, name, reads, rfl, rfl⟩

theorem sound_primary {fuel : Nat} (sound : Sound fuel) (tokens : List String) (expr : Expr)
    (rest : List String) (done : primary (fuel + 1) tokens = .parsed expr rest) :
    ∃ used, tokens = used ++ rest ∧ Derives AnyTarget .primary used expr := by
  cases tokens with
  | nil => simp [primary] at done
  | cons token tail =>
    rw [primary] at done
    by_cases is_open : token = "("
    · rw [if_pos is_open] at done
      obtain ⟨inner, after, first, more⟩ := bind_parsed done
      obtain ⟨split, rfl⟩ := closed_parsed more
      obtain ⟨used, split', derived⟩ := sound.orExpr _ _ _ first
      have tokens_eq : token :: tail = ("(" :: (used ++ [")"])) ++ rest := by
        rw [is_open, split', split]
        simp
      exact ⟨_, tokens_eq, .paren derived⟩
    rw [if_neg is_open] at done
    by_cases is_close : token = ")"
    · simp [is_close] at done
    rw [if_neg is_close] at done
    by_cases next : keyword "of" tail = true
    · rw [if_pos next] at done
      obtain ⟨word, split, is_word⟩ := keyword_cons next
      obtain ⟨atLeast, name, reads, split', rfl⟩ := ofTarget_parsed done
      have tokens_eq : token :: tail = [token, word, name] ++ rest := by
        rw [split, split']
        rfl
      exact ⟨_, tokens_eq, .quantified reads is_word trivial⟩
    rw [if_neg next] at done
    by_cases is_reserved : reserved token = true
    · simp [is_reserved] at done
    rw [if_neg is_reserved] at done
    obtain ⟨rfl, rfl⟩ := Outcome.parsed.inj done
    exact ⟨[token], rfl, .name ⟨is_open, is_close, by simpa using is_reserved⟩⟩

theorem sound (fuel : Nat) : Sound fuel := by
  induction fuel with
  | zero => exact sound_zero
  | succ fuel ih =>
    exact ⟨sound_orExpr ih, sound_orLoop ih, sound_andExpr ih, sound_andLoop ih,
      sound_notExpr ih, sound_primary ih⟩

/- Nothing inside the grammar is refused. A derived prefix is used up and no
   more; the loops go on from it with what follows. -/
def Reads : Level → List String → Expr → Prop
  | .primary, used, expr => ∀ fuel rest, 4 * (used ++ rest).length + 1 ≤ fuel →
      keyword "of" rest = false → primary fuel (used ++ rest) = .parsed expr rest
  | .not, used, expr => ∀ fuel rest, 4 * (used ++ rest).length + 2 ≤ fuel →
      keyword "of" rest = false → notExpr fuel (used ++ rest) = .parsed expr rest
  | .and, used, expr => ∀ fuel rest out, 4 * (used ++ rest).length + 3 ≤ fuel →
      keyword "of" rest = false →
      (∀ fuel', 4 * rest.length + 1 ≤ fuel' → andLoop fuel' expr rest = out) →
      andExpr fuel (used ++ rest) = out
  | .or, used, expr => ∀ fuel rest out, 4 * (used ++ rest).length + 4 ≤ fuel →
      keyword "of" rest = false → keyword "and" rest = false →
      (∀ fuel', 4 * rest.length + 1 ≤ fuel' → orLoop fuel' expr rest = out) →
      orExpr fuel (used ++ rest) = out

theorem andLoop_stops {fuel : Nat} {left : Expr} {tokens : List String} (enough : 1 ≤ fuel)
    (stop : keyword "and" tokens = false) : andLoop fuel left tokens = .parsed left tokens := by
  obtain ⟨fuel, rfl⟩ : ∃ n, fuel = n + 1 := ⟨fuel - 1, by omega⟩
  simp [andLoop, stop]

theorem orLoop_stops {fuel : Nat} {left : Expr} {tokens : List String} (enough : 1 ≤ fuel)
    (stop : keyword "or" tokens = false) : orLoop fuel left tokens = .parsed left tokens := by
  obtain ⟨fuel, rfl⟩ : ∃ n, fuel = n + 1 := ⟨fuel - 1, by omega⟩
  simp [orLoop, stop]

theorem reads_ofAnd {used : List String} {expr : Expr} (ih : Reads .and used expr) :
    Reads .or used expr := by
  intro fuel rest out enough no_of no_and goes_on
  obtain ⟨fuel, rfl⟩ : ∃ n, fuel = n + 1 := ⟨fuel - 1, by omega⟩
  have first : andExpr fuel (used ++ rest) = .parsed expr rest :=
    ih fuel rest _ (by omega) no_of fun fuel' enough' => andLoop_stops (by omega) no_and
  have later : 4 * rest.length + 1 ≤ fuel := by
    simp only [List.length_append] at enough
    omega
  simp only [orExpr, first, Outcome.bind]
  exact goes_on fuel later

theorem reads_or {left right : List String} {word : String} {a b : Expr}
    (is_word : eqIgnoreAsciiCase word "or" = true) (ihl : Reads .or left a)
    (ihr : Reads .and right b) : Reads .or (left ++ word :: right) (.or a b) := by
  intro fuel rest out enough no_of no_and goes_on
  simp only [List.append_assoc, List.cons_append] at enough ⊢
  apply ihl fuel _ out enough (or_not_of is_word) (or_not_and is_word)
  intro fuel' enough'
  obtain ⟨fuel', rfl⟩ : ∃ n, fuel' = n + 1 := ⟨fuel' - 1, by omega⟩
  simp only [List.length_cons] at enough'
  have second : andExpr fuel' (right ++ rest) = .parsed b rest :=
    ihr fuel' rest _ (by omega) no_of fun _ enough'' => andLoop_stops (by omega) no_and
  simp only [List.length_append] at enough'
  rw [orLoop]
  simp only [keyword_cons_eq, is_word, if_true, List.tail_cons, second, Outcome.bind]
  exact goes_on fuel' (by omega)

theorem reads_ofNot {used : List String} {expr : Expr} (ih : Reads .not used expr) :
    Reads .and used expr := by
  intro fuel rest out enough no_of goes_on
  obtain ⟨fuel, rfl⟩ : ∃ n, fuel = n + 1 := ⟨fuel - 1, by omega⟩
  have first : notExpr fuel (used ++ rest) = .parsed expr rest := ih fuel rest (by omega) no_of
  have later : 4 * rest.length + 1 ≤ fuel := by
    simp only [List.length_append] at enough
    omega
  simp only [andExpr, first, Outcome.bind]
  exact goes_on fuel later

theorem reads_and {left right : List String} {word : String} {a b : Expr}
    (is_word : eqIgnoreAsciiCase word "and" = true) (ihl : Reads .and left a)
    (ihr : Reads .not right b) : Reads .and (left ++ word :: right) (.and a b) := by
  intro fuel rest out enough no_of goes_on
  simp only [List.append_assoc, List.cons_append] at enough ⊢
  apply ihl fuel _ out enough (and_not_of is_word)
  intro fuel' enough'
  obtain ⟨fuel', rfl⟩ : ∃ n, fuel' = n + 1 := ⟨fuel' - 1, by omega⟩
  simp only [List.length_cons] at enough'
  have second : notExpr fuel' (right ++ rest) = .parsed b rest := ihr fuel' rest (by omega) no_of
  simp only [List.length_append] at enough'
  rw [andLoop]
  simp only [keyword_cons_eq, is_word, if_true, List.tail_cons, second, Outcome.bind]
  exact goes_on fuel' (by omega)

/- What starts a primary is not the word `not`. -/
theorem primary_starts {used : List String} {expr : Expr}
    (derived : Derives target .primary used expr) (rest : List String) :
    keyword "not" (used ++ rest) = false := by
  cases derived with
  | name is_name => exact (reserved_false.mp is_name.2.2).2.2.1
  | paren _ => exact (by decide : eqIgnoreAsciiCase "(" "not" = false)
  | quantified reads _ _ => exact (reserved_false.mp (quantifier_isName reads).2.2).2.2.1

theorem reads_ofPrimary {used : List String} {expr : Expr}
    (derived : Derives target .primary used expr) (ih : Reads .primary used expr) :
    Reads .not used expr := by
  intro fuel rest enough no_of
  obtain ⟨fuel, rfl⟩ : ∃ n, fuel = n + 1 := ⟨fuel - 1, by omega⟩
  have no_not := primary_starts derived rest
  rw [notExpr, if_neg (by simp [no_not])]
  exact ih fuel rest (by omega) no_of

theorem reads_not {used : List String} {word : String} {a : Expr}
    (is_word : eqIgnoreAsciiCase word "not" = true) (ih : Reads .not used a) :
    Reads .not (word :: used) (.not a) := by
  intro fuel rest enough no_of
  obtain ⟨fuel, rfl⟩ : ∃ n, fuel = n + 1 := ⟨fuel - 1, by omega⟩
  simp only [List.cons_append, List.length_cons] at enough ⊢
  have inner : notExpr fuel (used ++ rest) = .parsed a rest := ih fuel rest (by omega) no_of
  rw [notExpr]
  simp only [keyword_cons_eq, is_word, if_true, List.tail_cons, inner, Outcome.bind]

theorem reads_name {token : String} (is_name : IsName token) :
    Reads .primary [token] (.search token) := by
  intro fuel rest enough no_of
  obtain ⟨fuel, rfl⟩ : ∃ n, fuel = n + 1 := ⟨fuel - 1, by omega⟩
  obtain ⟨no_open, no_close, free⟩ := is_name
  simp [primary, no_open, no_close, no_of, free]

theorem reads_paren {used : List String} {expr : Expr} (ih : Reads .or used expr) :
    Reads .primary ("(" :: (used ++ [")"])) expr := by
  intro fuel rest enough no_of
  obtain ⟨fuel, rfl⟩ : ∃ n, fuel = n + 1 := ⟨fuel - 1, by omega⟩
  simp only [List.cons_append, List.append_assoc, List.nil_append,
    List.length_cons] at enough ⊢
  have close_word : ∀ word, eqIgnoreAsciiCase ")" word = false →
      keyword word (")" :: rest) = false := fun _ h => h
  have inner : orExpr fuel (used ++ ")" :: rest) = .parsed expr (")" :: rest) :=
    ih fuel _ _ (by omega) (close_word _ (by decide)) (close_word _ (by decide))
      fun _ enough' => orLoop_stops (by omega) (close_word _ (by decide))
  simp [primary, inner, Outcome.bind, closed]

theorem reads_quantified {token word name : String} {atLeast : Option Nat}
    (reads : quantifier token = .ok atLeast) (is_word : eqIgnoreAsciiCase word "of" = true) :
    Reads .primary [token, word, name] (.of atLeast (targetPattern name)) := by
  intro fuel rest enough no_of
  obtain ⟨fuel, rfl⟩ : ∃ n, fuel = n + 1 := ⟨fuel - 1, by omega⟩
  obtain ⟨no_open, no_close, _⟩ := quantifier_isName reads
  simp [primary, no_open, no_close, is_word, ofTarget, reads]

theorem reads_derived {level : Level} {used : List String} {expr : Expr}
    (derived : Derives target level used expr) : Reads level used expr := by
  induction derived with
  | ofAnd _ ih => exact reads_ofAnd ih
  | or _ is_word _ ihl ihr => exact reads_or is_word ihl ihr
  | ofNot _ ih => exact reads_ofNot ih
  | and _ is_word _ ihl ihr => exact reads_and is_word ihl ihr
  | ofPrimary derived ih => exact reads_ofPrimary derived ih
  | not is_word _ ih => exact reads_not is_word ih
  | name is_name => exact reads_name is_name
  | paren _ ih => exact reads_paren ih
  | quantified reads is_word _ => exact reads_quantified reads is_word

/- The fuel of `parseTokens` is enough whatever the tokens are. -/
structure Finishes (fuel : Nat) : Prop where
  orExpr : ∀ tokens, 4 * tokens.length + 4 ≤ fuel → orExpr fuel tokens ≠ .outOfFuel
  orLoop : ∀ left tokens, 4 * tokens.length + 1 ≤ fuel → orLoop fuel left tokens ≠ .outOfFuel
  andExpr : ∀ tokens, 4 * tokens.length + 3 ≤ fuel → andExpr fuel tokens ≠ .outOfFuel
  andLoop : ∀ left tokens, 4 * tokens.length + 1 ≤ fuel → andLoop fuel left tokens ≠ .outOfFuel
  notExpr : ∀ tokens, 4 * tokens.length + 2 ≤ fuel → notExpr fuel tokens ≠ .outOfFuel
  primary : ∀ tokens, 4 * tokens.length + 1 ≤ fuel → primary fuel tokens ≠ .outOfFuel

theorem rest_length {used rest tokens : List String} (split : tokens = used ++ rest) :
    rest.length ≤ tokens.length := by
  rw [split, List.length_append]
  omega

theorem tail_length {word : String} {tokens : List String} (next : keyword word tokens = true) :
    tokens.tail.length + 1 = tokens.length := by
  obtain ⟨token, split, _⟩ := keyword_cons next
  rw [split]
  simp

theorem finishes_orExpr {fuel : Nat} (ih : Finishes fuel) (tokens : List String)
    (enough : 4 * tokens.length + 4 ≤ fuel + 1) : orExpr (fuel + 1) tokens ≠ .outOfFuel := by
  rw [orExpr]
  apply bind_finishes (ih.andExpr tokens (by omega))
  intro left rest first
  obtain ⟨used, split, _⟩ := (sound fuel).andExpr _ _ _ first
  have shorter := rest_length split
  exact ih.orLoop left rest (by omega)

theorem finishes_andExpr {fuel : Nat} (ih : Finishes fuel) (tokens : List String)
    (enough : 4 * tokens.length + 3 ≤ fuel + 1) : andExpr (fuel + 1) tokens ≠ .outOfFuel := by
  rw [andExpr]
  apply bind_finishes (ih.notExpr tokens (by omega))
  intro left rest first
  obtain ⟨used, split, _⟩ := (sound fuel).notExpr _ _ _ first
  have shorter := rest_length split
  exact ih.andLoop left rest (by omega)

theorem finishes_orLoop {fuel : Nat} (ih : Finishes fuel) (left : Expr) (tokens : List String)
    (enough : 4 * tokens.length + 1 ≤ fuel + 1) : orLoop (fuel + 1) left tokens ≠ .outOfFuel := by
  rw [orLoop]
  split
  · rename_i next
    have one := tail_length next
    apply bind_finishes (ih.andExpr _ (by omega))
    intro right rest first
    obtain ⟨used, split, _⟩ := (sound fuel).andExpr _ _ _ first
    have shorter := rest_length split
    exact ih.orLoop _ rest (by omega)
  · simp

theorem finishes_andLoop {fuel : Nat} (ih : Finishes fuel) (left : Expr) (tokens : List String)
    (enough : 4 * tokens.length + 1 ≤ fuel + 1) : andLoop (fuel + 1) left tokens ≠ .outOfFuel := by
  rw [andLoop]
  split
  · rename_i next
    have one := tail_length next
    apply bind_finishes (ih.notExpr _ (by omega))
    intro right rest first
    obtain ⟨used, split, _⟩ := (sound fuel).notExpr _ _ _ first
    have shorter := rest_length split
    exact ih.andLoop _ rest (by omega)
  · simp

theorem finishes_notExpr {fuel : Nat} (ih : Finishes fuel) (tokens : List String)
    (enough : 4 * tokens.length + 2 ≤ fuel + 1) : notExpr (fuel + 1) tokens ≠ .outOfFuel := by
  rw [notExpr]
  split
  · rename_i next
    have one := tail_length next
    apply bind_finishes (ih.notExpr _ (by omega))
    simp
  · exact ih.primary tokens (by omega)

theorem finishes_primary {fuel : Nat} (ih : Finishes fuel) (tokens : List String)
    (enough : 4 * tokens.length + 1 ≤ fuel + 1) : primary (fuel + 1) tokens ≠ .outOfFuel := by
  cases tokens with
  | nil => simp [primary]
  | cons token rest =>
    simp only [List.length_cons] at enough
    have inner : (orExpr fuel rest).bind closed ≠ .outOfFuel := by
      apply bind_finishes (ih.orExpr rest (by omega))
      intro inner tail _
      cases tail with
      | nil => simp [closed]
      | cons token tail =>
        rw [closed]
        split <;> simp
    have target : ofTarget token rest.tail ≠ .outOfFuel := by
      rw [ofTarget]
      split
      · simp
      · split <;> simp
    rw [primary]
    split_ifs <;> first | exact inner | exact target | simp

theorem finishes (fuel : Nat) : Finishes fuel := by
  induction fuel with
  | zero =>
    constructor <;> intros <;> omega
  | succ fuel ih =>
    exact ⟨finishes_orExpr ih, finishes_orLoop ih, finishes_andExpr ih, finishes_andLoop ih,
      finishes_notExpr ih, finishes_primary ih⟩

theorem parseTokens_finishes (tokens : List String) : parseTokens tokens ≠ none := by
  have done := (finishes (fuelFor tokens)).orExpr tokens le_rfl
  rw [parseTokens]
  split <;> simp_all

/- The parser reads the grammar in which any token is a target. -/
theorem parseTokens_iff (tokens : List String) (expr : Expr) :
    parseTokens tokens = some (.ok expr) ↔ Derives AnyTarget .or tokens expr := by
  constructor
  · intro done
    rw [parseTokens] at done
    split at done <;> simp_all
    rename_i read
    obtain ⟨used, split, derived⟩ := (sound _).orExpr _ _ _ read
    simpa [split] using derived
  · intro derived
    have read : orExpr (fuelFor tokens) (tokens ++ []) = .parsed expr [] :=
      reads_derived derived _ [] _ (by simp [fuelFor]) rfl rfl
        fun _ enough => orLoop_stops (by omega) rfl
    rw [List.append_nil] at read
    simp [parseTokens, read]

end SentinelAgent.Scanner.ConditionParser
