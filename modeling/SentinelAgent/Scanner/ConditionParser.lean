import SentinelAgent.Library.Text

/- The condition of a detection rule: its expressions, the recursive-descent
   parser that reads them and the grammar it is meant to read. -/
namespace SentinelAgent.Scanner
open Text

/- A parsed `condition`. `of none p` asks for all the searches of pattern `p`. -/
inductive Expr where
  | search (name : String)
  | not (inner : Expr)
  | and (left right : Expr)
  | or (left right : Expr)
  | of (atLeast : Option Nat) (pattern : String)
  deriving DecidableEq, Repr

namespace ConditionParser

/- What a parsing function comes back with: an expression and the tokens after
   it, or the text of an error. `outOfFuel` is the model's own, see
   `parseTokens_finishes`. -/
inductive Outcome where
  | parsed (expr : Expr) (rest : List String)
  | error (text : String)
  | outOfFuel
  deriving DecidableEq

/- The `?` operator. -/
def Outcome.bind : Outcome → (Expr → List String → Outcome) → Outcome
  | .parsed expr rest, next => next expr rest
  | .error text, _ => .error text
  | .outOfFuel, _ => .outOfFuel

/- Whether the next token is this word. -/
def keyword (word : String) (tokens : List String) : Bool :=
  tokens.head?.any (eqIgnoreAsciiCase · word)

def reserved (token : String) : Bool :=
  ["and", "or", "not", "of"].any (eqIgnoreAsciiCase token)

/- The number before `of`; `all` stands for all of them. -/
def quantifier (token : String) : Except String (Option Nat) :=
  let number := toAsciiLowercase token
  if number = "all" then .ok none
  else if number = "any" then .ok (some 1)
  else match parseUnsigned 64 number with
    | some n => .ok (some n)
    | none => .error ("'" ++ token ++ " of' is not a valid quantifier")

def targetPattern (target : String) : String :=
  if eqIgnoreAsciiCase target "them" then "*" else target

/- The end of `N of target`, after the quantifier and `of`. -/
def ofTarget (token : String) (rest : List String) : Outcome :=
  match quantifier token with
  | .error text => .error text
  | .ok atLeast => match rest with
    | [] => .error "'of' needs a search name"
    | target :: rest => .parsed (.of atLeast (targetPattern target)) rest

/- The closing parenthesis, after the expression it closes. -/
def closed (inner : Expr) : List String → Outcome
  | [] => .error "missing ')' in condition"
  | token :: rest =>
    if token = ")" then .parsed inner rest else .error "missing ')' in condition"

/- The parser's functions. Each takes the tokens from its position on; the two
   `while` loops of the source are `orLoop` and `andLoop`. -/
mutual

def orExpr : Nat → List String → Outcome
  | 0, _ => .outOfFuel
  | fuel + 1, tokens => (andExpr fuel tokens).bind fun left rest => orLoop fuel left rest

def orLoop : Nat → Expr → List String → Outcome
  | 0, _, _ => .outOfFuel
  | fuel + 1, left, tokens =>
    if keyword "or" tokens then
      (andExpr fuel tokens.tail).bind fun right rest => orLoop fuel (.or left right) rest
    else .parsed left tokens

def andExpr : Nat → List String → Outcome
  | 0, _ => .outOfFuel
  | fuel + 1, tokens => (notExpr fuel tokens).bind fun left rest => andLoop fuel left rest

def andLoop : Nat → Expr → List String → Outcome
  | 0, _, _ => .outOfFuel
  | fuel + 1, left, tokens =>
    if keyword "and" tokens then
      (notExpr fuel tokens.tail).bind fun right rest => andLoop fuel (.and left right) rest
    else .parsed left tokens

def notExpr : Nat → List String → Outcome
  | 0, _ => .outOfFuel
  | fuel + 1, tokens =>
    if keyword "not" tokens then
      (notExpr fuel tokens.tail).bind fun inner rest => .parsed (.not inner) rest
    else primary fuel tokens

def primary : Nat → List String → Outcome
  | 0, _ => .outOfFuel
  | _ + 1, [] => .error "condition ends unexpectedly"
  | fuel + 1, token :: rest =>
    if token = "(" then (orExpr fuel rest).bind closed
    else if token = ")" then .error "unexpected ')' in condition"
    else if keyword "of" rest then ofTarget token rest.tail
    else if reserved token then .error ("unexpected '" ++ token ++ "' in condition")
    else .parsed (.search token) rest

end

/- Fuel that suffices for a list of so many tokens. -/
def fuelFor (tokens : List String) : Nat := 4 * tokens.length + 4

/- `ConditionParser::parse` on the tokens; `none` would be a parser that never
   comes back. -/
def parseTokens (tokens : List String) : Option (Except String Expr) :=
  match orExpr (fuelFor tokens) tokens with
  | .parsed expr [] => some (.ok expr)
  | .parsed _ (token :: _) => some (.error ("unexpected '" ++ token ++ "' in condition"))
  | .error text => some (.error text)
  | .outOfFuel => none

example : parseTokens ["a", "or", "not", "b", "AND", "1", "of", "them"] =
    some (.ok (.or (.search "a") (.and (.not (.search "b")) (.of (some 1) "*")))) := by
  decide

/- The grammar. -/
inductive Level where
  | or | and | not | primary
  deriving DecidableEq

def IsName (token : String) : Prop := token ≠ "(" ∧ token ≠ ")" ∧ reserved token = false

instance (token : String) : Decidable (IsName token) :=
  inferInstanceAs (Decidable (_ ∧ _ ∧ _))

/- The tokens an expression of each level is written with, when `target` says
   what may stand after `of`. -/
inductive Derives (target : String → Prop) : Level → List String → Expr → Prop
  | ofAnd {tokens expr} : Derives target .and tokens expr → Derives target .or tokens expr
  | or {left right word a b} : Derives target .or left a → eqIgnoreAsciiCase word "or" = true →
      Derives target .and right b → Derives target .or (left ++ word :: right) (.or a b)
  | ofNot {tokens expr} : Derives target .not tokens expr → Derives target .and tokens expr
  | and {left right word a b} : Derives target .and left a → eqIgnoreAsciiCase word "and" = true →
      Derives target .not right b → Derives target .and (left ++ word :: right) (.and a b)
  | ofPrimary {tokens expr} : Derives target .primary tokens expr → Derives target .not tokens expr
  | not {tokens word a} : eqIgnoreAsciiCase word "not" = true → Derives target .not tokens a →
      Derives target .not (word :: tokens) (.not a)
  | name {token} : IsName token → Derives target .primary [token] (.search token)
  | paren {tokens expr} : Derives target .or tokens expr →
      Derives target .primary ("(" :: (tokens ++ [")"])) expr
  | quantified {token word name atLeast} : quantifier token = .ok atLeast →
      eqIgnoreAsciiCase word "of" = true → target name →
      Derives target .primary [token, word, name] (.of atLeast (targetPattern name))

/- Writing an expression, with parentheses only where the level asks for them. -/
def Level.rank : Level → Nat
  | .or => 0 | .and => 1 | .not => 2 | .primary => 3

def wrap (own asked : Level) (tokens : List String) : List String :=
  if asked.rank ≤ own.rank then tokens else "(" :: (tokens ++ [")"])

def printQuantifier : Option Nat → String
  | none => "all"
  | some n => n.repr

def print : Level → Expr → List String
  | _, .search name => [name]
  | asked, .not inner => wrap .not asked ("not" :: print .not inner)
  | asked, .and left right => wrap .and asked (print .and left ++ "and" :: print .not right)
  | asked, .or left right => wrap .or asked (print .or left ++ "or" :: print .and right)
  | _, .of atLeast pattern => [printQuantifier atLeast, "of", pattern]

/- The expressions that can be written: names are names, a number fits its type. -/
def Printable (target : String → Prop) : Expr → Prop
  | .search name => IsName name
  | .not inner => Printable target inner
  | .and left right => Printable target left ∧ Printable target right
  | .or left right => Printable target left ∧ Printable target right
  | .of atLeast pattern => target pattern ∧ eqIgnoreAsciiCase pattern "them" = false ∧
      ∀ n, atLeast = some n → n < 2 ^ 64

/- Every `of` of the list is followed by a name, where a token follows it. -/
def TargetsChecked (tokens : List String) : Prop :=
  tokens.IsChain fun word next => eqIgnoreAsciiCase word "of" = true → IsName next

end ConditionParser
end SentinelAgent.Scanner
