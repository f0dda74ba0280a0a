import SentinelAgent.Scanner.Correlation
import SentinelAgent.Scanner.SigmaValues

/- How a correlation rule is read from its document, and what holds of one that is. -/
namespace SentinelAgent.Sigma
open Text Scanner

def maxTimespanDays : Int := 30

def maxU64 : Nat := 2 ^ 64 - 1

/- A number of 64 bits, with or without a sign. -/
def parseI64 (text : String) : Option Int :=
  let negative := text.toList.head? == some '-'
  let digits := if negative || text.toList.head? == some '+' then text.toList.tail else text.toList
  if digits ≠ [] ∧ digits.all Char.isDigit = true then
    let size : Int := Nat.ofDigitChars 10 digits 0
    let number := if negative then -size else size
    if -2 ^ 63 ≤ number ∧ number < 2 ^ 63 then some number else none
  else none

def unitSeconds (unit : Char) : Option Int :=
  match unit with
  | 's' => some 1
  | 'm' => some 60
  | 'h' => some 3600
  | 'd' => some 86400
  | 'w' => some 604800
  | _ => none

def parseTimespan (source : String) : Except String { seconds : Int // 0 < seconds } :=
  let text := trim source
  let invalid := s!"timespan '{text}' is not a number followed by s, m, h, d or w"
  match text.toList.getLast? with
  | none => .error invalid
  | some unit =>
    match parseI64 (String.ofList text.toList.dropLast), unitSeconds unit with
    | some number, some seconds =>
      let span := number * seconds
      if span < -2 ^ 63 ∨ 2 ^ 63 ≤ span then .error invalid
      else if positive : 0 < span then
        if span > maxTimespanDays * 86400 then
          .error s!"timespan '{text}' is longer than {maxTimespanDays} days"
        else .ok ⟨span, positive⟩
      else .error s!"timespan '{text}' must be positive"
    | _, _ => .error invalid

def textList : Yaml → List String
  | .array items => items.filterMap scalarText
  | single => (scalarText single).toList

def parseLevel (level : String) : SigmaLevel :=
  match toAsciiLowercase (trim level) with
  | "informational" => .informational
  | "info" => .informational
  | "low" => .low
  | "high" => .high
  | "critical" => .critical
  | _ => .medium

def parseKind (correlation : Yaml) : Except String CorrelationKind :=
  match (textField correlation "type").map toAsciiLowercase with
  | some "event_count" => .ok .eventCount
  | some "value_count" => .ok .valueCount
  | some "temporal" => .ok .temporal
  | some "temporal_ordered" => .ok .temporalOrdered
  | some other => .error s!"correlation type '{other}' is not supported"
  | none => .error "correlation has no type"

def kindText : CorrelationKind → String
  | .eventCount => "event_count"
  | .valueCount => "value_count"
  | .temporal => "temporal"
  | .temporalOrdered => "temporal_ordered"

def conditionNumber (key : String) (value : Yaml) : Except String Nat :=
  match value.asInteger.filter fun number => decide (0 ≤ number) with
  | some number => .ok number.toNat
  | none => .error s!"condition '{key}' takes a positive number"

/- One entry of the condition, after those before it. -/
def conditionEntry (threshold : Option Nat) (entry : Yaml × Yaml) : Except String (Option Nat) :=
  let key := toAsciiLowercase (entry.1.asStr.getD "")
  if key = "gte" then (conditionNumber key entry.2).map some
  else if key = "gt" then
    (conditionNumber key entry.2).map fun number => some (min (number + 1) maxU64)
  else if key = "field" then .ok threshold
  else if ["lt", "lte", "eq", "neq"].contains key then
    .error s!"condition '{key}' describes an absence and is not supported (use gte or gt)"
  else .error s!"condition '{key}' is not supported"

def parseThreshold (condition : Yaml) : Except String (Option Nat) :=
  (condition.asHash.getD []).foldlM conditionEntry none

def isTemporal (kind : CorrelationKind) : Bool :=
  kind == .temporal || kind == .temporalOrdered

/- Every rule listed, by default. -/
def parseAtLeast (kind : CorrelationKind) (rules : List String) (threshold : Option Nat) :
    Except String { atLeast : Nat // 0 < atLeast } :=
  match threshold with
  | some 0 => .error "condition must be at least 1"
  | some (n + 1) => .ok ⟨n + 1, Nat.succ_pos n⟩
  | none =>
    if isTemporal kind then
      if listed : 0 < rules.length then .ok ⟨rules.length, listed⟩
      else .error "correlation lists no rule"
    else .error "correlation has no condition (gte or gt)"

def timespanText (correlation : Yaml) : Except String String :=
  match (textField correlation "timespan").or (textField correlation "timeframe") with
  | some text => .ok text
  | none => .error "correlation has no timespan"

def generates (document correlation : Yaml) : Bool :=
  ((correlation.get "generate").asBool.or (document.get "generate").asBool).getD false

def refuse (condition : Prop) [Decidable condition] (reason : String) : Except String Unit :=
  if condition then .error reason else .ok ()

def parseCorrelation (document : Yaml) : Except String CorrelationRule := do
  let title ← ((textField document "title").elim (.error "correlation has no title") .ok)
  let correlation := document.get "correlation"
  refuse (correlation.asHash.isNone = true) "'correlation' is not a map"
  refuse ((correlation.get "aliases").isBadValue = false) "'aliases' are not supported"
  let kind ← parseKind correlation
  let rules := textList (correlation.get "rules")
  refuse (rules = []) "correlation lists no rule"
  let groupBy := (textList (correlation.get "group-by")).map fun field =>
    toAsciiLowercase (trim field)
  let text ← timespanText correlation
  let timespan ← parseTimespan text
  let condition := correlation.get "condition"
  let threshold ← parseThreshold condition
  let atLeast ← parseAtLeast kind rules threshold
  refuse (isTemporal kind = true ∧ (rules.length < 2 ∨ rules.length < atLeast.val))
    (s!"a {kindText kind} correlation needs at least two rules and a condition no larger " ++
      "than their number")
  let valueField := (textField condition "field").map toAsciiLowercase
  refuse (kind = .valueCount ∧ valueField = none) "a value_count correlation needs condition.field"
  .ok
    { id := (textField document "id").getD title
      title := title
      description := (textField document "description").getD ""
      level := (textField document "level").elim .medium parseLevel
      tags := tagsOf document
      name := textField document "name"
      kind := kind
      rules := rules
      groupBy := groupBy
      timespan := timespan.val
      atLeast := atLeast.val
      valueField := valueField
      generate := generates document correlation
      timespan_pos := timespan.property
      atLeast_pos := atLeast.property }

theorem bind_ok {E A B : Type} {x : Except E A} {f : A → Except E B} {b : B}
    (done : x >>= f = .ok b) : ∃ a, x = .ok a ∧ f a = .ok b := by
  cases x with
  | error e => cases done
  | ok a => exact ⟨a, rfl, done⟩

theorem refuse_ok {condition : Prop} [Decidable condition] {reason : String} {u : Unit}
    (passed : refuse condition reason = .ok u) : ¬ condition := by
  intro refused
  rw [refuse, if_pos refused] at passed
  cases passed

/-- What is checked of a correlation that is accepted. -/
structure Accepted (r : CorrelationRule) : Prop where
  listed : r.rules ≠ []
  temporal : isTemporal r.kind = true → 2 ≤ r.rules.length ∧ r.atLeast ≤ r.rules.length
  field : r.kind = .valueCount → ∃ field, r.valueField = some field

theorem parsed_accepted {document : Yaml} {r : CorrelationRule}
    (read : parseCorrelation document = .ok r) : Accepted r := by
  unfold parseCorrelation at read
  obtain ⟨title, _, read⟩ := bind_ok read
  obtain ⟨_, _, read⟩ := bind_ok read
  obtain ⟨_, _, read⟩ := bind_ok read
  obtain ⟨kind, _, read⟩ := bind_ok read
  obtain ⟨_, some_rule, read⟩ := bind_ok read
  obtain ⟨text, _, read⟩ := bind_ok read
  obtain ⟨timespan, _, read⟩ := bind_ok read
  obtain ⟨threshold, _, read⟩ := bind_ok read
  obtain ⟨atLeast, _, read⟩ := bind_ok read
  obtain ⟨_, enough, read⟩ := bind_ok read
  obtain ⟨_, counted, read⟩ := bind_ok read
  rw [← Except.ok.inj read]
  refine ⟨refuse_ok some_rule, ?_, ?_⟩
  · intro temporal
    have both := refuse_ok enough
    constructor
    · by_contra few
      exact both ⟨temporal, Or.inl (Nat.lt_of_not_le few)⟩
    · by_contra many
      exact both ⟨temporal, Or.inr (Nat.lt_of_not_le many)⟩
  · intro value
    have held := refuse_ok counted
    exact Option.ne_none_iff_exists'.mp fun absent => held ⟨value, absent⟩

end SentinelAgent.Sigma
