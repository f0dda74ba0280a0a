import SentinelAgent.Library.Escaped
import SentinelAgent.Library.Json
import SentinelAgent.Library.Text

/- Security events as the formatters are given them, and how times, numbers and replaced
   characters are written. -/
namespace SentinelAgent.Siem

/- A moment in universal time. -/
structure DateTime where
  year : Int
  month : Fin 12
  day : Nat
  hour : Nat
  minute : Nat
  second : Nat
  deriving DecidableEq

inductive EventCategory where
  | compliance | security | network | fileIntegrity | system | authentication | configuration
  | vulnerability
  deriving DecidableEq

def EventCategory.display : EventCategory → String
  | .compliance => "compliance"
  | .security => "security"
  | .network => "network"
  | .fileIntegrity => "file_integrity"
  | .system => "system"
  | .authentication => "authentication"
  | .configuration => "configuration"
  | .vulnerability => "vulnerability"

/- A number as it stands in JSON. -/
structure Numeral where
  digits : List Char
  numeric : ∀ c ∈ digits, c.isDigit = true ∨ c ∈ ['+', '-', '.', 'e']

structure SiemEvent where
  timestamp : DateTime
  severity : Nat
  category : EventCategory
  name : List Char
  description : List Char
  sourceHost : List Char
  sourceIp : Option (List Char)
  destinationIp : Option (List Char)
  destinationPort : Option Nat
  user : Option (List Char)
  processName : Option (List Char)
  processId : Option Nat
  filePath : Option (List Char)
  customFields : Json Numeral
  eventId : List Char
  agentVersion : List Char

/- Every such character replaced by a text. -/
def replace (c : Char) (text : String) (s : List Char) : List Char :=
  s.flatMap fun x => if x = c then text.toList else [x]

theorem replace_append (c : Char) (text : String) (a b : List Char) :
    replace c text (a ++ b) = replace c text a ++ replace c text b := List.flatMap_append

theorem replace_cons (c : Char) (text : String) (x : Char) (s : List Char) :
    replace c text (x :: s) = (if x = c then text.toList else [x]) ++ replace c text s :=
  List.flatMap_cons

def decimal (n : Nat) : List Char := n.repr.toList

/- With zeros before it up to so many digits. -/
def padded (width n : Nat) : List Char :=
  List.replicate (width - (decimal n).length) '0' ++ decimal n

def monthName (month : Fin 12) : String :=
  ["Jan", "Feb", "Mar", "Apr", "May", "Jun", "Jul", "Aug", "Sep", "Oct", "Nov", "Dec"].get month

/- A year of more than four digits has its sign. -/
def yearText (year : Int) : List Char :=
  if year < 0 then '-' :: padded 4 year.natAbs
  else if year ≤ 9999 then padded 4 year.natAbs
  else '+' :: padded 4 year.natAbs

/- `%b %d %Y %H:%M:%S` -/
def DateTime.format (t : DateTime) : List Char :=
  (monthName t.month).toList ++ ' ' :: (padded 2 t.day ++ ' ' :: (yearText t.year ++ ' ' ::
    (padded 2 t.hour ++ ':' :: (padded 2 t.minute ++ ':' :: padded 2 t.second))))

def isQuote (c : Char) : Bool := c == '"'

/- Without the quotation marks at its end. -/
def trimQuotesEnd (s : List Char) : List Char := (s.reverse.dropWhile isQuote).reverse

/- The text of a JSON value in one line, without the quotation marks at its ends. -/
def customText (value : Json Numeral) : List Char :=
  trimQuotesEnd ((Json.text Numeral.digits value).dropWhile isQuote)

/- What a custom field says: a string its characters, any other value its JSON text. -/
def saidBy : Json Numeral → List Char
  | .string s => s
  | value => Json.text Numeral.digits value

def SiemEvent.customs (event : SiemEvent) : List (List Char × Json Numeral) :=
  match event.customFields with
  | .object fields => fields
  | _ => []

/- The characters of the texts the agent makes itself. -/
def isOrdinary (c : Char) : Bool :=
  c.isDigit || c.isAlpha || decide (c ∈ [' ', ':', '+', '-', '_', '.'])

def Ordinary (s : List Char) : Prop := ∀ c ∈ s, isOrdinary c = true

instance (s : List Char) : Decidable (Ordinary s) := List.decidableBAll _ s

theorem ordinary_append {a b : List Char} (first : Ordinary a) (second : Ordinary b) :
    Ordinary (a ++ b) := by
  intro c member
  rcases List.mem_append.mp member with there | there
  · exact first c there
  · exact second c there

theorem ordinary_cons {c : Char} {s : List Char} (first : isOrdinary c = true)
    (rest : Ordinary s) : Ordinary (c :: s) := by
  intro d member
  rcases List.mem_cons.mp member with rfl | there
  · exact first
  · exact rest d there

theorem ordinary_decimal (n : Nat) : Ordinary (decimal n) := by
  intro c member
  simp [isOrdinary, Text.repr_digits n c member]

theorem ordinary_padded (width n : Nat) : Ordinary (padded width n) := by
  refine ordinary_append ?_ (ordinary_decimal n)
  intro c member
  rw [List.eq_of_mem_replicate member]
  rfl

theorem ordinary_year (year : Int) : Ordinary (yearText year) := by
  unfold yearText
  split
  · exact ordinary_cons rfl (ordinary_padded _ _)
  · split
    · exact ordinary_padded _ _
    · exact ordinary_cons rfl (ordinary_padded _ _)

theorem ordinary_month (month : Fin 12) : Ordinary (monthName month).toList := by
  revert month
  decide

theorem ordinary_time (t : DateTime) : Ordinary t.format :=
  ordinary_append (ordinary_month _) (ordinary_cons rfl (ordinary_append (ordinary_padded _ _)
    (ordinary_cons rfl (ordinary_append (ordinary_year _) (ordinary_cons rfl
      (ordinary_append (ordinary_padded _ _) (ordinary_cons rfl (ordinary_append
        (ordinary_padded _ _) (ordinary_cons rfl (ordinary_padded _ _))))))))))

/- None of the characters that either format gives a meaning to. -/
theorem ordinary_free {s : List Char} (ordinary : Ordinary s) {c : Char}
    (special : isOrdinary c = false) : c ∉ s := by
  intro member
  rw [ordinary c member] at special
  cases special

theorem ordinary_escape {s : List Char} (ordinary : Ordinary s) {mark : Char}
    (special : isOrdinary mark = false) : Escaped.escape mark s = s := by
  apply Escaped.escape_ordinary
  intro c member
  have is := ordinary c member
  refine ⟨?_, ?_, ?_, ?_⟩
  · rintro rfl; cases is
  · rintro rfl; rw [special] at is; cases is
  · rintro rfl; cases is
  · rintro rfl; cases is

theorem trimQuotesEnd_quote (s : List Char) : trimQuotesEnd (s ++ ['"']) = trimQuotesEnd s := by
  rw [trimQuotesEnd, List.reverse_append, List.reverse_singleton, List.singleton_append,
    List.dropWhile_cons_of_pos rfl, trimQuotesEnd]

theorem trimQuotesEnd_other {c : Char} (other : isQuote c = false) (s : List Char) :
    trimQuotesEnd (s ++ [c]) = s ++ [c] := by
  rw [trimQuotesEnd, List.reverse_append, List.reverse_singleton, List.singleton_append,
    List.dropWhile_cons_of_neg (by simp [other]), List.reverse_cons, List.reverse_reverse]

theorem count_trimQuotesEnd (s : List Char) :
    (trimQuotesEnd s).count '\\' = s.count '\\' := by
  induction s using List.reverseRecOn with
  | nil => rfl
  | append_singleton s c ih =>
    by_cases quote : c = '"'
    · subst quote
      rw [trimQuotesEnd_quote, ih, List.count_append]
      rfl
    · rw [trimQuotesEnd_other (by simp [isQuote, quote])]

/- A string is written as it stands in JSON, less a quotation mark at its end. -/
theorem customText_string (s : List Char) :
    customText (.string s) = trimQuotesEnd (Json.escape s) := by
  rw [customText, Json.text, Json.quote, List.dropWhile_cons_of_pos rfl]
  cases s with
  | nil => rfl
  | cons c s =>
    obtain ⟨first, rest, starts, other⟩ := Json.escapeChar_head c
    have whole : Json.escape (c :: s) = first :: (rest ++ Json.escape s) := by
      rw [Json.escape, List.flatMap_cons, starts]
      rfl
    rw [whole, List.cons_append, List.dropWhile_cons_of_neg (by simp [isQuote, other]),
      ← List.cons_append, trimQuotesEnd_quote]

/- A text that neither begins nor ends with a quotation mark is left as it is. -/
theorem untrimmed {s : List Char} (head : ∀ c, s.head? = some c → c ≠ '"')
    (last : ∀ c, s.getLast? = some c → c ≠ '"') :
    trimQuotesEnd (s.dropWhile isQuote) = s := by
  have begins : s.dropWhile isQuote = s := by
    cases s with
    | nil => rfl
    | cons c s => exact List.dropWhile_cons_of_neg (by simp [isQuote, head c rfl])
  rw [begins]
  rcases List.eq_nil_or_concat s with rfl | ⟨front, c, rfl⟩
  · rfl
  · rw [List.concat_eq_append] at last ⊢
    exact trimQuotesEnd_other (by simp [isQuote, last c (by simp)]) front

theorem customText_other {value : Json Numeral} (other : ∀ s, value ≠ .string s) :
    customText value = saidBy value := by
  cases value with
  | null => decide
  | bool b => cases b <;> decide
  | number n =>
    have free : ∀ c ∈ n.digits, c ≠ '"' := by
      rintro c member rfl
      rcases n.numeric _ member with digit | sign
      · cases digit
      · simp at sign
    refine untrimmed (fun c first => free c (List.mem_of_head? first)) fun c last =>
      free c (List.mem_of_getLast? last)
  | string s => exact absurd rfl (other s)
  | array items =>
    refine untrimmed ?_ ?_ <;> rintro c ends rfl
    · cases ends
    · rw [Json.text, ← List.cons_append, List.getLast?_concat] at ends
      cases ends
  | object fields =>
    refine untrimmed ?_ ?_ <;> rintro c ends rfl
    · cases ends
    · rw [Json.text, ← List.cons_append, List.getLast?_concat] at ends
      cases ends

/- The attributes there are, of those an event may have. -/
def attributesOf (table : List (String × Option (List Char))) : List (List Char × List Char) :=
  table.flatMap fun entry => (entry.2.map fun value => (entry.1.toList, value)).toList

theorem attributesOf_nil : attributesOf [] = [] := rfl

theorem attributesOf_cons (key : String) (value : Option (List Char))
    (table : List (String × Option (List Char))) :
    attributesOf ((key, value) :: table) =
      (value.map fun v => (key.toList, v)).toList ++ attributesOf table := List.flatMap_cons

theorem mem_attributesOf {table : List (String × Option (List Char))} {pair : List Char × List Char} :
    pair ∈ attributesOf table ↔
      ∃ entry ∈ table, ∃ value, entry.2 = some value ∧ (entry.1.toList, value) = pair := by
  simp only [attributesOf, List.mem_flatMap, Option.mem_toList, Option.map_eq_some_iff]

/- A text without line breaks. -/
def OneLine (s : List Char) : Prop := ∀ c ∈ s, c ≠ '\n' ∧ c ≠ '\r'

instance (s : List Char) : Decidable (OneLine s) := List.decidableBAll _ s

theorem oneLine_append {a b : List Char} (first : OneLine a) (second : OneLine b) :
    OneLine (a ++ b) := by
  intro c member
  rcases List.mem_append.mp member with there | there
  · exact first c there
  · exact second c there

theorem oneLine_cons {c : Char} {s : List Char} (first : c ≠ '\n' ∧ c ≠ '\r') (rest : OneLine s) :
    OneLine (c :: s) := by
  intro d member
  rcases List.mem_cons.mp member with rfl | there
  · exact first
  · exact rest d there

theorem oneLine_ordinary {s : List Char} (ordinary : Ordinary s) : OneLine s := by
  intro c member
  refine ⟨?_, ?_⟩
  · rintro rfl
    exact ordinary_free ordinary rfl member
  · rintro rfl
    exact ordinary_free ordinary rfl member

theorem oneLine_intercalate {separator : Char} (ordinary : separator ≠ '\n' ∧ separator ≠ '\r')
    {pieces : List (List Char)} (each : ∀ piece ∈ pieces, OneLine piece) :
    OneLine ([separator].intercalate pieces) := by
  induction pieces with
  | nil => intro c member; cases member
  | cons piece pieces ih =>
    have first := each piece List.mem_cons_self
    cases pieces with
    | nil => rwa [List.intercalate_singleton]
    | cons next pieces =>
      rw [List.intercalate_cons_cons]
      refine oneLine_append (oneLine_append first (oneLine_cons ordinary ?_)) ?_
      · intro c member; cases member
      · exact ih fun p member => each p (List.mem_cons_of_mem _ member)

theorem oneLine_fields {fields : List (List Char)} (each : ∀ field ∈ fields, OneLine field)
    {rest : List Char} (last : OneLine rest) : OneLine (Escaped.fieldsText '|' fields rest) := by
  induction fields with
  | nil => exact last
  | cons field fields ih =>
    rw [Escaped.fieldsText]
    exact oneLine_append (each field List.mem_cons_self) (oneLine_cons (by decide)
      (ih fun f member => each f (List.mem_cons_of_mem _ member)))

end SentinelAgent.Siem
