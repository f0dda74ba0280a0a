import SentinelAgent.Library.HalfEscaped
import SentinelAgent.Siem.Event

/- The LEEF formatter, and how a receiver reads what it writes. -/
namespace SentinelAgent.Siem
open Escaped

structure LeefFormatter where
  vendor : List Char
  product : List Char
  version : List Char

namespace LeefFormatter

def escapeHeader (s : List Char) : List Char :=
  replace '\r' "\\r" (replace '\n' "\\n" (replace '|' "\\|" s))

def escapeValue (s : List Char) : List Char :=
  replace '=' "\\=" (replace '\r' "\\r" (replace '\n' "\\n" (replace '\t' " " s)))

def mapSeverity (severity : Nat) : String :=
  if severity ≤ 2 then "Low"
  else if severity ≤ 4 then "Medium"
  else if severity ≤ 7 then "High"
  else if severity ≤ 10 then "Critical"
  else "Unknown"

def attr (key : String) (value : List Char) : List Char := key.toList ++ '=' :: value

/- `%b %d %Y %H:%M:%S %Z` -/
def devTime (t : DateTime) : List Char := t.format ++ " UTC".toList

def attrs (event : SiemEvent) : List (List Char) :=
  [attr "devTime" (devTime event.timestamp),
    "devTimeFormat=MMM dd yyyy HH:mm:ss z".toList,
    attr "cat" (escapeValue event.category.display.toList),
    attr "sev" (mapSeverity event.severity).toList,
    attr "src" (escapeValue event.sourceHost)] ++
  (event.sourceIp.map fun ip => attr "srcIP" (escapeValue ip)).toList ++
  (event.destinationIp.map fun ip => attr "dstIP" (escapeValue ip)).toList ++
  (event.destinationPort.map fun port => attr "dstPort" (decimal port)).toList ++
  (event.user.map fun user => attr "usrName" (escapeValue user)).toList ++
  (event.processName.map fun process => attr "procName" (escapeValue process)).toList ++
  (event.processId.map fun pid => attr "procId" (decimal pid)).toList ++
  (event.filePath.map fun path => attr "fileName" (escapeValue path)).toList ++
  [attr "msg" (escapeValue event.description),
    attr "eventId" (escapeValue event.eventId),
    attr "agentVersion" (escapeValue event.agentVersion)] ++
  event.customs.map fun field => escapeValue field.1 ++ '=' :: escapeValue (customText field.2)

def format (f : LeefFormatter) (event : SiemEvent) : List Char :=
  "LEEF:2.0|".toList ++ escapeHeader f.vendor ++ '|' :: escapeHeader f.product ++
    '|' :: escapeHeader f.version ++ '|' :: escapeHeader event.name ++
    '|' :: ['\t'].intercalate (attrs event)

end LeefFormatter

/- A key and a value with one unescaped equals sign between them. -/
def readAttribute (piece : List Token) : Option (List Char × List Char) :=
  match cut '=' piece with
  | some (key, value) => if .plain '=' ∈ value then none else some (unescape key, unescape value)
  | none => none

/- The header fields and the attributes of a LEEF line. -/
def readLeef (line : List Char) : Option (List (List Char) × List (List Char × List Char)) :=
  match tokens line with
  | some ts =>
    match readFields '|' 5 ts with
    | some (fields, rest) =>
      (readAll readAttribute (rest.splitOn (.plain '\t'))).map fun pairs => (fields, pairs)
    | none => none
  | none => none

/- The attributes of an event but for the custom fields. -/
def leefTable (event : SiemEvent) : List (String × Option (List Char)) :=
  [("devTime", some (LeefFormatter.devTime event.timestamp)),
    ("devTimeFormat", some "MMM dd yyyy HH:mm:ss z".toList),
    ("cat", some event.category.display.toList),
    ("sev", some (LeefFormatter.mapSeverity event.severity).toList),
    ("src", some event.sourceHost), ("srcIP", event.sourceIp), ("dstIP", event.destinationIp),
    ("dstPort", event.destinationPort.map decimal), ("usrName", event.user),
    ("procName", event.processName), ("procId", event.processId.map decimal),
    ("fileName", event.filePath), ("msg", some event.description),
    ("eventId", some event.eventId), ("agentVersion", some event.agentVersion)]

def leefAttributes (event : SiemEvent) : List (List Char × List Char) :=
  attributesOf (leefTable event) ++ event.customs.map fun field => (field.1, saidBy field.2)

def leefHeader (f : LeefFormatter) (event : SiemEvent) : List (List Char) :=
  ["LEEF:2.0".toList, f.vendor, f.product, f.version, event.name]

section Escapes

/- A tab becomes a blank. -/
def blankTab (c : Char) : Char := if c = '\t' then ' ' else c

theorem soft_header : Softening '|' id where
  mark_escape := by decide
  mark_break := by decide
  mark_letter := by decide
  kept c := Or.inl rfl

theorem soft_value : Softening '=' blankTab where
  mark_escape := by decide
  mark_break := by decide
  mark_letter := by decide
  kept c := by
    by_cases tab : c = '\t'
    · subst tab
      exact Or.inr (by decide)
    · exact Or.inl (if_neg tab)

theorem escapeHeader_eq (s : List Char) :
    LeefFormatter.escapeHeader s = halfEscape '|' id s := by
  induction s with
  | nil => rfl
  | cons c s ih =>
    rw [halfEscape_cons, ← ih, LeefFormatter.escapeHeader, replace_cons, replace_append,
      replace_append, ← LeefFormatter.escapeHeader]
    refine congrArg₂ (· ++ ·) ?_ rfl
    by_cases bar : c = '|'
    · subst bar; decide
    · by_cases feed : c = '\n'
      · subst feed; decide
      · by_cases ret : c = '\r'
        · subst ret; decide
        · simp [halfEscapeChar, isSpecial, bar, feed, ret, replace]

theorem escapeValue_eq (s : List Char) :
    LeefFormatter.escapeValue s = halfEscape '=' blankTab s := by
  induction s with
  | nil => rfl
  | cons c s ih =>
    rw [halfEscape_cons, ← ih, LeefFormatter.escapeValue, replace_cons, replace_append,
      replace_append, replace_append, ← LeefFormatter.escapeValue]
    refine congrArg₂ (· ++ ·) ?_ rfl
    by_cases tab : c = '\t'
    · subst tab; decide
    · by_cases feed : c = '\n'
      · subst feed; decide
      · by_cases ret : c = '\r'
        · subst ret; decide
        · by_cases equals : c = '='
          · subst equals; decide
          · simp [halfEscapeChar, isSpecial, blankTab, tab, feed, ret, equals, replace]

end Escapes

section Attributes

/- The escape of a value. -/
def escaped (s : List Char) : List Char := halfEscape '=' blankTab s

theorem blankTab_special (c : Char) (special : isSpecial '=' c = true) : blankTab c = c := by
  refine if_neg ?_
  rintro rfl
  cases special

theorem unsoftened_iff {s : List Char} : Unsoftened blankTab s ↔ '\t' ∉ s := by
  constructor
  · intro same member
    exact absurd (same '\t' member) (by decide)
  · intro free c member
    refine if_neg ?_
    rintro rfl
    exact free member

/- A text that the escape and a receiver leave as it is. -/
def LeefText (s : List Char) : Prop := '\\' ∉ s ∧ '\t' ∉ s

theorem reads_text {s : List Char} : ReadsAs '=' (escaped s) s ↔ LeefText s := by
  rw [escaped, readsAs_itself soft_value blankTab_special, unsoftened_iff]
  rfl

theorem readAttribute_eq {ts : List Token} {key value : List Char} :
    readAttribute ts = some (key, value) ↔ ∃ before after, cut '=' ts = some (before, after) ∧
      unescape before = key ∧ .plain '=' ∉ after ∧ unescape after = value := by
  unfold readAttribute
  cases found : cut '=' ts with
  | none => simp
  | some halves =>
    obtain ⟨before, after⟩ := halves
    by_cases marked : Token.plain '=' ∈ after
    · simp [marked]
    · simp [marked]

/- An attribute is read as its key and a value. -/
theorem piece_read (key written value : List Char) :
    (∃ ts, tokens (escaped key ++ '=' :: escaped written) = some ts ∧
        readAttribute ts = some (key, value)) ↔
      LeefText key ∧ ReadsAs '=' (escaped written) value := by
  have field : ∀ after, (∃ ts before, tokens (escaped key ++ '=' :: escaped written) = some ts ∧
      cut '=' ts = some (before, after) ∧ unescape before = key) ↔
      ('\\' ∉ key ∧ Unsoftened blankTab key) ∧ tokens (escaped written) = some after :=
    fun after => cut_field soft_value blankTab_special
  simp only [readAttribute_eq]
  constructor
  · rintro ⟨ts, found, before, after, cuts, keyed, unmarked, valued⟩
    obtain ⟨good, follows⟩ := (field after).mp ⟨ts, before, found, cuts, keyed⟩
    rw [unsoftened_iff] at good
    exact ⟨good, after, follows, unmarked, valued⟩
  · rintro ⟨good, after, follows, unmarked, valued⟩
    have good : '\\' ∉ key ∧ Unsoftened blankTab key := ⟨good.1, unsoftened_iff.mpr good.2⟩
    obtain ⟨ts, before, found, cuts, keyed⟩ := (field after).mpr ⟨good, follows⟩
    exact ⟨ts, found, before, after, cuts, keyed, unmarked, valued⟩

end Attributes

section Custom

/- A character that comes back from the escape of JSON. -/
def Returns (c : Char) : Prop := 32 ≤ c.toNat ∨ c = '\n' ∨ c = '\r'

/- A string without control characters other than line breaks that does not end with a quotation
   mark, or another value whose text is left as it is. -/
def LeefKeeps : Json Numeral → Prop
  | .string s => s.getLast? ≠ some '"' ∧ ∀ c ∈ s, Returns c
  | value => LeefText (Json.text Numeral.digits value)

instance (c : Char) : Decidable (Returns c) :=
  inferInstanceAs (Decidable (32 ≤ c.toNat ∨ c = '\n' ∨ c = '\r'))

/- What a receiver reads of one character in JSON and in LEEF. -/
def CharRead (c : Char) : Prop :=
  ∃ ts ∈ tokens (escaped (Json.escapeChar c)), .plain '=' ∉ ts ∧ (Returns c → unescape ts = [c])

theorem control_read : ∀ n < 32, CharRead (Char.ofNat n) := by
  unfold CharRead
  decide

theorem char_read (c : Char) : CharRead c := by
  by_cases plain : Json.Plain c
  · rw [CharRead, Json.escapeChar_plain plain]
    by_cases equals : c = '='
    · subst equals
      decide
    · have ordinary : isSpecial '=' c = false := by
        have of_small : ∀ d : Char, d.toNat < 32 → c ≠ d := by
          rintro d small rfl
          exact absurd plain.2.2 (by omega)
        exact isSpecial_false.mpr ⟨equals, of_small _ (by decide), of_small _ (by decide)⟩
      have not_tab : c ≠ '\t' := by
        rintro rfl
        exact absurd plain.2.2 (by decide)
      have same : escaped [c] = [c] := by
        simp [escaped, halfEscape, halfEscapeChar, ordinary, blankTab, not_tab]
      refine ⟨[.plain c], ?_, by simp [Ne.symm equals], fun _ => rfl⟩
      rw [same, tokens_plain plain.2.1]
      rfl
  · by_cases control : c.toNat < 32
    · have read := control_read c.toNat control
      rw [Char.ofNat_toNat] at read
      exact read
    · have special : c = '"' ∨ c = '\\' := by
        by_contra neither
        rw [not_or] at neither
        exact plain ⟨neither.1, neither.2, Nat.le_of_not_lt control⟩
      rcases special with rfl | rfl
      · unfold CharRead
        decide
      · unfold CharRead
        decide

/- What a receiver reads of a string: the string, where all its characters return. -/
theorem string_read (s : List Char) : ∃ ts, tokens (escaped (Json.escape s)) = some ts ∧
    .plain '=' ∉ ts ∧ ((∀ c ∈ s, Returns c) → unescape ts = s) := by
  induction s with
  | nil => exact ⟨[], rfl, List.not_mem_nil, fun _ => rfl⟩
  | cons c s ih =>
    obtain ⟨first, found, unmarked, read⟩ := char_read c
    obtain ⟨rest, follows, free, reads⟩ := ih
    have whole : escaped (Json.escape (c :: s)) =
        escaped (Json.escapeChar c) ++ escaped (Json.escape s) := by
      rw [Json.escape, List.flatMap_cons, escaped, halfEscape_append]
      rfl
    refine ⟨first ++ rest, ?_, by simp [unmarked, free], ?_⟩
    · rw [whole, tokens_append found, follows]
      rfl
    · intro returns
      rw [unescape_append, read (returns c List.mem_cons_self),
        reads fun d member => returns d (List.mem_cons_of_mem _ member)]
      rfl

/- Apart from control characters, JSON escapes two characters. -/
theorem not_plain_cases {c : Char} (not_plain : ¬ Json.Plain c) :
    c.toNat < 32 ∨ c = '"' ∨ c = '\\' := by
  by_contra none_of
  rw [not_or, not_or] at none_of
  exact not_plain ⟨none_of.2.1, none_of.2.2, Nat.le_of_not_lt none_of.1⟩

def printed (s : List Char) : Bool := s.all fun d => decide (32 ≤ d.toNat)

theorem printed_iff {s : List Char} : printed s = true ↔ ∀ d ∈ s, 32 ≤ d.toNat := by
  simp [printed]

theorem control_escape : ∀ n < 32, printed (Json.escapeChar (Char.ofNat n)) = true ∧
    (Json.escapeChar (Char.ofNat n)).getLast? ≠ some '"' := by
  decide

theorem escape_printed {s : List Char} {d : Char} (member : d ∈ Json.escape s) :
    32 ≤ d.toNat := by
  obtain ⟨c, _, there⟩ := List.mem_flatMap.mp member
  by_cases plain : Json.Plain c
  · rw [Json.escapeChar_plain plain, List.mem_singleton] at there
    rw [there]
    exact plain.2.2
  · rcases not_plain_cases plain with control | rfl | rfl
    · have each := (control_escape c.toNat control).1
      rw [Char.ofNat_toNat] at each
      exact printed_iff.mp each d there
    · have each : printed (Json.escapeChar '"') = true := by decide
      exact printed_iff.mp each d there
    · have each : printed (Json.escapeChar '\\') = true := by decide
      exact printed_iff.mp each d there

theorem escape_last {c : Char} (other : c ≠ '"') (s : List Char) :
    trimQuotesEnd (Json.escape (s ++ [c])) = Json.escape (s ++ [c]) := by
  have last : ∃ front d, Json.escapeChar c = front ++ [d] ∧ d ≠ '"' := by
    by_cases plain : Json.Plain c
    · exact ⟨[], c, Json.escapeChar_plain plain, other⟩
    · rcases not_plain_cases plain with control | rfl | rfl
      · have not_quote := (control_escape c.toNat control).2
        rw [Char.ofNat_toNat] at not_quote
        obtain ⟨first, rest, starts, _⟩ := Json.escapeChar_head c
        rcases List.eq_nil_or_concat (Json.escapeChar c) with nothing | ⟨front, d, ends⟩
        · rw [starts] at nothing
          cases nothing
        · rw [List.concat_eq_append] at ends
          refine ⟨front, d, ends, ?_⟩
          rintro rfl
          rw [ends, List.getLast?_concat] at not_quote
          exact not_quote rfl
      · exact absurd rfl other
      · exact ⟨['\\'], '\\', by decide, by decide⟩
  obtain ⟨front, d, ends, not_quote⟩ := last
  rw [Json.escape, List.flatMap_append, List.flatMap_singleton, ends, ← List.append_assoc]
  exact trimQuotesEnd_other (by simp [isQuote, not_quote]) _

theorem escaped_printed {s : List Char} (printed : ∀ c ∈ s, 32 ≤ c.toNat) {d : Char}
    (member : d ∈ escaped s) : 32 ≤ d.toNat := by
  obtain ⟨c, there, written⟩ := List.mem_flatMap.mp member
  have large := printed c there
  rw [halfEscapeChar] at written
  split at written
  · simp only [List.mem_cons, List.not_mem_nil, or_false] at written
    rcases written with rfl | rfl
    · decide
    · unfold letterOf
      split_ifs
      · decide
      · decide
      · exact large
  · rw [List.mem_singleton] at written
    subst written
    unfold blankTab
    split_ifs
    · decide
    · exact large

/- A string in its JSON form comes back just when each of its characters does and it does not end
   with a quotation mark, which is cut off after its backslash. -/
theorem string_reads {s : List Char} : ReadsAs '=' (escaped (customText (.string s))) s ↔
    s.getLast? ≠ some '"' ∧ ∀ c ∈ s, Returns c := by
  rw [customText_string]
  constructor
  · rintro ⟨ts, found, _, read⟩
    constructor
    · intro quoted
      obtain ⟨front, rfl⟩ := List.getLast?_eq_some_iff.mp quoted
      have cut : trimQuotesEnd (Json.escape (front ++ ['"'])) = Json.escape front ++ ['\\'] := by
        have last : Json.escape (front ++ ['"']) = (Json.escape front ++ ['\\']) ++ ['"'] := by
          rw [Json.escape, List.flatMap_append, List.append_assoc]
          rfl
        rw [last, trimQuotesEnd_quote]
        exact trimQuotesEnd_other (by decide) _
      obtain ⟨first, reads, _⟩ := string_read front
      rw [cut, escaped, halfEscape_append, ← escaped, tokens_append reads] at found
      cases found
    · intro c member
      rw [← read] at member
      obtain ⟨t, there, rfl⟩ := List.mem_map.mp member
      have within : ∀ d ∈ t.source, 32 ≤ d.toNat := by
        intro d part
        have whole : d ∈ source ts := List.mem_flatMap.mpr ⟨t, there, part⟩
        rw [source_tokens found] at whole
        refine escaped_printed ?_ whole
        intro e piece
        apply @escape_printed s
        rw [trimQuotesEnd, List.mem_reverse] at piece
        exact List.mem_reverse.mp ((List.dropWhile_sublist _).subset piece)
      cases t with
      | plain d => exact Or.inl (within d (List.mem_singleton_self d))
      | escaped d =>
        have large := within d (by simp [Token.source])
        simp only [Token.value, Returns]
        split_ifs
        · exact Or.inr (Or.inl rfl)
        · exact Or.inr (Or.inr rfl)
        · exact Or.inl large
  · rintro ⟨not_quoted, returns⟩
    have kept : trimQuotesEnd (Json.escape s) = Json.escape s := by
      rcases List.eq_nil_or_concat s with rfl | ⟨front, c, rfl⟩
      · rfl
      · rw [List.concat_eq_append] at not_quoted ⊢
        refine escape_last ?_ front
        rintro rfl
        exact not_quoted List.getLast?_concat
    obtain ⟨ts, found, unmarked, read⟩ := string_read s
    rw [kept]
    exact ⟨ts, found, unmarked, read returns⟩

theorem custom_reads (value : Json Numeral) :
    ReadsAs '=' (escaped (customText value)) (saidBy value) ↔ LeefKeeps value := by
  cases value with
  | string s => exact string_reads
  | null => rw [customText_other (by simp)]; exact reads_text
  | bool b => rw [customText_other (by simp)]; exact reads_text
  | number n => rw [customText_other (by simp)]; exact reads_text
  | array items => rw [customText_other (by simp)]; exact reads_text
  | object fields => rw [customText_other (by simp)]; exact reads_text

end Custom

section Line

/- The attributes of an event: the key, the value as it is written, and what it says. -/
def leefItems (event : SiemEvent) : List (List Char × List Char × List Char) :=
  (attributesOf (leefTable event)).map (fun pair => (pair.1, pair.2, pair.2)) ++
    event.customs.map fun field => (field.1, customText field.2, saidBy field.2)

def writtenItem (item : List Char × List Char × List Char) : List Char :=
  escaped item.1 ++ '=' :: escaped item.2.1

theorem leefAttributes_eq (event : SiemEvent) :
    leefAttributes event = (leefItems event).map fun item => (item.1, item.2.2) := by
  rw [leefAttributes, leefItems, List.map_append, List.map_map, List.map_map]
  refine congrArg₂ (· ++ ·) ?_ rfl
  exact (List.map_id _).symm

theorem escaped_ordinary {s : List Char} (ordinary : Ordinary s) : escaped s = s := by
  induction s with
  | nil => rfl
  | cons c s ih =>
    have later := ih fun d member => ordinary d (List.mem_cons_of_mem _ member)
    have first := ordinary c List.mem_cons_self
    have free : ∀ d, isOrdinary d = false → c ≠ d := by
      rintro d special rfl
      rw [first] at special
      cases special
    have plain : isSpecial '=' c = false :=
      isSpecial_false.mpr ⟨free _ rfl, free _ rfl, free _ rfl⟩
    rw [escaped, halfEscape_cons, ← escaped, later, halfEscapeChar_ordinary plain]
    rw [blankTab, if_neg (free _ rfl)]
    rfl

def leefKeys : List String :=
  ["devTime", "devTimeFormat", "cat", "sev", "src", "srcIP", "dstIP", "dstPort", "usrName",
    "procName", "procId", "fileName", "msg", "eventId", "agentVersion"]

theorem known_key {event : SiemEvent} {pair : List Char × List Char}
    (member : pair ∈ attributesOf (leefTable event)) : ∃ key ∈ leefKeys, key.toList = pair.1 := by
  obtain ⟨entry, there, value, _, rfl⟩ := mem_attributesOf.mp member
  have known : entry.1 ∈ (leefTable event).map Prod.fst := List.mem_map_of_mem there
  exact ⟨entry.1, known, rfl⟩

theorem escaped_key {event : SiemEvent} {pair : List Char × List Char}
    (member : pair ∈ attributesOf (leefTable event)) : escaped pair.1 = pair.1 := by
  have all : ∀ key ∈ leefKeys, escaped key.toList = key.toList := by decide
  obtain ⟨key, known, same⟩ := known_key member
  rw [← same]
  exact all key known

theorem standard_key {event : SiemEvent} {pair : List Char × List Char}
    (member : pair ∈ attributesOf (leefTable event)) : LeefText pair.1 := by
  have all : ∀ key ∈ leefKeys, '\\' ∉ key.toList ∧ '\t' ∉ key.toList := by decide
  obtain ⟨key, known, same⟩ := known_key member
  rw [← same]
  exact all key known

theorem attrs_eq (event : SiemEvent) :
    LeefFormatter.attrs event = (leefItems event).map writtenItem := by
  have time : escaped (LeefFormatter.devTime event.timestamp) =
      LeefFormatter.devTime event.timestamp := by
    refine escaped_ordinary (ordinary_append (ordinary_time _) ?_)
    decide
  have time_format : "devTimeFormat=MMM dd yyyy HH:mm:ss z".toList = "devTimeFormat".toList ++
      '=' :: escaped "MMM dd yyyy HH:mm:ss z".toList := by decide
  have severity : escaped (LeefFormatter.mapSeverity event.severity).toList =
      (LeefFormatter.mapSeverity event.severity).toList := by
    unfold LeefFormatter.mapSeverity
    split_ifs <;> decide
  have number : ∀ n, escaped (decimal n) = decimal n := fun n =>
    escaped_ordinary (ordinary_decimal n)
  have value : ∀ s, LeefFormatter.escapeValue s = escaped s := escapeValue_eq
  have keyed : (attributesOf (leefTable event)).map (fun pair => pair.1 ++ '=' :: escaped pair.2) =
      (attributesOf (leefTable event)).map fun pair => escaped pair.1 ++ '=' :: escaped pair.2 :=
    List.map_congr_left fun pair member => by rw [escaped_key member]
  rw [leefItems, List.map_append, List.map_map, List.map_map]
  simp only [Function.comp_def, writtenItem, ← keyed]
  unfold LeefFormatter.attrs
  rw [time_format]
  simp only [value, leefTable, attributesOf_cons, attributesOf_nil, LeefFormatter.attr,
    List.map_append, List.map_cons, List.map_nil, ← Option.toList_map, Option.map_map,
    Function.comp_def, time, severity, number, Option.map_some, Option.toList_some,
    List.append_assoc, List.cons_append, List.nil_append, List.append_nil]

theorem tab_free (s : List Char) : '\t' ∉ escaped s := by
  intro member
  obtain ⟨c, _, there⟩ := List.mem_flatMap.mp member
  rw [halfEscapeChar] at there
  split at there
  · rename_i special
    simp only [isSpecial, Bool.or_eq_true, beq_iff_eq, or_assoc] at special
    rcases special with rfl | rfl | rfl <;> revert there <;> decide
  · rw [List.mem_singleton, blankTab] at there
    split at there
    · cases there
    · rename_i other
      exact other there.symm

theorem item_free (item : List Char × List Char × List Char) : '\t' ∉ writtenItem item := by
  rw [writtenItem, List.mem_append, List.mem_cons, not_or, not_or]
  exact ⟨tab_free _, by decide, tab_free _⟩

theorem items_nonempty (event : SiemEvent) : (leefItems event).map writtenItem ≠ [] := by
  intro nothing
  have lengths := congrArg List.length nothing
  simp only [leefItems, leefTable, attributesOf_cons, List.length_map, List.length_append,
    Option.map_some, Option.toList_some, List.length_cons, List.length_nil] at lengths
  omega

/- A LEEF line as fields with a bar after each, and the attributes. -/
theorem leef_fields (f : LeefFormatter) (event : SiemEvent) :
    f.format event = fieldsText '|' ((leefHeader f event).map (halfEscape '|' id))
      (['\t'].intercalate ((leefItems event).map writtenItem)) := by
  have start : "LEEF:2.0|".toList = halfEscape '|' id "LEEF:2.0".toList ++ ['|'] := by
    decide
  unfold LeefFormatter.format
  rw [start, attrs_eq]
  simp only [leefHeader, List.map_cons, List.map_nil]
  generalize halfEscape '|' id "LEEF:2.0".toList = version
  simp only [fieldsText, escapeHeader_eq, List.append_assoc, List.cons_append, List.nil_append]

/- Nothing in an event that the escape loses: no backslash anywhere, no tab in an attribute, and
   custom fields that come back from their JSON form. -/
structure LeefReadable (f : LeefFormatter) (event : SiemEvent) : Prop where
  header : ∀ s ∈ [f.vendor, f.product, f.version, event.name], '\\' ∉ s
  attributes : ∀ pair ∈ attributesOf (leefTable event), LeefText pair.2
  customs : ∀ field ∈ event.customs, LeefText field.1 ∧ LeefKeeps field.2

theorem readLeef_eq {line : List Char} {fields : List (List Char)}
    {pairs : List (List Char × List Char)} :
    readLeef line = some (fields, pairs) ↔ ∃ last, (∃ ts, tokens line = some ts ∧
      readFields '|' 5 ts = some (fields, last)) ∧
        readAll readAttribute (last.splitOn (.plain '\t')) = some pairs := by
  unfold readLeef
  cases tokens line with
  | none => simp
  | some ts =>
    cases header : readFields '|' 5 ts with
    | none => simp [header]
    | some halves =>
      simp only [header, Option.map_eq_some_iff, Prod.mk.injEq, Option.some.injEq]
      constructor
      · rintro ⟨read, all, rfl, rfl⟩
        exact ⟨halves.2, ⟨ts, rfl, header⟩, all⟩
      · rintro ⟨last, ⟨other, rfl, again⟩, all⟩
        obtain rfl := Option.some.inj (header.symm.trans again)
        exact ⟨pairs, all, rfl, rfl⟩

theorem items_read (event : SiemEvent) :
    (∀ item ∈ leefItems event, LeefText item.1 ∧ ReadsAs '=' (escaped item.2.1) item.2.2) ↔
      (∀ pair ∈ attributesOf (leefTable event), LeefText pair.2) ∧
        ∀ field ∈ event.customs, LeefText field.1 ∧ LeefKeeps field.2 := by
  simp only [leefItems, List.forall_mem_append, List.forall_mem_map, custom_reads, reads_text]
  refine and_congr_left fun _ => forall₂_congr fun pair member => ?_
  exact and_iff_right (standard_key member)

theorem oneLine_leef (f : LeefFormatter) (event : SiemEvent) : OneLine (f.format event) := by
  have field : ∀ s, OneLine (halfEscape '|' id s) := fun s c member =>
    mem_halfEscape soft_header member
  have value : ∀ s, OneLine (escaped s) := fun s c member => mem_halfEscape soft_value member
  rw [leef_fields]
  refine oneLine_fields ?_ (oneLine_intercalate (by decide) ?_)
  · intro s member
    obtain ⟨t, _, rfl⟩ := List.mem_map.mp member
    exact field t
  · intro piece member
    obtain ⟨item, _, rfl⟩ := List.mem_map.mp member
    exact oneLine_append (value _) (oneLine_cons (by decide) (value _))

/-- A receiver reads exactly the header fields and the attributes of an event in its LEEF line,
    which is a single one, just when nothing in the event is lost by the escape. -/
theorem leef_reads_back (f : LeefFormatter) (event : SiemEvent) :
    (readLeef (f.format event) = some (leefHeader f event, leefAttributes event) ∧
        OneLine (f.format event)) ↔ LeefReadable f event := by
  have unmarked : ∀ c, isSpecial '|' c = true → id c = c := fun c _ => rfl
  have header : ∀ last, (∃ ts, tokens (f.format event) = some ts ∧
      readFields '|' 5 ts = some (leefHeader f event, last)) ↔
      (∀ s ∈ leefHeader f event, '\\' ∉ s ∧ Unsoftened id s) ∧
        tokens (['\t'].intercalate ((leefItems event).map writtenItem)) = some last := by
    intro last
    rw [leef_fields]
    exact readFields_half soft_header unmarked
  have clear : (∀ s ∈ leefHeader f event, '\\' ∉ s ∧ Unsoftened id s) ↔
      ∀ s ∈ [f.vendor, f.product, f.version, event.name], '\\' ∉ s := by
    have version : '\\' ∉ "LEEF:2.0".toList := by decide
    have soft : ∀ s, Unsoftened id s := fun s c _ => rfl
    simp only [leefHeader, List.forall_mem_cons, version, soft, not_false_iff, and_true, true_and]
  have as_many : (leefAttributes event).length = ((leefItems event).map writtenItem).length := by
    rw [leefAttributes_eq, List.length_map, List.length_map]
  have free : ∀ piece ∈ (leefItems event).map writtenItem, '\t' ∉ piece := by
    intro piece member
    obtain ⟨item, _, rfl⟩ := List.mem_map.mp member
    exact item_free item
  have pieces := readAll_pieces readAttribute (by decide) (items_nonempty event) free as_many
  rw [leefAttributes_eq, List.forall₂_map_left_iff, List.forall₂_map_right_iff,
    List.forall₂_same] at pieces
  have each : (∀ item ∈ leefItems event, ∃ ts, tokens (writtenItem item) = some ts ∧
      readAttribute ts = some (item.1, item.2.2)) ↔
      ∀ item ∈ leefItems event, LeefText item.1 ∧ ReadsAs '=' (escaped item.2.1) item.2.2 :=
    forall₂_congr fun item _ => piece_read item.1 item.2.1 item.2.2
  rw [each, items_read, ← leefAttributes_eq] at pieces
  rw [and_iff_left (oneLine_leef f event), readLeef_eq]
  simp only [header, clear, and_assoc, exists_and_left, pieces]
  exact ⟨fun good => ⟨good.1, good.2.1, good.2.2⟩, fun good => ⟨good.1, good.2, good.3⟩⟩

end Line

end SentinelAgent.Siem
