import SentinelAgent.Siem.Event

/- The CEF formatter, and how a receiver reads what it writes. -/
namespace SentinelAgent.Siem
open Escaped

structure CefFormatter where
  vendor : List Char
  product : List Char
  version : List Char

namespace CefFormatter

def escapeField (s : List Char) : List Char :=
  replace '\r' "\\r" (replace '\n' "\\n" (replace '|' "\\|" (replace '\\' "\\\\" s)))

def escapeExtension (s : List Char) : List Char :=
  replace '\r' "\\r" (replace '\n' "\\n" (replace '=' "\\=" (replace '\\' "\\\\" s)))

def mapSeverity (severity : Nat) : Nat := min severity 10

def field (key : String) (value : List Char) : List Char := key.toList ++ '=' :: value

/- `cs2` to `cs6` are for the custom fields: `cs1` is the agent's version. -/
def customFields (event : SiemEvent) : List (List Char) :=
  (event.customs.zipIdx.take 6).filterMap fun entry =>
    let csNum := entry.2 + 2
    if csNum ≤ 6 then
      some ("cs".toList ++ decimal csNum ++ "Label=".toList ++ escapeExtension entry.1.1 ++
        " cs".toList ++ decimal csNum ++ '=' :: escapeExtension (customText entry.1.2))
    else none

def extensions (event : SiemEvent) : List (List Char) :=
  [field "rt" event.timestamp.format,
    field "cat" (escapeExtension event.category.display.toList),
    field "msg" (escapeExtension event.description),
    field "shost" (escapeExtension event.sourceHost)] ++
  (event.sourceIp.map fun ip => field "src" (escapeExtension ip)).toList ++
  (event.destinationIp.map fun ip => field "dst" (escapeExtension ip)).toList ++
  (event.destinationPort.map fun port => field "dpt" (decimal port)).toList ++
  (event.user.map fun user => field "suser" (escapeExtension user)).toList ++
  (event.processName.map fun process => field "sproc" (escapeExtension process)).toList ++
  (event.processId.map fun pid => field "spid" (decimal pid)).toList ++
  (event.filePath.map fun path => field "filePath" (escapeExtension path)).toList ++
  [field "externalId" (escapeExtension event.eventId),
    "cs1Label=agentVersion cs1=".toList ++ escapeExtension event.agentVersion] ++
  customFields event

def format (f : CefFormatter) (event : SiemEvent) : List Char :=
  "CEF:0|".toList ++ escapeField f.vendor ++ '|' :: escapeField f.product ++
    '|' :: escapeField f.version ++ '|' :: escapeField event.eventId ++
    '|' :: escapeField event.name ++ '|' :: decimal (mapSeverity event.severity) ++
    '|' :: [' '].intercalate (extensions event)

end CefFormatter

/- The last of such a mark. -/
def cutLast (mark : Char) (ts : List Token) : Option (List Token × List Token) :=
  (cut mark ts.reverse).map fun halves => (halves.2.reverse, halves.1.reverse)

/- A value goes up to the last blank before the next unescaped equals sign; the next key is
   what stands between the two. -/
def readPairs (key : List Token) : List (List Token) → Option (List (List Char × List Char))
  | [] => none
  | [value] => some [(unescape key, unescape value)]
  | chunk :: chunks =>
    match cutLast ' ' chunk with
    | some (value, next) =>
      (readPairs next chunks).map fun read => (unescape key, unescape value) :: read
    | none => none

def readExtension (ts : List Token) : Option (List (List Char × List Char)) :=
  match ts.splitOn (.plain '=') with
  | key :: chunks => readPairs key chunks
  | [] => none

/- The header fields and the attributes of a CEF line. -/
def readCef (line : List Char) : Option (List (List Char) × List (List Char × List Char)) :=
  match tokens line with
  | some ts =>
    match readFields '|' 7 ts with
    | some (fields, rest) => (readExtension rest).map fun pairs => (fields, pairs)
    | none => none
  | none => none

/- The attributes of an event but for the custom fields. -/
def cefTable (event : SiemEvent) : List (String × Option (List Char)) :=
  [("rt", some event.timestamp.format), ("cat", some event.category.display.toList),
    ("msg", some event.description), ("shost", some event.sourceHost), ("src", event.sourceIp),
    ("dst", event.destinationIp), ("dpt", event.destinationPort.map decimal),
    ("suser", event.user), ("sproc", event.processName), ("spid", event.processId.map decimal),
    ("filePath", event.filePath), ("externalId", some event.eventId),
    ("cs1Label", some "agentVersion".toList), ("cs1", some event.agentVersion)]

def csLabel (i : Nat) : List Char := "cs".toList ++ decimal (i + 2) ++ "Label".toList

def csKey (i : Nat) : List Char := "cs".toList ++ decimal (i + 2)

/- Each custom field with the number it has, its name and what it says. -/
def cefCustoms (what : Json Numeral → List Char) (fields : List (List Char × Json Numeral)) :
    List (List Char × List Char) :=
  fields.zipIdx.flatMap fun entry =>
    [(csLabel entry.2, entry.1.1), (csKey entry.2, what entry.1.2)]

def cefAttributes (event : SiemEvent) : List (List Char × List Char) :=
  attributesOf (cefTable event) ++ cefCustoms saidBy event.customs

def cefHeader (f : CefFormatter) (event : SiemEvent) : List (List Char) :=
  ["CEF:0".toList, f.vendor, f.product, f.version, event.eventId, event.name,
    decimal (CefFormatter.mapSeverity event.severity)]

section Escapes

/- The escape of a bar or an equals sign, one replacement after another. -/
theorem replaced_each {mark : Char} {text : String} (escaped : text.toList = ['\\', mark])
    (mark_ne : mark ≠ 'n' ∧ mark ≠ 'r' ∧ mark ≠ '\n' ∧ mark ≠ '\r' ∧ mark ≠ '\\') (s : List Char) :
    replace '\r' "\\r" (replace '\n' "\\n" (replace mark text (replace '\\' "\\\\" s))) =
      escape mark s := by
  obtain ⟨not_n, not_r, not_feed, not_return, not_backslash⟩ := mark_ne
  induction s with
  | nil => rfl
  | cons c s ih =>
    have whole : escape mark (c :: s) = escapeChar mark c ++ escape mark s := List.flatMap_cons
    rw [whole, ← ih, replace_cons, replace_append, replace_append, replace_append]
    refine congrArg₂ (· ++ ·) ?_ rfl
    unfold escapeChar
    by_cases backslash : c = '\\'
    · simp [backslash, replace, Ne.symm not_backslash]
    · by_cases marked : c = mark
      · subst marked
        simp [backslash, replace, escaped, not_feed, not_return]
      · by_cases feed : c = '\n'
        · subst feed
          simp [replace, marked]
        · by_cases ret : c = '\r'
          · subst ret
            simp [replace, marked]
          · simp [backslash, marked, feed, ret, replace]

theorem escapeField_eq (s : List Char) : CefFormatter.escapeField s = escape '|' s :=
  replaced_each rfl (by decide) s

theorem escapeExtension_eq (s : List Char) : CefFormatter.escapeExtension s = escape '=' s :=
  replaced_each rfl (by decide) s

end Escapes

section Written

/- An attribute as it stands in the line. -/
def encodePair (pair : List Char × List Char) : List Char := pair.1 ++ '=' :: escape '=' pair.2

def joined (pieces : List (List Char)) : List Char := [' '].intercalate pieces

theorem joined_cons (piece next : List Char) (pieces : List (List Char)) :
    joined (piece :: next :: pieces) = piece ++ ' ' :: joined (next :: pieces) := by
  rw [joined, List.intercalate_cons_cons, List.append_assoc]
  rfl

/- Two pieces written as one. -/
theorem joined_two (before after : List (List Char)) (a b : List Char) :
    joined (before ++ (a ++ ' ' :: b) :: after) = joined (before ++ a :: b :: after) := by
  induction before with
  | nil =>
    rw [List.nil_append, List.nil_append, joined_cons a]
    cases after with
    | nil => simp [joined]
    | cons next after =>
      rw [joined_cons (a ++ ' ' :: b), joined_cons b, List.append_assoc]
      rfl
  | cons piece before ih =>
    rw [List.cons_append, List.cons_append]
    cases before with
    | nil =>
      rw [List.nil_append, List.nil_append, joined_cons, joined_cons]
      exact congrArg (piece ++ ' ' :: ·) ih
    | cons next before =>
      rw [List.cons_append, List.cons_append, joined_cons, joined_cons]
      exact congrArg (piece ++ ' ' :: ·) ih

theorem joined_agent (before after : List (List Char)) (event a b : List Char) :
    joined (before ++ [event, a ++ ' ' :: b] ++ after) = joined (before ++ [event, a, b] ++ after) := by
  have two := joined_two (before ++ [event]) after a b
  simp only [List.append_assoc, List.cons_append, List.nil_append] at two ⊢
  exact two

theorem joined_pairs {α : Type} (a b : α → List Char) (entries : List α)
    (before : List (List Char)) :
    joined (before ++ entries.map fun e => a e ++ ' ' :: b e) =
      joined (before ++ entries.flatMap fun e => [a e, b e]) := by
  induction entries generalizing before with
  | nil => rfl
  | cons e entries ih =>
    rw [List.map_cons, joined_two, List.flatMap_cons]
    have regrouped := ih (before ++ [a e, b e])
    simp only [List.append_assoc, List.cons_append, List.nil_append] at regrouped ⊢
    exact regrouped

/- The first five custom fields, with their numbers. -/
theorem take_numbered {α β : Type} (f : α × Nat → β) (entries : List α) :
    ((entries.zipIdx.take 6).filterMap fun entry =>
      if entry.2 + 2 ≤ 6 then some (f entry) else none) = (entries.take 5).zipIdx.map f := by
  rcases entries with _ | ⟨a, _ | ⟨b, _ | ⟨c, _ | ⟨d, _ | ⟨e, _ | ⟨g, rest⟩⟩⟩⟩⟩⟩ <;> rfl

theorem customFields_eq (event : SiemEvent) :
    CefFormatter.customFields event = (event.customs.take 5).zipIdx.map fun entry =>
      encodePair (csLabel entry.2, entry.1.1) ++
        ' ' :: encodePair (csKey entry.2, customText entry.1.2) := by
  have each : ∀ (i : Nat) (key value : List Char),
      "cs".toList ++ decimal (i + 2) ++ "Label=".toList ++ escape '=' key ++ " cs".toList ++
        decimal (i + 2) ++ '=' :: escape '=' value =
      encodePair (csLabel i, key) ++ ' ' :: encodePair (csKey i, value) := by
    intro i key value
    simp [encodePair, csLabel, csKey]
  rw [← take_numbered]
  simp only [CefFormatter.customFields, escapeExtension_eq, each]

/- The extension is the attributes one after the other. -/
theorem extensions_text (event : SiemEvent) :
    joined (CefFormatter.extensions event) =
      joined ((attributesOf (cefTable event) ++ cefCustoms customText (event.customs.take 5)).map encodePair) := by
  have plain_time : escape '=' event.timestamp.format = event.timestamp.format :=
    ordinary_escape (ordinary_time _) rfl
  have plain_number : ∀ n, escape '=' (decimal n) = decimal n := fun n =>
    ordinary_escape (ordinary_decimal n) rfl
  have label : escape '=' "agentVersion".toList = "agentVersion".toList := by decide
  have agent : "cs1Label=agentVersion cs1=".toList ++ escape '=' event.agentVersion =
      encodePair ("cs1Label".toList, "agentVersion".toList) ++
        ' ' :: encodePair ("cs1".toList, event.agentVersion) := by
    rw [encodePair, encodePair, label]
    rfl
  rw [CefFormatter.extensions, customFields_eq, joined_pairs]
  simp only [escapeExtension_eq, agent]
  rw [joined_agent]
  refine congrArg joined ?_
  simp only [cefTable, attributesOf_cons, cefCustoms, List.map_append, List.map_flatMap, List.map_cons,
    List.map_nil, ← Option.toList_map, Option.map_map, Function.comp_def, encodePair, plain_time,
    plain_number, CefFormatter.field, attributesOf_nil, Option.map_some, Option.toList_some,
    List.append_assoc, List.cons_append, List.nil_append, List.append_nil]

end Written

section Read

/- A key that is read as it stands. -/
def SafeKey (key : List Char) : Prop := ∀ c ∈ key, isOrdinary c = true ∧ c ≠ ' '

instance (key : List Char) : Decidable (SafeKey key) :=
  List.decidableBAll _ key

theorem safe_ordinary {key : List Char} (safe : SafeKey key) : Ordinary key :=
  fun c member => (safe c member).1

theorem safe_free {key : List Char} (safe : SafeKey key) {c : Char}
    (special : isOrdinary c = false ∨ c = ' ') : c ∉ key := by
  intro member
  obtain ⟨ordinary, not_blank⟩ := safe c member
  rcases special with special | blank
  · rw [ordinary] at special
    cases special
  · exact not_blank blank

def keyTokens (key : List Char) : List Token := key.map .plain

def valueTokens (value : List Char) : List Token := value.map (tokenOf '=')

theorem key_free {key : List Char} {mark : Char} (free : mark ∉ key) :
    Token.plain mark ∉ keyTokens key := by
  intro member
  obtain ⟨c, there, same⟩ := List.mem_map.mp member
  cases same
  exact free there

/- What follows the first equals sign of the attributes. -/
def afterKey : List (List Char × List Char) → List Token
  | [] => []
  | [pair] => valueTokens pair.2
  | pair :: next :: pairs =>
    valueTokens pair.2 ++ .plain ' ' :: (keyTokens next.1 ++ .plain '=' :: afterKey (next :: pairs))

/- A value and the key after it, and the last value. -/
def chunks : List (List Char × List Char) → List (List Token)
  | [] => []
  | [pair] => [valueTokens pair.2]
  | pair :: next :: pairs =>
    (valueTokens pair.2 ++ .plain ' ' :: keyTokens next.1) :: chunks (next :: pairs)

theorem value_free (value : List Char) : Token.plain '=' ∉ valueTokens value := mark_escaped value

theorem tokens_pair {key : List Char} (safe : SafeKey key) (value rest : List Char) :
    tokens (key ++ '=' :: (escape '=' value ++ rest)) =
      (tokens rest).map fun ts =>
        keyTokens key ++ Token.plain '=' :: (valueTokens value ++ ts) := by
  rw [tokens_append (tokens_unescaped (safe_free safe (Or.inl rfl))), tokens_plain (by decide),
    tokens_append (tokens_escape value), Option.map_map, Option.map_map]
  rfl

theorem tokens_joined (pair : List Char × List Char) (pairs : List (List Char × List Char))
    (safe : ∀ p ∈ pair :: pairs, SafeKey p.1) :
    tokens (joined ((pair :: pairs).map encodePair)) =
      some (keyTokens pair.1 ++ .plain '=' :: afterKey (pair :: pairs)) := by
  induction pairs generalizing pair with
  | nil =>
    have one := tokens_pair (safe pair List.mem_cons_self) pair.2 []
    rw [List.append_nil, tokens_nil, Option.map_some, List.append_nil] at one
    rw [List.map_singleton, joined, List.intercalate_singleton, encodePair, one, afterKey]
  | cons next pairs ih =>
    have later := ih next fun p member => safe p (List.mem_cons_of_mem _ member)
    rw [List.map_cons] at later
    rw [List.map_cons, List.map_cons, joined_cons, encodePair, List.append_assoc, List.cons_append,
      tokens_pair (safe pair List.mem_cons_self), tokens_plain (by decide), later]
    rfl

theorem splitOn_afterKey (pair : List Char × List Char) (pairs : List (List Char × List Char))
    (safe : ∀ p ∈ pair :: pairs, SafeKey p.1) :
    (afterKey (pair :: pairs)).splitOn (.plain '=') = chunks (pair :: pairs) := by
  induction pairs generalizing pair with
  | nil => rw [afterKey, chunks, List.splitOn_eq_singleton (value_free pair.2)]
  | cons next pairs ih =>
    have later := ih next fun p member => safe p (List.mem_cons_of_mem _ member)
    have key : '=' ∉ next.1 := safe_free (safe next (by simp)) (Or.inl rfl)
    have free : Token.plain '=' ∉ valueTokens pair.2 ++ .plain ' ' :: keyTokens next.1 := by
      simp [value_free pair.2, key_free key]
    rw [afterKey, ← List.cons_append, ← List.append_assoc,
      List.splitOn_append_cons_self_of_not_mem free, later, chunks]

theorem readPairs_chunks (pair : List Char × List Char) (pairs : List (List Char × List Char))
    (safe : ∀ p ∈ pair :: pairs, SafeKey p.1) :
    readPairs (keyTokens pair.1) (chunks (pair :: pairs)) = some (pair :: pairs) := by
  have read : ∀ p : List Char × List Char,
      (unescape (keyTokens p.1), unescape (valueTokens p.2)) = p := fun p =>
    Prod.ext (unescape_plain p.1) (unescape_escape (by decide) (by decide) p.2)
  induction pairs generalizing pair with
  | nil => rw [chunks, readPairs, read]
  | cons next pairs ih =>
    have later := ih next fun p member => safe p (List.mem_cons_of_mem _ member)
    have key : ' ' ∉ next.1 := safe_free (safe next (by simp)) (Or.inr rfl)
    have cuts : cutLast ' ' (valueTokens pair.2 ++ .plain ' ' :: keyTokens next.1) =
        some (valueTokens pair.2, keyTokens next.1) := by
      have free : Token.plain ' ' ∉ (keyTokens next.1).reverse := by
        rw [List.mem_reverse]
        exact key_free key
      rw [cutLast, List.reverse_append, List.reverse_cons, List.append_assoc, List.singleton_append,
        cut_append free]
      simp
    obtain ⟨chunk, more, cut⟩ : ∃ chunk more, chunks (next :: pairs) = chunk :: more := by
      cases pairs with
      | nil => exact ⟨_, _, rfl⟩
      | cons _ _ => exact ⟨_, _, rfl⟩
    rw [chunks]
    rw [cut] at later ⊢
    rw [readPairs, cuts]
    simp only [later, Option.map_some, read]
    simp

/- The attributes are read as they were given. -/
theorem readExtension_joined (pair : List Char × List Char)
    (pairs : List (List Char × List Char)) (safe : ∀ p ∈ pair :: pairs, SafeKey p.1) :
    ∃ ts, tokens (joined ((pair :: pairs).map encodePair)) = some ts ∧
      readExtension ts = some (pair :: pairs) := by
  refine ⟨_, tokens_joined pair pairs safe, ?_⟩
  have key : '=' ∉ pair.1 := safe_free (safe pair List.mem_cons_self) (Or.inl rfl)
  rw [readExtension, List.splitOn_append_cons_self_of_not_mem (key_free key),
    splitOn_afterKey pair pairs safe]
  exact readPairs_chunks pair pairs safe

end Read

section Line

theorem safe_append {a b : List Char} (first : SafeKey a) (second : SafeKey b) :
    SafeKey (a ++ b) := by
  intro c member
  rcases List.mem_append.mp member with there | there
  · exact first c there
  · exact second c there

theorem safe_decimal (n : Nat) : SafeKey (decimal n) := by
  intro c member
  refine ⟨ordinary_decimal n c member, ?_⟩
  rintro rfl
  have digit := Text.repr_digits n _ member
  cases digit

theorem safe_custom {what : Json Numeral → List Char}
    {fields : List (List Char × Json Numeral)} :
    ∀ pair ∈ cefCustoms what fields, SafeKey pair.1 := by
  intro pair member
  obtain ⟨entry, _, there⟩ := List.mem_flatMap.mp member
  have cs : SafeKey "cs".toList := by decide
  have label : SafeKey "Label".toList := by decide
  simp only [List.mem_cons, List.not_mem_nil, or_false] at there
  rcases there with rfl | rfl
  · exact safe_append (safe_append cs (safe_decimal _)) label
  · exact safe_append cs (safe_decimal _)

theorem safe_standard {event : SiemEvent} :
    ∀ pair ∈ attributesOf (cefTable event), SafeKey pair.1 := by
  intro pair member
  obtain ⟨entry, there, value, _, rfl⟩ := mem_attributesOf.mp member
  have known : entry.1 ∈ ["rt", "cat", "msg", "shost", "src", "dst", "dpt", "suser", "sproc",
      "spid", "filePath", "externalId", "cs1Label", "cs1"] := List.mem_map_of_mem there
  have all : ∀ key ∈ ["rt", "cat", "msg", "shost", "src", "dst", "dpt", "suser", "sproc",
      "spid", "filePath", "externalId", "cs1Label", "cs1"], SafeKey key.toList := by
    decide
  exact all entry.1 known

/- A CEF line as fields with a bar after each, and the attributes. -/
theorem format_fields (f : CefFormatter) (event : SiemEvent) :
    f.format event = fieldsText '|' ["CEF:0".toList, escape '|' f.vendor, escape '|' f.product,
      escape '|' f.version, escape '|' event.eventId, escape '|' event.name,
      decimal (CefFormatter.mapSeverity event.severity)] (joined (CefFormatter.extensions event)) := by
  have start : "CEF:0|".toList = "CEF:0".toList ++ ['|'] := by decide
  unfold CefFormatter.format
  rw [start]
  generalize "CEF:0".toList = version
  simp only [fieldsText, escapeField_eq, joined, List.append_assoc,
    List.cons_append, List.nil_append]

/- What a receiver reads in a CEF line: the header fields, the attributes every event has, and
   the text of the first five custom fields. -/
theorem readCef_format (f : CefFormatter) (event : SiemEvent) :
    readCef (f.format event) = some (cefHeader f event,
      attributesOf (cefTable event) ++ cefCustoms customText (event.customs.take 5)) := by
  obtain ⟨first, more, list⟩ : ∃ first more,
      attributesOf (cefTable event) ++ cefCustoms customText (event.customs.take 5) = first :: more :=
    ⟨_, _, rfl⟩
  have safe : ∀ p ∈ first :: more, SafeKey p.1 := by
    rw [← list]
    intro p member
    rcases List.mem_append.mp member with there | there
    · exact safe_standard p there
    · exact safe_custom p there
  obtain ⟨last, text, read⟩ := readExtension_joined first more safe
  have number := ordinary_decimal (CefFormatter.mapSeverity event.severity)
  have field : ∀ s, ReadsAs '|' (escape '|' s) s := readsAs_escape (by decide) (by decide)
  have fields : List.Forall₂ (ReadsAs '|') ["CEF:0".toList, escape '|' f.vendor,
      escape '|' f.product, escape '|' f.version, escape '|' event.eventId, escape '|' event.name,
      decimal (CefFormatter.mapSeverity event.severity)] (cefHeader f event) := by
    refine .cons (readsAs_unescaped (by decide) (by decide)) (.cons (field _)
      (.cons (field _) (.cons (field _) (.cons (field _) (.cons (field _) (.cons ?_ .nil))))))
    exact readsAs_unescaped (ordinary_free number rfl) (ordinary_free number rfl)
  rw [← list, ← extensions_text] at text
  obtain ⟨ts, whole, header⟩ := readFields_text (by decide) fields text
  rw [← format_fields] at whole
  have header : readFields '|' 7 ts = some (cefHeader f event, last) := header
  simp only [readCef, whole, header, read, Option.map_some, list]

theorem oneLine_pair {pair : List Char × List Char} (safe : SafeKey pair.1) :
    OneLine (encodePair pair) :=
  oneLine_append (oneLine_ordinary (safe_ordinary safe))
    (oneLine_cons (by decide) (escape_line (by decide) (by decide) pair.2))

theorem oneLine_cef (f : CefFormatter) (event : SiemEvent) : OneLine (f.format event) := by
  have field : ∀ s, OneLine (escape '|' s) := escape_line (by decide) (by decide)
  have number := oneLine_ordinary (ordinary_decimal (CefFormatter.mapSeverity event.severity))
  have version : OneLine "CEF:0".toList := by decide
  rw [format_fields, extensions_text]
  refine oneLine_fields ?_ (oneLine_intercalate (by decide) ?_)
  · intro s member
    simp only [List.mem_cons, List.not_mem_nil, or_false] at member
    rcases member with rfl | rfl | rfl | rfl | rfl | rfl | rfl
    · exact version
    · exact field _
    · exact field _
    · exact field _
    · exact field _
    · exact field _
    · exact number
  · intro piece member
    obtain ⟨pair, there, rfl⟩ := List.mem_map.mp member
    rcases List.mem_append.mp there with standard | custom
    · exact oneLine_pair (safe_standard pair standard)
    · exact oneLine_pair (safe_custom pair custom)

end Line

section Custom

/- A string no character of which JSON escapes, or no string. -/
def CefKeeps : Json Numeral → Prop
  | .string s => ∀ c ∈ s, Json.Plain c
  | _ => True

theorem escape_plain {s : List Char} (plain : ∀ c ∈ s, Json.Plain c) : Json.escape s = s := by
  have each : ∀ c ∈ s, Json.escapeChar c = [c] := fun c member =>
    Json.escapeChar_plain (plain c member)
  rw [Json.escape, List.flatMap_congr each, List.flatMap_singleton']

theorem customText_cef (value : Json Numeral) : customText value = saidBy value ↔ CefKeeps value := by
  cases value with
  | string s =>
    rw [customText_string, saidBy, CefKeeps]
    constructor
    · intro same
      have marks := congrArg (List.count '\\') same
      rw [count_trimQuotesEnd, Json.count_escape] at marks
      have none_escaped : s.countP (fun c => ¬ Json.Plain c) = 0 := by omega
      rw [List.countP_eq_zero] at none_escaped
      intro c member
      by_contra escaped
      exact none_escaped c member (by simpa using escaped)
    · intro plain
      rw [escape_plain plain]
      rcases List.eq_nil_or_concat s with rfl | ⟨front, c, rfl⟩
      · rfl
      · rw [List.concat_eq_append] at plain ⊢
        have not_quote := (plain c (by simp)).1
        exact trimQuotesEnd_other (by simp [isQuote, not_quote]) front
  | null => exact ⟨fun _ => trivial, fun _ => customText_other (by simp)⟩
  | bool b => exact ⟨fun _ => trivial, fun _ => customText_other (by simp)⟩
  | number n => exact ⟨fun _ => trivial, fun _ => customText_other (by simp)⟩
  | array items => exact ⟨fun _ => trivial, fun _ => customText_other (by simp)⟩
  | object fields => exact ⟨fun _ => trivial, fun _ => customText_other (by simp)⟩

theorem length_customs (what : Json Numeral → List Char)
    (fields : List (List Char × Json Numeral)) :
    (cefCustoms what fields).length = 2 * fields.length := by
  rw [cefCustoms, List.length_flatMap]
  simp [List.map_const', Nat.mul_comm]

theorem customs_same {what other : Json Numeral → List Char}
    (fields : List (List Char × Json Numeral)) (start : Nat) :
    (fields.zipIdx start).flatMap (fun entry =>
        [(csLabel entry.2, entry.1.1), (csKey entry.2, what entry.1.2)]) =
      (fields.zipIdx start).flatMap (fun entry =>
        [(csLabel entry.2, entry.1.1), (csKey entry.2, other entry.1.2)]) ↔
      ∀ field ∈ fields, what field.2 = other field.2 := by
  induction fields generalizing start with
  | nil => simp
  | cons field fields ih => simp [List.zipIdx_cons, ih]

/-- A receiver reads exactly the header fields and the attributes of an event in its CEF line,
    which is a single one, just when the event has no more custom fields than the format has
    places for and none of their strings has a character that JSON escapes. -/
theorem cef_reads_back (f : CefFormatter) (event : SiemEvent) :
    (readCef (f.format event) = some (cefHeader f event, cefAttributes event) ∧
        OneLine (f.format event)) ↔
      event.customs.length ≤ 5 ∧ ∀ field ∈ event.customs, CefKeeps field.2 := by
  rw [readCef_format, cefAttributes, Option.some.injEq, Prod.mk.injEq, List.append_right_inj,
    and_iff_left (oneLine_cef f event), and_iff_right rfl]
  have keeps : (∀ field ∈ event.customs, CefKeeps field.2) ↔
      ∀ field ∈ event.customs, customText field.2 = saidBy field.2 := by
    simp only [customText_cef]
  rw [keeps]
  by_cases few : event.customs.length ≤ 5
  · rw [List.take_of_length_le few, cefCustoms, cefCustoms, customs_same]
    simp [few]
  · refine ⟨fun same => ?_, fun bounded => absurd bounded.1 few⟩
    have lengths := congrArg List.length same
    rw [length_customs, length_customs, List.length_take] at lengths
    omega

end Custom

end SentinelAgent.Siem
