import Mathlib.Tactic.IntervalCases
import SentinelAgent.Library.Json

/-!
JSON read back from a text. Blanks may stand between the pieces; a character may be written by
any of its escapes, one beyond 16 bits by two. What is written as `Json.text` is read as it was.
-/
namespace Json

def isBlank (c : Char) : Bool := c = ' ' || c = '\n' || c = '\r' || c = '\t'

def skipBlanks (text : List Char) : List Char := text.dropWhile isBlank

def hexValue (c : Char) : Option Nat :=
  if '0' ≤ c ∧ c ≤ '9' then some (c.toNat - 48)
  else if 'a' ≤ c ∧ c ≤ 'f' then some (c.toNat - 87)
  else if 'A' ≤ c ∧ c ≤ 'F' then some (c.toNat - 55)
  else none

def hexFour (a b c d : Char) : Option Nat := do
  let a ← hexValue a
  let b ← hexValue b
  let c ← hexValue c
  let d ← hexValue d
  some (((a * 16 + b) * 16 + c) * 16 + d)

/- The character of a unit of 16 bits, unless it is half of a pair. -/
def unitChar (unit : Nat) : Option Char :=
  if 0xd800 ≤ unit ∧ unit < 0xe000 then none else some (Char.ofNat unit)

def pairChar (high low : Nat) : Option Char :=
  if 0xd800 ≤ high ∧ high < 0xdc00 ∧ 0xdc00 ≤ low ∧ low < 0xe000 then
    some (Char.ofNat (0x10000 + (high - 0xd800) * 0x400 + (low - 0xdc00)))
  else none

def unescape : Char → Option Char
  | '"' => some '"'
  | '\\' => some '\\'
  | '/' => some '/'
  | 'b' => some '\x08'
  | 'f' => some '\x0c'
  | 'n' => some '\n'
  | 'r' => some '\r'
  | 't' => some '\t'
  | _ => none

/- One character of a string, and what stands after it. -/
def readChar : List Char → Option (Char × List Char)
  | [] => none
  | '\\' :: 'u' :: a :: b :: c :: d :: rest => do
    let unit ← hexFour a b c d
    match unitChar unit, rest with
    | some char, rest => some (char, rest)
    | none, '\\' :: 'u' :: e :: f :: g :: h :: rest => do
      let low ← hexFour e f g h
      let char ← pairChar unit low
      some (char, rest)
    | none, _ => none
  | '\\' :: c :: rest => (unescape c).map fun char => (char, rest)
  | c :: rest => if c.toNat < 32 ∨ c = '\\' then none else some (c, rest)

/- A string after its first quotation mark. -/
def readString : Nat → List Char → Option (List Char × List Char)
  | 0, _ => none
  | _ + 1, '"' :: rest => some ([], rest)
  | fuel + 1, text => do
    let (char, rest) ← readChar text
    let (more, rest) ← readString fuel rest
    some (char :: more, rest)

theorem readChar_plain {c : Char} (plain : Plain c) (rest : List Char) :
    readChar (c :: rest) = some (c, rest) := by
  obtain ⟨_, backslash, printed⟩ := plain
  have allowed : ¬ (c.toNat < 32 ∨ c = '\\') := by
    rintro (control | same)
    · omega
    · exact backslash same
  unfold readChar
  split
  · cases ‹_ = []›
  · simp_all
  · simp_all
  · simp_all

/- A control character by its number. -/
theorem readChar_control {n : Nat} (control : n < 32) (rest : List Char) :
    readChar (['\\', 'u', '0', '0', hexDigit (n / 16), hexDigit (n % 16)] ++ rest) =
      some (Char.ofNat n, rest) := by
  interval_cases n <;> rfl

/-- Every character is read as it was escaped. -/
theorem readChar_escapeChar (c : Char) (rest : List Char) :
    readChar (escapeChar c ++ rest) = some (c, rest) := by
  by_cases plain : Plain c
  · rw [escapeChar_plain plain]
    exact readChar_plain plain rest
  · have same : Char.ofNat c.toNat = c := Char.ofNat_toNat c
    unfold escapeChar
    split_ifs with quote backslash line feed tab back form control
    · subst quote; rfl
    · subst backslash; rfl
    · subst line; rfl
    · subst feed; rfl
    · subst tab; rfl
    · rw [← same, back]; rfl
    · rw [← same, form]; rfl
    · rw [readChar_control control, same]
    · exact absurd ⟨quote, backslash, Nat.le_of_not_lt control⟩ plain

theorem readString_escape (s rest : List Char) {fuel : Nat} (enough : s.length < fuel) :
    readString fuel (escape s ++ '"' :: rest) = some (s, rest) := by
  induction s generalizing fuel with
  | nil =>
    cases fuel with
    | zero => cases enough
    | succ fuel => rfl
  | cons c s ih =>
    cases fuel with
    | zero => cases enough
    | succ fuel =>
      obtain ⟨first, more, shape, other⟩ := escapeChar_head c
      have read := readChar_escapeChar c (escape s ++ '"' :: rest)
      have later := ih (Nat.lt_of_succ_lt_succ enough)
      have whole : escape (c :: s) ++ '"' :: rest =
          escapeChar c ++ (escape s ++ '"' :: rest) := by
        simp [escape]
      rw [whole]
      rw [shape] at read ⊢
      simp only [List.cons_append] at read ⊢
      rw [readString]
      · rw [read]
        simp only [Option.bind_eq_bind, Option.bind_some, later]
      · rintro _ ⟨⟩
        exact other rfl

variable {N : Type} (readNumber : List Char → Option (N × List Char))

mutual

def readValue : Nat → List Char → Option (Json N × List Char)
  | 0, _ => none
  | fuel + 1, text =>
    match skipBlanks text with
    | 'n' :: 'u' :: 'l' :: 'l' :: rest => some (.null, rest)
    | 't' :: 'r' :: 'u' :: 'e' :: rest => some (.bool true, rest)
    | 'f' :: 'a' :: 'l' :: 's' :: 'e' :: rest => some (.bool false, rest)
    | '"' :: rest => (readString fuel rest).map fun read => (.string read.1, read.2)
    | '[' :: rest =>
      match skipBlanks rest with
      | ']' :: rest => some (.array [], rest)
      | rest => (readItems fuel rest).map fun read => (.array read.1, read.2)
    | '{' :: rest =>
      match skipBlanks rest with
      | '}' :: rest => some (.object [], rest)
      | rest => (readFields fuel rest).map fun read => (.object read.1, read.2)
    | rest => (readNumber rest).map fun read => (.number read.1, read.2)

/- Items up to the bracket that ends them. -/
def readItems : Nat → List Char → Option (List (Json N) × List Char)
  | 0, _ => none
  | fuel + 1, text => do
    let (item, rest) ← readValue fuel text
    match skipBlanks rest with
    | ']' :: rest => some ([item], rest)
    | ',' :: rest =>
      let (items, rest) ← readItems fuel rest
      some (item :: items, rest)
    | _ => none

/- Fields up to the brace that ends them, in the order they stand in. -/
def readFields : Nat → List Char → Option (List (List Char × Json N) × List Char)
  | 0, _ => none
  | fuel + 1, text =>
    match skipBlanks text with
    | '"' :: rest => do
      let (key, rest) ← readString fuel rest
      match skipBlanks rest with
      | ':' :: rest =>
        let (value, rest) ← readValue fuel rest
        match skipBlanks rest with
        | '}' :: rest => some ([(key, value)], rest)
        | ',' :: rest =>
          let (fields, rest) ← readFields fuel rest
          some ((key, value) :: fields, rest)
        | _ => none
      | _ => none
    | _ => none

end

/- The whole text has to be one value. -/
def read (text : List Char) : Option (Json N) :=
  match readValue readNumber (2 * text.length + 1) text with
  | some (value, rest) => if skipBlanks rest = [] then some value else none
  | none => none

/-! What is written is read. A number has to be told from what may stand after it. -/

/- What may stand after a value in a text without blanks. -/
def Ends (rest : List Char) : Prop :=
  rest = [] ∨ ∃ c more, rest = c :: more ∧ (c = ',' ∨ c = ']' ∨ c = '}')

structure Numbers (numberText : N → List Char) : Prop where
  reads : ∀ n rest, Ends rest → readNumber (numberText n ++ rest) = some (n, rest)
  starts : ∀ n, ∃ c more, numberText n = c :: more ∧ (c = '-' ∨ c.isDigit = true)

section
variable {readNumber} {numberText : N → List Char} (numbers : Numbers readNumber numberText)

theorem escape_length (s : List Char) : s.length ≤ (escape s).length := by
  induction s with
  | nil => exact Nat.le_refl _
  | cons c s ih =>
    obtain ⟨first, more, shape, _⟩ := escapeChar_head c
    simp only [escape, List.flatMap_cons, List.length_append, List.length_cons, shape] at ih ⊢
    omega

theorem skipBlanks_cons {c : Char} (shown : isBlank c = false) (rest : List Char) :
    skipBlanks (c :: rest) = c :: rest := by
  simp [skipBlanks, shown]

theorem number_start {c : Char} (kind : c = '-' ∨ c.isDigit = true) {d : Char}
    (letter : d.isDigit = false) (sign : d ≠ '-') : c ≠ d := by
  rintro rfl
  cases kind with
  | inl minus => exact sign minus
  | inr digit => simp [letter] at digit

/- How the text of a value begins. -/
theorem text_head (numbers : Numbers readNumber numberText) (j : Json N) :
    ∃ c more, text numberText j = c :: more ∧ isBlank c = false ∧ c ≠ ']' ∧ c ≠ '}' := by
  cases j with
  | null => exact ⟨_, _, rfl, by decide⟩
  | bool b => cases b <;> exact ⟨_, _, rfl, by decide⟩
  | number n =>
    obtain ⟨c, more, shape, kind⟩ := numbers.starts n
    refine ⟨c, more, shape, ?_⟩
    have other := fun d => number_start kind (d := d)
    have blank : isBlank c = false := by
      simp [isBlank, other ' ' (by decide) (by decide), other '\n' (by decide) (by decide),
        other '\r' (by decide) (by decide), other '\t' (by decide) (by decide)]
    exact ⟨blank, other _ (by decide) (by decide), other _ (by decide) (by decide)⟩
  | string s => exact ⟨_, _, rfl, by decide⟩
  | array items => exact ⟨_, _, rfl, by decide⟩
  | object fields => exact ⟨_, _, rfl, by decide⟩

theorem skipBlanks_text (numbers : Numbers readNumber numberText) (j : Json N)
    (rest : List Char) :
    skipBlanks (text numberText j ++ rest) = text numberText j ++ rest := by
  obtain ⟨c, more, shape, shown, _⟩ := text_head numbers j
  rw [shape]
  exact skipBlanks_cons shown _

theorem readValue_number (numbers : Numbers readNumber numberText) (n : N) {rest : List Char}
    (ends : Ends rest) (fuel : Nat) :
    readValue readNumber (fuel + 1) (numberText n ++ rest) = some (.number n, rest) := by
  have skip := skipBlanks_text numbers (.number n) rest
  obtain ⟨c, more, shape, kind⟩ := numbers.starts n
  have read := numbers.reads n rest ends
  simp only [text] at skip
  rw [readValue, skip]
  rw [shape] at read ⊢
  simp only [List.cons_append] at read ⊢
  have other := fun d => number_start kind (d := d)
  split
  · exact absurd (List.cons.inj ‹_›).1 (other _ (by decide) (by decide))
  · exact absurd (List.cons.inj ‹_›).1 (other _ (by decide) (by decide))
  · exact absurd (List.cons.inj ‹_›).1 (other _ (by decide) (by decide))
  · exact absurd (List.cons.inj ‹_›).1 (other _ (by decide) (by decide))
  · exact absurd (List.cons.inj ‹_›).1 (other _ (by decide) (by decide))
  · exact absurd (List.cons.inj ‹_›).1 (other _ (by decide) (by decide))
  · rw [read]
    rfl

theorem ends_after {c : Char} (rest : List Char) (stop : c = ',' ∨ c = ']' ∨ c = '}') :
    Ends (c :: rest) := Or.inr ⟨c, rest, rfl, stop⟩

theorem textItems_head (numbers : Numbers readNumber numberText) (item : Json N)
    (items : List (Json N)) : ∃ c more, textItems numberText (item :: items) = c :: more ∧
      isBlank c = false ∧ c ≠ ']' := by
  obtain ⟨c, more, shape, shown, other, _⟩ := text_head numbers item
  cases items with
  | nil => exact ⟨c, more, shape, shown, other⟩
  | cons next items =>
    refine ⟨c, more ++ ',' :: textItems numberText (next :: items), ?_, shown, other⟩
    simp only [textItems, shape, List.cons_append]

theorem textFields_head (field : List Char × Json N) (fields : List (List Char × Json N)) :
    ∃ more, textFields numberText (field :: fields) = '"' :: more := by
  cases fields with
  | nil => exact ⟨_, rfl⟩
  | cons next fields => exact ⟨_, rfl⟩

mutual

theorem readValue_text (numbers : Numbers readNumber numberText) : ∀ (j : Json N)
    (rest : List Char) (fuel : Nat), Ends rest → 2 * (text numberText j).length < fuel →
      readValue readNumber fuel (text numberText j ++ rest) = some (j, rest)
  | _, _, 0, _, enough => by cases enough
  | .null, rest, fuel + 1, ends, enough => rfl
  | .bool true, rest, fuel + 1, ends, enough => rfl
  | .bool false, rest, fuel + 1, ends, enough => rfl
  | .number n, rest, fuel + 1, ends, enough => readValue_number numbers n ends fuel
  | .string s, rest, fuel + 1, ends, enough => by
    have long := escape_length s
    have short : s.length < fuel := by
      simp only [text, quote, List.length_cons, List.length_append] at enough
      omega
    have read := readString_escape s rest short
    have whole : text numberText (.string s) ++ rest = '"' :: (escape s ++ '"' :: rest) := by
      simp [text, quote]
    rw [whole, readValue, skipBlanks_cons (by decide)]
    simp only [read, Option.map_some]
  | .array [], rest, fuel + 1, ends, enough => rfl
  | .array (item :: items), rest, fuel + 1, ends, enough => by
    have read := readItems_text numbers item items rest fuel (by
      simp only [text, List.length_cons, List.length_append] at enough
      omega)
    obtain ⟨c, more, shape, shown, other⟩ := textItems_head numbers item items
    have whole : text numberText (.array (item :: items)) ++ rest =
        '[' :: (textItems numberText (item :: items) ++ ']' :: rest) := by
      simp [text]
    have skip : skipBlanks (textItems numberText (item :: items) ++ ']' :: rest) =
        textItems numberText (item :: items) ++ ']' :: rest := by
      rw [shape]
      exact skipBlanks_cons shown _
    rw [whole, readValue, skipBlanks_cons (by decide)]
    simp only [skip]
    split
    · rename_i closes
      rw [shape] at closes
      exact absurd (List.cons.inj closes).1 other
    · rw [read]
      rfl
  | .object [], rest, fuel + 1, ends, enough => rfl
  | .object (field :: fields), rest, fuel + 1, ends, enough => by
    have read := readFields_text numbers field fields rest fuel (by
      simp only [text, List.length_cons, List.length_append] at enough
      omega)
    obtain ⟨more, shape⟩ := @textFields_head N numberText field fields
    have whole : text numberText (.object (field :: fields)) ++ rest =
        '{' :: (textFields numberText (field :: fields) ++ '}' :: rest) := by
      simp [text]
    have skip : skipBlanks (textFields numberText (field :: fields) ++ '}' :: rest) =
        textFields numberText (field :: fields) ++ '}' :: rest := by
      rw [shape]
      exact skipBlanks_cons (by decide) _
    rw [whole, readValue, skipBlanks_cons (by decide)]
    simp only [skip]
    split
    · rename_i closes
      rw [shape] at closes
      exact absurd (List.cons.inj closes).1 (by decide)
    · rw [read]
      rfl

theorem readItems_text (numbers : Numbers readNumber numberText) : ∀ (item : Json N)
    (items : List (Json N)) (rest : List Char) (fuel : Nat),
    2 * (textItems numberText (item :: items)).length + 2 ≤ fuel →
      readItems readNumber fuel (textItems numberText (item :: items) ++ ']' :: rest) =
        some (item :: items, rest)
  | _, _, _, 0, enough => by cases enough
  | item, [], rest, fuel + 1, enough => by
    have read := readValue_text numbers item (']' :: rest) fuel (ends_after rest (by decide)) (by
      simp only [textItems] at enough
      omega)
    simp only [textItems, readItems, read, Option.bind_eq_bind, Option.bind_some]
    rw [skipBlanks_cons (by decide)]
    rfl
  | item, next :: items, rest, fuel + 1, enough => by
    have read := readValue_text numbers item
      (',' :: (textItems numberText (next :: items) ++ ']' :: rest)) fuel
      (ends_after _ (by decide)) (by
        simp only [textItems, List.length_append, List.length_cons] at enough
        omega)
    have more := readItems_text numbers next items rest fuel (by
      simp only [textItems, List.length_append, List.length_cons] at enough ⊢
      omega)
    simp only [textItems, readItems, List.append_assoc, List.cons_append, read,
      Option.bind_eq_bind, Option.bind_some]
    rw [skipBlanks_cons (by decide)]
    simp only [more, Option.bind_some]

theorem readFields_text (numbers : Numbers readNumber numberText) :
    ∀ (field : List Char × Json N) (fields : List (List Char × Json N)) (rest : List Char)
      (fuel : Nat), 2 * (textFields numberText (field :: fields)).length + 2 ≤ fuel →
      readFields readNumber fuel (textFields numberText (field :: fields) ++ '}' :: rest) =
        some (field :: fields, rest)
  | _, _, _, 0, enough => by cases enough
  | (key, value), [], rest, fuel + 1, enough => by
    have long := escape_length key
    simp only [textFields, quote, List.length_append, List.length_cons, List.length_nil] at enough
    have readKey := readString_escape key (':' :: (text numberText value ++ '}' :: rest))
      (by omega : key.length < fuel)
    have read := readValue_text numbers value ('}' :: rest) fuel (ends_after rest (by decide))
      (by omega)
    simp only [textFields, quote, readFields, List.append_assoc, List.cons_append,
      List.nil_append]
    rw [skipBlanks_cons (by decide)]
    simp only [readKey, Option.bind_eq_bind, Option.bind_some]
    rw [skipBlanks_cons (by decide)]
    simp only [read, Option.bind_some]
    rw [skipBlanks_cons (by decide)]
    rfl
  | (key, value), next :: fields, rest, fuel + 1, enough => by
    have long := escape_length key
    simp only [textFields, quote, List.length_append, List.length_cons, List.length_nil] at enough
    have readKey := readString_escape key (':' :: (text numberText value ++ ',' ::
      (textFields numberText (next :: fields) ++ '}' :: rest))) (by omega : key.length < fuel)
    have read := readValue_text numbers value
      (',' :: (textFields numberText (next :: fields) ++ '}' :: rest)) fuel
      (ends_after _ (by decide)) (by omega)
    have more := readFields_text numbers next fields rest fuel (by omega)
    simp only [textFields, quote, readFields, List.append_assoc, List.cons_append,
      List.nil_append]
    rw [skipBlanks_cons (by decide)]
    simp only [readKey, Option.bind_eq_bind, Option.bind_some]
    rw [skipBlanks_cons (by decide)]
    simp only [read, Option.bind_some]
    rw [skipBlanks_cons (by decide)]
    simp only [more, Option.bind_some]

end

/-- The text of a value is read as the value. -/
theorem read_text (numbers : Numbers readNumber numberText) (j : Json N) :
    read readNumber (text numberText j) = some j := by
  have whole := readValue_text numbers j [] (2 * (text numberText j).length + 1) (Or.inl rfl)
    (by omega)
  rw [List.append_nil] at whole
  rw [read, whole]
  rfl

end

end Json
