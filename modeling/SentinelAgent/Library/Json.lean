import Mathlib.Algebra.Order.Ring.Nat
import Mathlib.Data.List.Basic

/-!
JSON values and their text: the shortest text there is, without blanks, with the characters
escaped that have to be. What a number is, and its text, is a parameter.
-/

inductive Json (N : Type) where
  | null
  | bool (b : Bool)
  | number (n : N)
  | string (s : List Char)
  | array (items : List (Json N))
  | object (fields : List (List Char × Json N))

namespace Json

def get {N : Type} (key : String) : Json N → Option (Json N)
  | object fields => (fields.find? fun field => field.1 == key.toList).map Prod.snd
  | _ => none

def asStr {N : Type} : Json N → Option String
  | string s => some (String.ofList s)
  | _ => none

def asArray {N : Type} : Json N → Option (List (Json N))
  | array items => some items
  | _ => none

def asNumber {N : Type} : Json N → Option N
  | number n => some n
  | _ => none

def hexDigit (n : Nat) : Char := Char.ofNat (if n < 10 then 48 + n else 87 + n)

/-- Quotation marks, backslashes and the control characters are escaped. -/
def escapeChar (c : Char) : List Char :=
  if c = '"' then ['\\', '"']
  else if c = '\\' then ['\\', '\\']
  else if c = '\n' then ['\\', 'n']
  else if c = '\r' then ['\\', 'r']
  else if c = '\t' then ['\\', 't']
  else if c.toNat = 8 then ['\\', 'b']
  else if c.toNat = 12 then ['\\', 'f']
  else if c.toNat < 32 then ['\\', 'u', '0', '0', hexDigit (c.toNat / 16), hexDigit (c.toNat % 16)]
  else [c]

def escape (s : List Char) : List Char := s.flatMap escapeChar

def quote (s : List Char) : List Char := '"' :: (escape s ++ ['"'])

/-- A character that stands in the text as it is. -/
def Plain (c : Char) : Prop := c ≠ '"' ∧ c ≠ '\\' ∧ 32 ≤ c.toNat

instance (c : Char) : Decidable (Plain c) :=
  inferInstanceAs (Decidable (c ≠ '"' ∧ c ≠ '\\' ∧ 32 ≤ c.toNat))

theorem escapeChar_plain {c : Char} (plain : Plain c) : escapeChar c = [c] := by
  obtain ⟨quote, backslash, printed⟩ := plain
  have of_small : ∀ d : Char, d.toNat < 32 → c ≠ d := by
    rintro d small rfl
    omega
  rw [escapeChar, if_neg quote, if_neg backslash, if_neg (of_small _ (by decide)),
    if_neg (of_small _ (by decide)), if_neg (of_small _ (by decide)), if_neg (by omega),
    if_neg (by omega), if_neg (by omega)]

theorem hexDigit_ne {n : Nat} (small : n < 16) : hexDigit n ≠ '\\' := by
  revert n
  decide

theorem toNat_lt_sixteen {c : Char} (control : c.toNat < 32) : c.toNat / 16 < 16 := by omega

/-- Every escape is by a backslash. -/
theorem count_escapeChar {c : Char} (escaped : ¬ Plain c) :
    (escapeChar c).count '\\' = [c].count '\\' + 1 := by
  unfold escapeChar
  by_cases quote : c = '"'
  · subst quote; decide
  · by_cases backslash : c = '\\'
    · subst backslash; decide
    · have control : c.toNat < 32 := by
        by_contra printed
        exact escaped ⟨quote, backslash, Nat.le_of_not_lt printed⟩
      have high := hexDigit_ne (toNat_lt_sixteen control)
      have low := hexDigit_ne (Nat.mod_lt c.toNat (by omega : 16 > 0))
      rw [if_neg quote, if_neg backslash]
      split_ifs <;> simp_all

theorem escapeChar_head (c : Char) : ∃ first rest, escapeChar c = first :: rest ∧ first ≠ '"' := by
  by_cases plain : Plain c
  · exact ⟨c, [], escapeChar_plain plain, plain.1⟩
  · unfold escapeChar
    by_cases quote : c = '"'
    · exact ⟨_, _, if_pos quote, by decide⟩
    · rw [if_neg quote]
      split_ifs with backslash <;> first
        | exact ⟨_, _, rfl, by decide⟩
        | exact ⟨_, _, rfl, quote⟩

theorem count_escape (s : List Char) :
    (escape s).count '\\' = s.count '\\' + s.countP fun c => ¬ Plain c := by
  induction s with
  | nil => rfl
  | cons c s ih =>
    rw [escape, List.flatMap_cons, ← escape, List.count_append, ih, ← List.singleton_append,
      List.count_append, List.countP_append]
    by_cases plain : Plain c
    · rw [escapeChar_plain plain]
      simp [plain]
      omega
    · rw [count_escapeChar plain]
      simp [plain]
      omega

variable {N : Type} (numberText : N → List Char)

mutual

def text : Json N → List Char
  | .null => "null".toList
  | .bool true => "true".toList
  | .bool false => "false".toList
  | .number n => numberText n
  | .string s => quote s
  | .array items => '[' :: (textItems items ++ [']'])
  | .object fields => '{' :: (textFields fields ++ ['}'])

def textItems : List (Json N) → List Char
  | [] => []
  | [item] => text item
  | item :: items => text item ++ ',' :: textItems items

def textFields : List (List Char × Json N) → List Char
  | [] => []
  | [(key, value)] => quote key ++ ':' :: text value
  | (key, value) :: fields => quote key ++ ':' :: (text value ++ ',' :: textFields fields)

end

section Size

/- How long a text is in UTF-8. -/
def utf8Length (s : List Char) : Nat := (s.map Char.utf8Size).sum

def utf16Size (c : Char) : Nat := if c.toNat < 65536 then 1 else 2

/- How long a text is in UTF-16. -/
def utf16Length (s : List Char) : Nat := (s.map utf16Size).sum

@[simp] theorem utf8Length_nil : utf8Length [] = 0 := rfl

@[simp] theorem utf8Length_cons (c : Char) (s : List Char) :
    utf8Length (c :: s) = c.utf8Size + utf8Length s := by simp [utf8Length]

@[simp] theorem utf8Length_append (s t : List Char) :
    utf8Length (s ++ t) = utf8Length s + utf8Length t := by simp [utf8Length]

@[simp] theorem utf16Length_nil : utf16Length [] = 0 := rfl

@[simp] theorem utf16Length_cons (c : Char) (s : List Char) :
    utf16Length (c :: s) = utf16Size c + utf16Length s := by simp [utf16Length]

@[simp] theorem utf16Length_append (s t : List Char) :
    utf16Length (s ++ t) = utf16Length s + utf16Length t := by simp [utf16Length]

theorem utf8Size_ascii {c : Char} (ascii : c.toNat < 128) : c.utf8Size = 1 := by
  have small : c.val ≤ 0x7f := by
    rw [UInt32.le_iff_toNat_le]
    exact Nat.le_of_lt_succ ascii
  simp [Char.utf8Size, small]

theorem utf8Length_ascii {s : List Char} (ascii : ∀ c ∈ s, c.toNat < 128) :
    utf8Length s = s.length := by
  induction s with
  | nil => rfl
  | cons c s ih =>
    rw [utf8Length_cons, utf8Size_ascii (ascii c List.mem_cons_self),
      ih fun d member => ascii d (List.mem_cons_of_mem c member), List.length_cons, Nat.add_comm]

theorem utf16Size_pos (c : Char) : 0 < utf16Size c := by
  unfold utf16Size
  split <;> decide

/-- A character has no more units of UTF-16 than bytes, and at most three bytes for each. -/
theorem utf16Size_le (c : Char) : utf16Size c ≤ c.utf8Size ∧ c.utf8Size ≤ 3 * utf16Size c := by
  unfold utf16Size Char.utf8Size
  have value : c.val.toNat = c.toNat := rfl
  simp only [UInt32.le_iff_toNat_le, value, UInt32.toNat_ofNatLT]
  split_ifs <;> omega

theorem utf16Length_le (s : List Char) : utf16Length s ≤ utf8Length s := by
  induction s with
  | nil => exact Nat.le_refl 0
  | cons c s ih =>
    have first := (utf16Size_le c).1
    rw [utf16Length_cons, utf8Length_cons]
    omega

theorem hexDigit_ascii {n : Nat} (small : n < 16) : (hexDigit n).toNat < 128 := by
  revert n
  decide

/-- No escape is longer than six bytes for each unit. -/
theorem utf8Length_escapeChar_le (c : Char) : utf8Length (escapeChar c) ≤ 6 * utf16Size c := by
  have positive := utf16Size_pos c
  by_cases plain : Plain c
  · rw [escapeChar_plain plain, utf8Length_cons, utf8Length_nil]
    have bound := (utf16Size_le c).2
    omega
  · have short : utf8Length (escapeChar c) ≤ 6 := by
      unfold escapeChar
      split_ifs with quote backslash _ _ _ _ _ control
      · decide
      · decide
      · decide
      · decide
      · decide
      · decide
      · decide
      · have high := utf8Size_ascii (hexDigit_ascii (toNat_lt_sixteen control))
        have low := utf8Size_ascii (hexDigit_ascii (Nat.mod_lt c.toNat (by omega : 16 > 0)))
        simp only [utf8Length_cons, utf8Length_nil, high, low]
        decide
      · exact absurd ⟨quote, backslash, Nat.le_of_not_lt control⟩ plain
    omega

theorem utf8Length_quote_le (s : List Char) : utf8Length (quote s) ≤ 6 * utf16Length s + 2 := by
  have escaped : utf8Length (escape s) ≤ 6 * utf16Length s := by
    induction s with
    | nil => exact Nat.le_refl 0
    | cons c s ih =>
      have first := utf8Length_escapeChar_le c
      have rest : utf8Length (escape (c :: s)) =
          utf8Length (escapeChar c) + utf8Length (escape s) := by
        rw [escape, List.flatMap_cons, utf8Length_append, ← escape]
      rw [rest, utf16Length_cons]
      omega
  have mark : '"'.utf8Size = 1 := by decide
  simp only [quote, utf8Length_cons, utf8Length_append, utf8Length_nil, mark]
  omega

variable {N : Type} (numberText : N → List Char)

def size (value : Json N) : Nat := utf8Length (text numberText value)

/-- The items of an array and the commas between them. -/
theorem utf8Length_textItems {items : List (Json N)} (nonempty : items ≠ []) :
    utf8Length (textItems numberText items) + 1 =
      (items.map fun item => size numberText item + 1).sum := by
  induction items with
  | nil => exact absurd rfl nonempty
  | cons item items ih =>
    cases items with
    | nil => simp [textItems, size]
    | cons next items =>
      have later := ih (List.cons_ne_nil _ _)
      have comma : ','.utf8Size = 1 := by decide
      simp only [textItems, utf8Length_append, utf8Length_cons, comma, List.map_cons,
        List.sum_cons, size] at later ⊢
      omega

/-- An object is no longer than its fields, with a colon and a comma each, and its braces. -/
theorem size_object_le (fields : List (List Char × Json N)) :
    size numberText (.object fields) ≤
      (fields.map fun field => utf8Length (quote field.1) + size numberText field.2 + 2).sum + 2 := by
  have colon : ':'.utf8Size = 1 := by decide
  have comma : ','.utf8Size = 1 := by decide
  have opens : '{'.utf8Size = 1 := by decide
  have closes : '}'.utf8Size = 1 := by decide
  have inner : utf8Length (textFields numberText fields) ≤
      (fields.map fun field => utf8Length (quote field.1) + size numberText field.2 + 2).sum := by
    induction fields with
    | nil => exact Nat.le_refl 0
    | cons field fields ih =>
      obtain ⟨key, value⟩ := field
      cases fields with
      | nil =>
        simp only [textFields, utf8Length_append, utf8Length_cons, colon, List.map_cons,
          List.sum_cons, List.map_nil, List.sum_nil, size]
        omega
      | cons next fields =>
        simp only [textFields, utf8Length_append, utf8Length_cons, colon, comma, List.map_cons,
          List.sum_cons, size] at ih ⊢
        omega
  simp only [size, text, utf8Length_cons, utf8Length_append, utf8Length_nil, opens, closes] at *
  omega

end Size

end Json
