import Mathlib.Algebra.Group.Nat.Defs
import Mathlib.Data.List.Infix
import Mathlib.Data.List.TakeWhile
import Mathlib.Data.Nat.Basic
import Mathlib.Data.String.Basic

/- Text as programs read it: blanks, letters without their case, decimal
   numbers of a fixed width. -/
namespace Text

/- What sorting texts asks of their order. -/
instance textOrder_trans : IsTrans String (fun a b => a ≤ b) := ⟨fun _ _ _ => le_trans⟩

instance textOrder_antisymm : Std.Antisymm (fun a b : String => a ≤ b) := ⟨fun _ _ => le_antisymm⟩

/- What holds of every character of a text is decided along the text, not over all characters. -/
instance forallCharsDecidable (p : Char → Prop) [DecidablePred p] (text : List Char) :
    Decidable (∀ c ∈ text, p c) :=
  List.decidableBAll p text

/- The Unicode property White_Space. -/
def isWhitespace (c : Char) : Bool :=
  decide ((9 ≤ c.toNat ∧ c.toNat ≤ 13) ∨ c.toNat = 0x20 ∨ c.toNat = 0x85 ∨ c.toNat = 0xA0 ∨
    c.toNat = 0x1680 ∨ (0x2000 ≤ c.toNat ∧ c.toNat ≤ 0x200A) ∨ c.toNat = 0x2028 ∨
    c.toNat = 0x2029 ∨ c.toNat = 0x202F ∨ c.toNat = 0x205F ∨ c.toNat = 0x3000)

def trim (s : String) : String :=
  String.ofList ((s.toList.dropWhile isWhitespace).reverse.dropWhile isWhitespace).reverse

def toAsciiLowercase (s : String) : String := String.ofList (s.toList.map Char.toLower)

def toAsciiUppercase (s : String) : String := String.ofList (s.toList.map Char.toUpper)

def eqIgnoreAsciiCase (a b : String) : Bool := toAsciiLowercase a == toAsciiLowercase b

/- Whether the second text stands somewhere in the first. -/
def contains (haystack needle : String) : Bool := decide (needle.toList <:+: haystack.toList)

def startsWith (s : String) (c : Char) : Bool := s.toList.head? == some c

/- What follows the last such character, or all of it. -/
def afterLast (c : Char) (s : String) : String :=
  String.ofList (s.toList.reverse.takeWhile (· != c)).reverse

def split (c : Char) (s : String) : List String := (s.toList.splitOn c).map String.ofList

def words (s : String) : List String :=
  ((s.toList.splitOnP isWhitespace).filter (· ≠ [])).map String.ofList

/- A line ends with a line feed, and a carriage return before it is not part of it. -/
def lines (s : String) : List String :=
  let ended (line : List Char) := if line.getLast? = some '\r' then line.dropLast else line
  let parts := s.toList.splitOn '\n'
  (parts.dropLast.map ended ++ (parts.getLast?.filter (· ≠ [])).toList).map String.ofList

/- The text cut at the first such characters into so many pieces at most. -/
def splitn (pieces : Nat) (c : Char) (s : String) : List String :=
  let parts := s.toList.splitOn c
  ((parts.take (pieces - 1)) ++
    (if pieces ≤ parts.length then [[c].intercalate (parts.drop (pieces - 1))] else [])).map
      String.ofList

/- What stands before and after the first such character, if there is one. -/
def splitFirst (c : Char) (s : String) : Option (String × String) :=
  if c ∈ s.toList then
    some (String.ofList (s.toList.takeWhile (· != c)),
      String.ofList (s.toList.dropWhile (· != c)).tail)
  else none

def splitLast (c : Char) (s : String) : Option (String × String) :=
  if c ∈ s.toList then
    some (String.ofList (s.toList.reverse.dropWhile (· != c)).tail.reverse,
      String.ofList (s.toList.reverse.takeWhile (· != c)).reverse)
  else none

def beginsWith (start s : String) : Bool := start.toList.isPrefixOf s.toList

def endsWith (stop s : String) : Bool := stop.toList.isSuffixOf s.toList

def afterStart (start s : String) : Option String :=
  if beginsWith start s then some (String.ofList (s.toList.drop start.toList.length)) else none

def beforeEnd (stop s : String) : Option String :=
  if endsWith stop s then
    some (String.ofList (s.toList.take (s.toList.length - stop.toList.length)))
  else none

def trimEndOf (c : Char) (s : String) : String :=
  String.ofList (s.toList.reverse.dropWhile (· == c)).reverse

def trimOf (c : Char) (s : String) : String :=
  trimEndOf c (String.ofList (s.toList.dropWhile (· == c)))

/- What stands after the first place where the text stands. -/
def afterChars (needle : List Char) : List Char → Option (List Char)
  | [] => if needle = [] then some [] else none
  | c :: cs =>
    if needle.isPrefixOf (c :: cs) then some ((c :: cs).drop needle.length)
    else afterChars needle cs

def afterText (needle s : String) : Option String :=
  (afterChars needle.toList s.toList).map String.ofList

def beforeText (needle s : String) : Option String :=
  (afterText needle s).map fun rest =>
    String.ofList (s.toList.take (s.toList.length - rest.toList.length - needle.toList.length))

def allDigits (s : String) : Bool := s.toList.all Char.isDigit

/- An unsigned number of so many bits: an optional plus sign, then digits. -/
def parseUnsigned (bits : Nat) (s : String) : Option Nat :=
  let digits := match s.toList with
    | '+' :: digits => digits
    | digits => digits
  if digits ≠ [] ∧ digits.all Char.isDigit = true ∧ Nat.ofDigitChars 10 digits 0 < 2 ^ bits then
    some (Nat.ofDigitChars 10 digits 0)
  else none

theorem parseUnsigned_lt {bits : Nat} {s : String} {n : Nat}
    (reads : parseUnsigned bits s = some n) : n < 2 ^ bits := by
  simp only [parseUnsigned] at reads
  split_ifs at reads with in_range
  rw [← Option.some.inj reads]
  exact in_range.2.2

/- A word is one word only. -/
theorem word_unique {token first second : String} (is_first : eqIgnoreAsciiCase token first = true)
    (different : toAsciiLowercase first ≠ toAsciiLowercase second) :
    eqIgnoreAsciiCase token second = false := by
  simp only [eqIgnoreAsciiCase, beq_iff_eq, beq_eq_false_iff_ne] at *
  rw [is_first]
  exact different

theorem toLower_digit {c : Char} (digit : c.isDigit = true) : c.toLower = c := by
  simp only [Char.isDigit, Bool.and_eq_true, decide_eq_true_eq] at digit
  have small : c.val.toNat ≤ 57 := UInt32.le_iff_toNat_le.mp digit.2
  refine dif_neg ?_
  rintro ⟨large, _⟩
  have large : 65 ≤ c.val.toNat := UInt32.le_iff_toNat_le.mp large
  omega

theorem repr_digits (n : Nat) : ∀ c ∈ n.repr.toList, c.isDigit = true := by
  intro c member
  rw [Nat.toList_repr] at member
  exact Nat.isDigit_of_mem_toDigits (by omega) (by omega) member

theorem lowercase_repr (n : Nat) : toAsciiLowercase n.repr = n.repr := by
  have same : n.repr.toList.map Char.toLower = n.repr.toList.map id :=
    List.map_congr_left fun c member => toLower_digit (repr_digits n c member)
  simp only [toAsciiLowercase, same, List.map_id, String.ofList_toList]

theorem repr_ne_word {word : String} (n : Nat) (letters : ¬ word.toList.all Char.isDigit = true) :
    n.repr ≠ word := by
  intro same
  apply letters
  rw [← same, List.all_eq_true]
  exact repr_digits n

/- A decimal number reads back. -/
theorem parseUnsigned_repr {bits n : Nat} (fits : n < 2 ^ bits) :
    parseUnsigned bits n.repr = some n := by
  have nonempty : n.repr.toList ≠ [] := by
    rw [Nat.toList_repr]
    exact Nat.toDigits_ne_nil
  have value : Nat.ofDigitChars 10 n.repr.toList 0 = n := by
    rw [Nat.toList_repr, Nat.ofDigitChars_ten_toDigits]
  have digits := repr_digits n
  generalize n.repr = text at nonempty value digits
  have no_sign : ∀ rest, text.toList ≠ '+' :: rest := by
    intro rest sign
    exact absurd (digits '+' (by simp [sign])) (by decide)
  have all : text.toList.all Char.isDigit = true := List.all_eq_true.mpr digits
  rw [parseUnsigned]
  split
  · rename_i rest sign
    exact absurd sign (no_sign rest)
  · simp only [value]
    rw [if_pos ⟨nonempty, all, fits⟩]

theorem parseUnsigned_wider {bits more n : Nat} {s : String} (wider : bits ≤ more)
    (read : parseUnsigned bits s = some n) : parseUnsigned more s = some n := by
  have room : 2 ^ bits ≤ 2 ^ more := Nat.pow_le_pow_right (by decide) wider
  dsimp only [parseUnsigned] at read ⊢
  generalize (match s.toList with
    | '+' :: digits => digits
    | digits => digits) = digits at read ⊢
  split at read
  · rename_i narrow
    rw [if_pos ⟨narrow.1, narrow.2.1, narrow.2.2.trans_le room⟩]
    exact read
  · cases read

/- Whatever the width, what is read of a decimal number is the number. -/
theorem parseUnsigned_repr_eq {bits n m : Nat} (read : parseUnsigned bits n.repr = some m) :
    m = n := by
  have fits : n < 2 ^ (bits + n) :=
    Nat.lt_two_pow_self.trans_le (Nat.pow_le_pow_right (by decide) (by omega))
  have wide := parseUnsigned_wider (Nat.le_add_right bits n) read
  rw [parseUnsigned_repr fits] at wide
  exact (Option.some.inj wide).symm

theorem repr_injective {a b : Nat} (same : a.repr = b.repr) : a = b := by
  have reads : ∀ n, n < 2 ^ (a + b) → parseUnsigned (a + b) n.repr = some n :=
    fun n fits => parseUnsigned_repr fits
  have large : a + b < 2 ^ (a + b) := Nat.lt_two_pow_self
  have first := reads a (by omega)
  rw [same, reads b (by omega)] at first
  exact (Option.some.inj first).symm

/- A text without blanks is not trimmed. -/
theorem trim_unchanged {text : List Char} (plain : ∀ c ∈ text, isWhitespace c = false) :
    trim (String.ofList text) = String.ofList text := by
  have unchanged : ∀ cs : List Char, (∀ c ∈ cs, isWhitespace c = false) →
      cs.dropWhile isWhitespace = cs := by
    intro cs none_white
    cases cs with
    | nil => rfl
    | cons c cs => simp [List.dropWhile_cons_of_neg, none_white c List.mem_cons_self]
  have reversed : ∀ c ∈ text.reverse, isWhitespace c = false :=
    fun c member => plain c (List.mem_reverse.mp member)
  rw [trim, String.toList_ofList, unchanged text plain, unchanged _ reversed, List.reverse_reverse]

section Split
variable {c : Char} {key value : List Char}

theorem others_of_free (free : c ∉ key) : ∀ d ∈ key, (d != c) = true := by
  intro d member
  simp only [bne_iff_ne, ne_eq]
  rintro rfl
  exact free member

theorem splitFirst_text (free : c ∉ key) :
    splitFirst c (String.ofList (key ++ c :: value)) =
      some (String.ofList key, String.ofList value) := by
  have others := others_of_free free
  rw [splitFirst, String.toList_ofList, if_pos (by simp), List.takeWhile_append_of_pos others,
    List.dropWhile_append_of_pos others, List.takeWhile_cons_of_neg (by simp),
    List.dropWhile_cons_of_neg (by simp), List.append_nil, List.tail_cons]

theorem splitFirst_parts {part first second : String}
    (cut : splitFirst c part = some (first, second)) :
    part.toList = first.toList ++ c :: second.toList ∧ c ∉ first.toList := by
  rw [splitFirst] at cut
  split at cut
  · rename_i inside
    obtain ⟨rfl, rfl⟩ := Prod.mk.inj (Option.some.inj cut)
    rw [String.toList_ofList, String.toList_ofList]
    have parts := List.takeWhile_append_dropWhile (p := (· != c)) (l := part.toList)
    constructor
    · have next : part.toList.dropWhile (· != c) = c :: (part.toList.dropWhile (· != c)).tail := by
        cases there : part.toList.dropWhile (· != c) with
        | nil =>
          have := List.dropWhile_eq_nil_iff.mp there c inside
          simp at this
        | cons d rest =>
          have first := List.head?_dropWhile_not (· != c) part.toList
          rw [there] at first
          rw [show d = c by simpa using first]
          rfl
      rw [← next, parts]
    · intro member
      have := List.mem_takeWhile_imp member
      simp at this
  · cases cut

theorem splitLast_text (free : c ∉ value) :
    splitLast c (String.ofList (key ++ c :: value)) =
      some (String.ofList key, String.ofList value) := by
  have others := others_of_free (fun member => free (List.mem_reverse.mp member) : c ∉ value.reverse)
  have reversed : (key ++ c :: value).reverse = value.reverse ++ c :: key.reverse := by simp
  rw [splitLast, String.toList_ofList, if_pos (by simp), reversed, List.takeWhile_append_of_pos others,
    List.dropWhile_append_of_pos others, List.takeWhile_cons_of_neg (by simp),
    List.dropWhile_cons_of_neg (by simp), List.append_nil, List.tail_cons, List.reverse_reverse,
    List.reverse_reverse]

/- Cut in two at the first such character. -/
theorem splitn_two (free : c ∉ key) : splitn 2 c (String.ofList (key ++ c :: value)) =
    [String.ofList key, String.ofList value] := by
  have parts : (key ++ c :: value).splitOn c = key :: value.splitOn c := by
    rw [List.splitOn_append_cons_self, List.splitOn_eq_singleton free]
    rfl
  have some_part := List.length_pos_of_ne_nil (List.splitOn_ne_nil c value)
  rw [splitn, String.toList_ofList, parts]
  simp only [List.length_cons, Nat.add_one_sub_one, List.take_succ_cons, List.take_zero,
    List.drop_succ_cons, List.drop_zero, List.intercalate_splitOn]
  rw [if_pos (by omega)]
  rfl

end Split

/- What is neither a digit nor a sign is in no number. -/
theorem parseUnsigned_none {bits : Nat} {text : String} {c : Char} (member : c ∈ text.toList)
    (no_digit : c.isDigit = false) (no_sign : c ≠ '+') : parseUnsigned bits text = none := by
  have not_all : ∀ digits : List Char, c ∈ digits → digits.all Char.isDigit = false := by
    intro digits there
    rw [List.all_eq_false]
    exact ⟨c, there, by simp [no_digit]⟩
  rw [parseUnsigned]
  split
  · rename_i digits sign
    have there : c ∈ digits := by
      rw [sign] at member
      exact (List.mem_cons.mp member).resolve_left no_sign
    simp [not_all digits there]
  · simp [not_all _ member]

end Text
