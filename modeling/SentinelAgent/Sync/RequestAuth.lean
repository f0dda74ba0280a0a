import Mathlib.Data.List.DropRight
import Mathlib.Data.List.Lex
import SentinelAgent.Library.EcmaScript

/-!
The body of a signed request: the JSON text the agent sends and signs, and what the platform signs
in its turn, the text it writes of what it has read.
-/
namespace SentinelAgent.RequestAuth
open Json EcmaScript Text

section Numbers

/- What the formatter makes of the size of a double: `{:e}`, `{:.*e}`, and whether a text is read
   as that double. -/
structure Formatter (F : Type) where
  scientific : F → List Char
  scientificAt : Nat → F → List Char
  parsesTo : List Char → F → Bool

def splitExponent (text : List Char) : List Char × List Char :=
  if 'e' ∈ text then (text.takeWhile (· ≠ 'e'), (text.dropWhile (· ≠ 'e')).drop 1)
  else (text, ['0'])

def parseI32 (text : List Char) : Option Int :=
  let signed := readSign text
  let size : Int := digitsValue signed.2
  let number := if signed.1 then -size else size
  if signed.2 ≠ [] ∧ signed.2.all Char.isDigit = true ∧ -2 ^ 31 ≤ number ∧ number < 2 ^ 31 then
    some number
  else none

def trimZeros (digits : List Char) : List Char := digits.rdropWhile (· = '0')

/- The digits with the point where it belongs, or with an exponent. -/
def jsBody (digits : List Char) (n : Int) : List Char :=
  let k : Int := digits.length
  if k ≤ n ∧ n ≤ 21 then digits ++ List.replicate (n - k).toNat '0'
  else if 0 < n ∧ n ≤ 21 then digits.take n.toNat ++ '.' :: digits.drop n.toNat
  else if -6 < n ∧ n ≤ 0 then '0' :: '.' :: (List.replicate (-n).toNat '0' ++ digits)
  else
    let e := n - 1
    let sign := if 0 ≤ e then '+' else '-'
    let fraction := if k = 1 then [] else '.' :: digits.drop 1
    digits.take 1 ++ fraction ++ 'e' :: sign :: e.natAbs.repr.toList

variable {F : Type} [DecidableEq F] (doubles : Doubles F) (formatter : Formatter F)

/- Of two digits as near the even one is taken, where it gives the same double. -/
def chosen (x : F) : List Char :=
  let shortest := formatter.scientific x
  let mantissa := (splitExponent shortest).1
  let precision := mantissa.length - if '.' ∈ mantissa then 2 else 1
  let even := formatter.scientificAt precision x
  if formatter.parsesTo even x then even else shortest

def jsNumber (x : F) : List Char :=
  if x = doubles.zero then ['0']
  else
    let parts := splitExponent (chosen formatter x)
    let trimmed := trimZeros (parts.1.filter (· ≠ '.'))
    let digits := if trimmed = [] then ['0'] else trimmed
    let body := jsBody digits ((parseI32 parts.2).getD 0 + 1)
    if doubles.negative x then '-' :: body else body

theorem jsBody_layout {digits : List Char} (nonempty : digits ≠ []) (n : Int) :
    jsBody digits n = layout digits n := by
  have length : 0 < digits.length := List.length_pos_iff.mpr nonempty
  unfold jsBody layout
  simp only
  by_cases plain : -5 ≤ n ∧ n ≤ 21
  · rw [if_pos plain]
    by_cases whole : (digits.length : Int) ≤ n
    · rw [if_pos ⟨whole, plain.2⟩, if_pos whole]
    · rw [if_neg fun both => whole both.1, if_neg whole]
      by_cases split : 0 < n
      · rw [if_pos ⟨split, plain.2⟩, if_pos split]
      · rw [if_neg fun both => split both.1, if_neg split, if_pos (by omega)]
  · rw [if_neg plain, if_neg (by omega), if_neg (by omega), if_neg (by omega)]
    have sign : (if 0 ≤ n - 1 then '+' else '-') = if n - 1 < 0 then '-' else '+' := by
      by_cases negative : n - 1 < 0
      · rw [if_pos negative, if_neg (by omega)]
      · rw [if_neg negative, if_pos (by omega)]
    rw [sign]
    by_cases single : digits.length = 1
    · rw [if_pos single, if_pos (by omega), List.append_nil, List.take_of_length_le (by omega)]
    · rw [if_neg single, if_neg (by omega), List.append_assoc]
      rfl

/- How the formatter writes digits with an exponent. -/
def scientificText (digits : List Char) (e : Int) : List Char :=
  let fraction := if digits.length = 1 then [] else '.' :: digits.drop 1
  let size := e.natAbs.repr.toList
  digits.take 1 ++ fraction ++ 'e' :: if e < 0 then '-' :: size else size

/- The digits chosen are those a script takes, maybe with zeros after them. -/
structure Agrees : Prop where
  chosen : ∀ x, x ≠ doubles.zero → ∃ zeros, chosen formatter x =
    scientificText (doubles.digits x ++ List.replicate zeros '0') (doubles.point x - 1)
  last : ∀ x, x ≠ doubles.zero → (doubles.digits x).getLast? ≠ some '0'
  range : ∀ x, x ≠ doubles.zero → -400 < doubles.point x ∧ doubles.point x < 400

theorem split_scientific {digits : List Char} (nonempty : digits ≠ [])
    (all : ∀ c ∈ digits, c.isDigit = true) (e : Int) :
    ∃ mantissa, mantissa.filter (· ≠ '.') = digits ∧ splitExponent (scientificText digits e) =
      (mantissa, if e < 0 then '-' :: e.natAbs.repr.toList else e.natAbs.repr.toList) := by
  have other : ∀ c ∈ digits, c ≠ '.' ∧ c ≠ 'e' := by
    intro c member
    have digit := all c member
    refine ⟨?_, ?_⟩
    · rintro rfl
      cases digit
    · rintro rfl
      cases digit
  have kept : ∀ part : List Char, (∀ c ∈ part, c ∈ digits) → part.filter (· ≠ '.') = part :=
    fun part within => List.filter_eq_self.mpr fun c member => by
      simpa using (other c (within c member)).1
  refine ⟨digits.take 1 ++ if digits.length = 1 then [] else '.' :: digits.drop 1, ?_, ?_⟩
  · rw [List.filter_append, kept _ fun c member => List.mem_of_mem_take member]
    split
    · rw [List.filter_nil, List.append_nil, List.take_of_length_le (by omega)]
    · rw [List.filter_cons_of_neg (by decide), kept _ fun c member => List.mem_of_mem_drop member,
        List.take_append_drop]
  · have no_mark : ∀ c ∈ digits.take 1 ++ (if digits.length = 1 then [] else '.' :: digits.drop 1),
        decide (c ≠ 'e') = true := by
      intro c member
      rw [decide_eq_true_eq]
      rcases List.mem_append.mp member with member | member
      · exact (other c (List.mem_of_mem_take member)).2
      · split at member
        · cases member
        · rcases List.mem_cons.mp member with rfl | member
          · decide
          · exact (other c (List.mem_of_mem_drop member)).2
    rw [splitExponent, scientificText, if_pos (by simp), List.takeWhile_append_of_pos no_mark,
      List.dropWhile_append_of_pos no_mark]
    simp

theorem parseI32_written {e : Int} (range : -400 ≤ e ∧ e < 400) :
    parseI32 (if e < 0 then '-' :: e.natAbs.repr.toList else e.natAbs.repr.toList) = some e := by
  have value : digitsValue e.natAbs.repr.toList = e.natAbs := by
    rw [digitsValue, Nat.toList_repr, Nat.ofDigitChars_ten_toDigits]
  have nonempty : e.natAbs.repr.toList ≠ [] := by
    rw [Nat.toList_repr]
    exact Nat.toDigits_ne_nil
  have digits := repr_digits e.natAbs
  have all : e.natAbs.repr.toList.all Char.isDigit = true := List.all_eq_true.mpr digits
  by_cases negative : e < 0
  · rw [if_pos negative]
    simp only [parseI32, readSign, value, if_true]
    rw [if_pos ⟨nonempty, all, by omega, by omega⟩]
    congr 1
    omega
  · rw [if_neg negative]
    have unsigned : readSign e.natAbs.repr.toList = (false, e.natAbs.repr.toList) := by
      unfold readSign
      split
      · rename_i shape
        exact absurd (digits '-' (by simp [shape])) (by decide)
      · rename_i shape
        exact absurd (digits '+' (by simp [shape])) (by decide)
      · rfl
    simp only [parseI32, unsigned, value, Bool.false_eq_true, if_false]
    rw [if_pos ⟨nonempty, all, by omega, by omega⟩]
    congr 1
    omega

theorem trimZeros_padded {digits : List Char} (last : digits.getLast? ≠ some '0') (zeros : Nat) :
    trimZeros (digits ++ List.replicate zeros '0') = digits := by
  induction zeros with
  | zero =>
    rw [List.replicate_zero, List.append_nil, trimZeros, List.rdropWhile_eq_self_iff]
    intro nonempty zero
    exact last (by rw [List.getLast?_eq_some_getLast nonempty, of_decide_eq_true zero])
  | succ zeros ih =>
    rw [List.replicate_succ', ← List.append_assoc, trimZeros,
      List.rdropWhile_concat_pos _ _ _ (by decide)]
    exact ih

variable {doubles formatter}

/-- The agent writes a number as a script does. -/
theorem jsNumber_eq (lawful : doubles.Lawful) (agrees : Agrees doubles formatter) (x : F) :
    jsNumber doubles formatter x = numberToString doubles x := by
  unfold jsNumber numberToString
  by_cases zero : x = doubles.zero
  · rw [if_pos zero, if_pos zero]
  · obtain ⟨zeros, written⟩ := agrees.chosen x zero
    obtain ⟨d, more, shape, _⟩ := lawful.first x zero
    have nonempty : doubles.digits x ≠ [] := by simp [shape]
    have range := agrees.range x zero
    obtain ⟨mantissa, filtered, parts⟩ := @split_scientific
      (doubles.digits x ++ List.replicate zeros '0') (by simp [nonempty])
      (fun c member => (List.mem_append.mp member).elim (lawful.digits x zero c)
        (zeros_digits zeros c)) (doubles.point x - 1)
    rw [if_neg zero, if_neg zero]
    simp only [written, parts, filtered, trimZeros_padded (agrees.last x zero), if_neg nonempty]
    rw [parseI32_written (by omega), Option.getD_some, Int.sub_add_cancel, jsBody_layout nonempty]

end Numbers

section Bodies

/- A key that is the text of a number of 32 bits other than the largest one. -/
def index (key : List Char) : Option Nat :=
  (parseUnsigned 32 (String.ofList key)).filter fun n =>
    decide (n ≠ 2 ^ 32 - 1) && n.repr == String.ofList key

def keyLe (a b : List Char) : Bool :=
  match index a, index b with
  | some i, some j => decide (i ≤ j)
  | some _, none => true
  | none, some _ => false
  | none, none => decide (a ≤ b)

def sortKeys {T : Type} (fields : List (List Char × T)) : List (List Char × T) :=
  fields.mergeSort fun p q => keyLe p.1 q.1

theorem sortKeys_map {S T : Type} (f : S → T) (fields : List (List Char × S)) :
    sortKeys (fields.map fun p => (p.1, f p.2)) = (sortKeys fields).map fun p => (p.1, f p.2) := by
  unfold sortKeys
  rw [List.map_mergeSort (s := fun p q => keyLe p.1 q.1)]
  exact fun p _ q _ => rfl

theorem index_arrayIndex (key : List Char) : index key = arrayIndex key := by
  by_cases decimal : key = (digitsValue key).repr.toList ∧ digitsValue key < 2 ^ 32 - 1
  · have text : String.ofList key = (digitsValue key).repr :=
      String.toList_inj.mp (String.toList_ofList.trans decimal.1)
    have other : digitsValue key ≠ 2 ^ 32 - 1 := Nat.ne_of_lt decimal.2
    rw [arrayIndex, if_pos decimal, index, text, parseUnsigned_repr (by omega), Option.filter_some]
    simpa using other
  · rw [arrayIndex, if_neg decimal, index, Option.filter_eq_none_iff]
    intro n read accepted
    rw [Bool.and_eq_true, decide_eq_true_eq, beq_iff_eq] at accepted
    have small := parseUnsigned_lt read
    have shape : key = n.repr.toList := by rw [accepted.2, String.toList_ofList]
    have value : digitsValue key = n := by
      rw [shape, digitsValue, Nat.toList_repr, Nat.ofDigitChars_ten_toDigits]
    have other := accepted.1
    exact decimal ⟨by rw [value]; exact shape, by omega⟩

theorem arrayIndex_repr {key : List Char} {i : Nat} (index : arrayIndex key = some i) :
    key = i.repr.toList := by
  rw [arrayIndex] at index
  split_ifs at index with decimal
  rw [← Option.some.inj index]
  exact decimal.1

theorem keyLe_total (a b : List Char) : (keyLe a b || keyLe b a) = true := by
  unfold keyLe
  cases index a <;> cases index b <;> simp [le_total]

theorem keyLe_trans (a b c : List Char) (first : keyLe a b = true) (second : keyLe b c = true) :
    keyLe a c = true := by
  unfold keyLe at *
  revert first second
  generalize index a = i, index b = j, index c = k
  intro first second
  rcases i with _ | i <;> rcases j with _ | j <;> rcases k with _ | k <;>
    simp only [decide_eq_true_eq, Bool.false_eq_true] at first second ⊢
  · exact le_trans first second
  · exact le_trans first second

theorem before_of_keyLe {a b : List Char} (le : keyLe a b = true) (different : a ≠ b) :
    Before a b := by
  rw [keyLe, index_arrayIndex, index_arrayIndex] at le
  unfold Before
  cases first : arrayIndex a with
  | none =>
    cases second : arrayIndex b with
    | none => exact different
    | some j => simp [first, second] at le
  | some i =>
    cases second : arrayIndex b with
    | none => trivial
    | some j =>
      simp only [first, second, decide_eq_true_eq] at le
      refine lt_of_le_of_ne le ?_
      rintro rfl
      exact different ((arrayIndex_repr first).trans (arrayIndex_repr second).symm)

theorem sortKeys_before {T : Type} {fields : List (List Char × T)}
    (distinct : (fields.map Prod.fst).Nodup) :
    (sortKeys fields).Pairwise fun p q => Before p.1 q.1 := by
  let le (p q : List Char × T) : Bool := keyLe p.1 q.1
  have trans : ∀ p q r, le p q = true → le q r = true → le p r = true :=
    fun p q r => keyLe_trans p.1 q.1 r.1
  have total : ∀ p q, (le p q || le q p) = true := fun p q => keyLe_total p.1 q.1
  have sorted := List.pairwise_mergeSort trans total fields
  have apart : ((sortKeys fields).map Prod.fst).Nodup :=
    ((List.mergeSort_perm fields _).map Prod.fst).nodup_iff.mpr distinct
  exact (sorted.and (List.pairwise_map.mp apart)).imp fun both => before_of_keyLe both.1 both.2

variable {F V : Type} (doubles : Doubles F) (asF64 : V → Option F)

mutual

/- No object has a key twice, as no map of values has. -/
def Distinct : Json V → Prop
  | .array items => DistinctItems items
  | .object fields => (fields.map Prod.fst).Nodup ∧ DistinctFields fields
  | _ => True

def DistinctItems : List (Json V) → Prop
  | [] => True
  | item :: items => Distinct item ∧ DistinctItems items

def DistinctFields : List (List Char × Json V) → Prop
  | [] => True
  | (_, value) :: fields => Distinct value ∧ DistinctFields fields

end

mutual

/- What the platform reads. -/
def received : Json V → Json F
  | .null => .null
  | .bool b => .bool b
  | .number n => .number ((asF64 n).getD doubles.zero)
  | .string s => .string s
  | .array items => .array (receivedItems items)
  | .object fields => .object (sortKeys (receivedFields fields))

def receivedItems : List (Json V) → List (Json F)
  | [] => []
  | item :: items => received item :: receivedItems items

def receivedFields : List (List Char × Json V) → List (List Char × Json F)
  | [] => []
  | (key, value) :: fields => (key, received value) :: receivedFields fields

end

theorem orderedFields_iff (fields : List (List Char × Json F)) :
    OrderedFields fields ↔ ∀ p ∈ fields, Ordered p.2 := by
  induction fields with
  | nil => simp [OrderedFields]
  | cons field fields ih => simp [OrderedFields, ih]

theorem receivedFields_keys (fields : List (List Char × Json V)) :
    (receivedFields doubles asF64 fields).map Prod.fst = fields.map Prod.fst := by
  induction fields with
  | nil => rfl
  | cons field fields ih => rw [receivedFields, List.map_cons, List.map_cons, ih]

mutual

theorem received_ordered : ∀ value : Json V, Distinct value →
    Ordered (received doubles asF64 value)
  | .null, _ => trivial
  | .bool _, _ => trivial
  | .number _, _ => trivial
  | .string _, _ => trivial
  | .array items, distinct => receivedItems_ordered items distinct
  | .object fields, distinct => by
    refine ⟨sortKeys_before ?_, ?_⟩
    · rw [receivedFields_keys]
      exact distinct.1
    · rw [orderedFields_iff]
      intro p member
      exact (orderedFields_iff _).mp (receivedFields_ordered fields distinct.2) p
        ((List.mergeSort_perm _ _).mem_iff.mp member)

theorem receivedItems_ordered : ∀ items : List (Json V), DistinctItems items →
    OrderedItems (receivedItems doubles asF64 items)
  | [], _ => trivial
  | item :: items, distinct =>
    ⟨received_ordered item distinct.1, receivedItems_ordered items distinct.2⟩

theorem receivedFields_ordered : ∀ fields : List (List Char × Json V), DistinctFields fields →
    OrderedFields (receivedFields doubles asF64 fields)
  | [], _ => trivial
  | (_, value) :: fields, distinct =>
    ⟨received_ordered value distinct.1, receivedFields_ordered fields distinct.2⟩

end

variable [DecidableEq F] (formatter : Formatter F)

mutual

def serverJson : Json V → List Char
  | .null => "null".toList
  | .bool true => "true".toList
  | .bool false => "false".toList
  | .number n => jsNumber doubles formatter ((asF64 n).getD doubles.zero)
  | .string s => quote s
  | .array items => '[' :: ([','].intercalate (serverItems items) ++ [']'])
  | .object fields =>
    let entries := (sortKeys (serverFields fields)).map fun entry => quote entry.1 ++ ':' :: entry.2
    '{' :: ([','].intercalate entries ++ ['}'])

def serverItems : List (Json V) → List (List Char)
  | [] => []
  | item :: items => serverJson item :: serverItems items

def serverFields : List (List Char × Json V) → List (List Char × List Char)
  | [] => []
  | (key, value) :: fields => (key, serverJson value) :: serverFields fields

end

theorem textItems_intercalate {N : Type} (numberText : N → List Char) (items : List (Json N)) :
    textItems numberText items = [','].intercalate (items.map (text numberText)) := by
  induction items with
  | nil => rfl
  | cons item items ih =>
    cases items with
    | nil => simp [textItems]
    | cons next items =>
      rw [textItems, ih]
      · simp [List.intercalate]
      · simp

theorem textFields_intercalate {N : Type} (numberText : N → List Char)
    (fields : List (List Char × Json N)) : textFields numberText fields =
      [','].intercalate (fields.map fun p => quote p.1 ++ ':' :: text numberText p.2) := by
  induction fields with
  | nil => rfl
  | cons field fields ih =>
    obtain ⟨key, value⟩ := field
    cases fields with
    | nil => simp [textFields]
    | cons next fields =>
      rw [textFields, ih]
      · simp [List.intercalate]
      · simp

variable {doubles formatter}

mutual

/-- The agent writes the value the platform reads, its keys in order. -/
theorem serverJson_text
    (same : ∀ x, jsNumber doubles formatter x = numberToString doubles x) :
    ∀ value : Json V, serverJson doubles asF64 formatter value =
    text (numberToString doubles) (received doubles asF64 value)
  | .null => rfl
  | .bool true => rfl
  | .bool false => rfl
  | .number n => same _
  | .string _ => rfl
  | .array items => by
    rw [serverJson, serverItems_text same items, received, text, textItems_intercalate]
  | .object fields => by
    rw [serverJson, serverFields_text same fields, received, text, textFields_intercalate,
      sortKeys_map, List.map_map]
    rfl

theorem serverItems_text
    (same : ∀ x, jsNumber doubles formatter x = numberToString doubles x) :
    ∀ items : List (Json V), serverItems doubles asF64 formatter items =
    (receivedItems doubles asF64 items).map (text (numberToString doubles))
  | [] => rfl
  | item :: items => by
    rw [serverItems, receivedItems, List.map_cons, serverJson_text same item,
      serverItems_text same items]

theorem serverFields_text
    (same : ∀ x, jsNumber doubles formatter x = numberToString doubles x) :
    ∀ fields : List (List Char × Json V),
    serverFields doubles asF64 formatter fields = (receivedFields doubles asF64 fields).map
      fun p => (p.1, text (numberToString doubles) p.2)
  | [] => rfl
  | (key, value) :: fields => by
    rw [serverFields, receivedFields, List.map_cons, serverJson_text same value,
      serverFields_text same fields]

end

/- Doubles of one digit. -/
def digitDoubles : Doubles (Fin 10) where
  zero := 0
  negative _ := false
  digits d := d.val.repr.toList
  point _ := 1
  nearest _ n e :=
    ((List.finRange 10).find? fun d => n * 10 ^ e.toNat == d.val * 10 ^ (-e).toNat).getD 0

def digitFormatter : Formatter (Fin 10) where
  scientific d := d.val.repr.toList ++ "e0".toList
  scientificAt _ d := d.val.repr.toList ++ "e0".toList
  parsesTo _ _ := true

theorem digitDoubles_value : ∀ x : Fin 10, digitsValue (digitDoubles.digits x) = x ∧
    (digitDoubles.digits x).length = 1 := by decide

theorem digitDoubles_nearest {x : Fin 10} {n : Nat} {e : Int}
    (same : n * 10 ^ e.toNat = x.val * 10 ^ (-e).toNat) (b : Bool) :
    digitDoubles.nearest b n e = x := by
  have candidate : (n * 10 ^ e.toNat == x.val * 10 ^ (-e).toNat) = true := beq_iff_eq.mpr same
  unfold digitDoubles
  simp only
  cases found : (List.finRange 10).find? fun d => n * 10 ^ e.toNat == d.val * 10 ^ (-e).toNat with
  | none => exact absurd candidate (List.find?_eq_none.mp found x (List.mem_finRange x))
  | some d =>
    have also : (n * 10 ^ e.toNat == d.val * 10 ^ (-e).toNat) = true := by
      simpa using List.find?_some found
    have scaled : d.val * 10 ^ (-e).toNat = x.val * 10 ^ (-e).toNat :=
      (beq_iff_eq.mp also).symm.trans same
    exact Fin.ext (Nat.eq_of_mul_eq_mul_right (Nat.pow_pos (by decide)) scaled)

theorem digitDoubles_lawful : digitDoubles.Lawful where
  first x other := by
    refine ⟨(digitDoubles.digits x).head!, (digitDoubles.digits x).tail, ?_⟩
    revert x
    decide
  digits := by decide
  zero := digitDoubles_nearest rfl false
  nearest x _ n e same := by
    refine digitDoubles_nearest ?_ _
    have point : digitDoubles.point x = 1 := rfl
    rw [SameDecimal, (digitDoubles_value x).1, (digitDoubles_value x).2, point] at same
    simpa using same

theorem digitFormatter_agrees : Agrees digitDoubles digitFormatter where
  chosen x other := by
    refine ⟨0, ?_⟩
    revert x
    decide
  last := by decide
  range x _ := by
    have point : digitDoubles.point x = 1 := rfl
    omega

/- `{"b":[1,"é"],"10":2,"2":0}` -/
def exampleBody : Json (Fin 10) :=
  .object [("b".toList, .array [.number 1, .string "é".toList]), ("10".toList, .number 2),
    ("2".toList, .number 0)]

end Bodies

end SentinelAgent.RequestAuth
