import SentinelAgent.Library.JsonRead
import SentinelAgent.Library.Text

/-!
JSON as a script reads and writes it (`JSON.parse`, `JSON.stringify`): how the digits of a number
are laid out, and the order in which an object gives its properties. The doubles, their shortest
digits and the double nearest to a decimal number are parameters.
-/
namespace EcmaScript
open Json

section Numbers

/- `Number::toString` from the digits on: so many of them stand before the point. -/
def layout (digits : List Char) (point : Int) : List Char :=
  let count : Int := digits.length
  if -5 ≤ point ∧ point ≤ 21 then
    if count ≤ point then digits ++ List.replicate (point - count).toNat '0'
    else if 0 < point then digits.take point.toNat ++ '.' :: digits.drop point.toNat
    else '0' :: '.' :: (List.replicate (-point).toNat '0' ++ digits)
  else
    let exponent := (if point - 1 < 0 then '-' else '+') :: (point - 1).natAbs.repr.toList
    if digits.length = 1 then digits ++ 'e' :: exponent
    else digits.take 1 ++ '.' :: (digits.drop 1 ++ 'e' :: exponent)

/- The finite doubles. The two zeros are written alike and count as one. -/
structure Doubles (F : Type) where
  zero : F
  negative : F → Bool
  digits : F → List Char
  point : F → Int
  nearest : Bool → Nat → Int → F

def digitsValue (digits : List Char) : Nat := Nat.ofDigitChars 10 digits 0

/- Two ways to write one decimal number, each a whole number and a power of ten. -/
def SameDecimal (n : Nat) (e : Int) (m : Nat) (f : Int) : Prop :=
  n * 10 ^ (e - f).toNat = m * 10 ^ (f - e).toNat

/- What the shortest digits of a double are: its own decimal number, from the first digit that
   counts. -/
structure Doubles.Lawful {F : Type} (doubles : Doubles F) : Prop where
  first : ∀ x, x ≠ doubles.zero → ∃ d rest, doubles.digits x = d :: rest ∧ d ≠ '0'
  digits : ∀ x, x ≠ doubles.zero → ∀ c ∈ doubles.digits x, c.isDigit = true
  nearest : ∀ x, x ≠ doubles.zero → ∀ n e, SameDecimal n e (digitsValue (doubles.digits x))
    (doubles.point x - (doubles.digits x).length) → doubles.nearest (doubles.negative x) n e = x
  zero : doubles.nearest false 0 0 = doubles.zero

variable {F : Type} [DecidableEq F] (doubles : Doubles F)

def numberToString (x : F) : List Char :=
  if x = doubles.zero then ['0']
  else
    let magnitude := layout (doubles.digits x) (doubles.point x)
    if doubles.negative x then '-' :: magnitude else magnitude

/- The digits at the start of a text. -/
def readDigits (text : List Char) : List Char × List Char :=
  (text.takeWhile Char.isDigit, text.dropWhile Char.isDigit)

def readFraction : List Char → List Char × List Char
  | '.' :: rest => if (readDigits rest).1 = [] then ([], '.' :: rest) else readDigits rest
  | rest => ([], rest)

def readSign : List Char → Bool × List Char
  | '-' :: rest => (true, rest)
  | '+' :: rest => (false, rest)
  | rest => (false, rest)

def readExponent : List Char → Int × List Char
  | c :: rest =>
    if c = 'e' ∨ c = 'E' then
      let negative := (readSign rest).1
      let digits := readDigits (readSign rest).2
      if digits.1 = [] then (0, c :: rest)
      else
        let value : Int := digitsValue digits.1
        (if negative then -value else value, digits.2)
    else (0, c :: rest)
  | [] => (0, [])

/- A number without its sign: no zero stands before its other digits. -/
def readMagnitude (text : List Char) : Option (Nat × Int × List Char) :=
  let whole := readDigits text
  let fraction := readFraction whole.2
  let exponent := readExponent fraction.2
  if whole.1 = [] ∨ (whole.1.head? = some '0' ∧ whole.1.length ≠ 1) then none
  else
    some (digitsValue (whole.1 ++ fraction.1), exponent.1 - fraction.1.length, exponent.2)

def readNumber : List Char → Option (F × List Char)
  | '-' :: text =>
    (readMagnitude text).map fun read => (doubles.nearest true read.1 read.2.1, read.2.2)
  | text => (readMagnitude text).map fun read => (doubles.nearest false read.1 read.2.1, read.2.2)

/- What stands after a number does not belong to it. -/
structure Stops (rest : List Char) : Prop where
  digit : ∀ c more, rest = c :: more → c.isDigit = false
  point : ∀ more, rest ≠ '.' :: more
  exponent : ∀ c more, rest = c :: more → ¬ (c = 'e' ∨ c = 'E')

theorem readDigits_append {digits rest : List Char} (all : ∀ c ∈ digits, c.isDigit = true)
    (stops : ∀ c more, rest = c :: more → c.isDigit = false) :
    readDigits (digits ++ rest) = (digits, rest) := by
  have none_left : rest.takeWhile Char.isDigit = [] ∧ rest.dropWhile Char.isDigit = rest := by
    cases rest with
    | nil => exact ⟨rfl, rfl⟩
    | cons c more =>
      have other := stops c more rfl
      simp [other]
  rw [readDigits, List.takeWhile_append_of_pos all, List.dropWhile_append_of_pos all, none_left.1,
    none_left.2, List.append_nil]

theorem readFraction_none {rest : List Char} (point : ∀ more, rest ≠ '.' :: more) :
    readFraction rest = ([], rest) := by
  unfold readFraction
  split
  · exact absurd rfl (point _)
  · rfl

theorem readExponent_none {rest : List Char}
    (exponent : ∀ c more, rest = c :: more → ¬ (c = 'e' ∨ c = 'E')) :
    readExponent rest = (0, rest) := by
  cases rest with
  | nil => rfl
  | cons c more => rw [readExponent, if_neg (exponent c more rfl)]

theorem readExponent_written {rest : List Char} (stops : Stops rest) (e : Int) :
    readExponent ('e' :: (((if e < 0 then '-' else '+') :: e.natAbs.repr.toList) ++ rest)) =
      (e, rest) := by
  have digits := Text.repr_digits e.natAbs
  have read := readDigits_append digits stops.digit
  have some_digit : e.natAbs.repr.toList ≠ [] := by
    rw [Nat.toList_repr]
    exact Nat.toDigits_ne_nil
  have value : digitsValue e.natAbs.repr.toList = e.natAbs := by
    rw [digitsValue, Nat.toList_repr, Nat.ofDigitChars_ten_toDigits]
  have sign : readSign (((if e < 0 then '-' else '+') :: e.natAbs.repr.toList) ++ rest) =
      (decide (e < 0), e.natAbs.repr.toList ++ rest) := by
    by_cases negative : e < 0
    · simp only [negative, if_true, List.cons_append, decide_true, readSign]
    · simp only [negative, if_false, List.cons_append, decide_false, readSign]
  rw [readExponent, if_pos (Or.inl rfl), sign]
  simp only [read, value, if_neg some_digit, decide_eq_true_eq]
  congr 1
  split <;> omega

theorem readFraction_digits {digits rest : List Char} (nonempty : digits ≠ [])
    (all : ∀ c ∈ digits, c.isDigit = true)
    (stops : ∀ c more, rest = c :: more → c.isDigit = false) :
    readFraction ('.' :: (digits ++ rest)) = (digits, rest) := by
  rw [readFraction, readDigits_append all stops, if_neg nonempty]

theorem not_digit_point (rest : List Char) :
    ∀ c more, '.' :: rest = c :: more → c.isDigit = false := by
  rintro c more ⟨⟩
  decide

theorem not_digit_exponent (rest : List Char) :
    ∀ c more, 'e' :: rest = c :: more → c.isDigit = false := by
  rintro c more ⟨⟩
  decide

theorem not_point_exponent (rest : List Char) : ∀ more, 'e' :: rest ≠ '.' :: more := by
  intro more same
  cases same

theorem sameDecimal_rfl (n : Nat) {e f : Int} (same : e = f) : SameDecimal n e n f := by
  rw [SameDecimal, same]

theorem readMagnitude_parts {text whole fraction second third rest : List Char} {e : Int}
    (read : readDigits text = (whole, second)) (after : readFraction second = (fraction, third))
    (power : readExponent third = (e, rest)) (nonempty : whole ≠ [])
    (leading : whole.head? = some '0' → whole.length = 1) :
    readMagnitude text = some (digitsValue (whole ++ fraction), e - fraction.length, rest) := by
  have proper : ¬ (whole = [] ∨ (whole.head? = some '0' ∧ whole.length ≠ 1)) := by
    rintro (empty | zero)
    · exact nonempty empty
    · exact zero.2 (leading zero.1)
  simp only [readMagnitude, read, after, power]
  rw [if_neg proper]

theorem zeros_digits (n : Nat) : ∀ c ∈ List.replicate n '0', c.isDigit = true := by
  intro c member
  rw [List.eq_of_mem_replicate member]
  decide

section Layout
variable {digits rest : List Char} (stops : Stops rest)
  (first : ∃ d more, digits = d :: more ∧ d ≠ '0') (all : ∀ c ∈ digits, c.isDigit = true)

include stops first all

theorem read_whole (zeros : Nat) :
    readMagnitude (digits ++ List.replicate zeros '0' ++ rest) =
      some (digitsValue digits * 10 ^ zeros, 0, rest) := by
  obtain ⟨d, more, shape, leading⟩ := first
  have read := @readDigits_append _ rest
    (fun c member => (List.mem_append.mp member).elim (all c) (zeros_digits zeros c)) stops.digit
  have padded : digitsValue (digits ++ List.replicate zeros '0' ++ []) =
      digitsValue digits * 10 ^ zeros := by
    rw [List.append_nil, digitsValue, Nat.ofDigitChars_append, Nat.ofDigitChars_replicate_zero,
      Nat.mul_comm]
    rfl
  rw [readMagnitude_parts read (readFraction_none stops.point) (readExponent_none stops.exponent)
    (by simp [shape]) (by simp [shape, leading]), padded]
  rfl

theorem read_split {before : Nat} (some_before : 0 < before) (some_after : before < digits.length) :
    readMagnitude (digits.take before ++ '.' :: (digits.drop before ++ rest)) =
      some (digitsValue digits, (before : Int) - digits.length, rest) := by
  obtain ⟨d, more, shape, leading⟩ := first
  have read := @readDigits_append (digits.take before) _
    (fun c member => all c (List.mem_of_mem_take member))
    (not_digit_point (digits.drop before ++ rest))
  have left : digits.drop before ≠ [] := by
    rw [ne_eq, List.drop_eq_nil_iff]
    omega
  have after := readFraction_digits left (fun c member => all c (List.mem_of_mem_drop member))
    stops.digit
  obtain ⟨k, rfl⟩ : ∃ k, before = k + 1 := ⟨before - 1, by omega⟩
  rw [readMagnitude_parts read after (readExponent_none stops.exponent) (by simp [shape])
    (by simp [shape, leading]), List.take_append_drop, List.length_drop]
  congr 3
  omega

theorem read_small (zeros : Nat) :
    readMagnitude ('0' :: '.' :: (List.replicate zeros '0' ++ digits ++ rest)) =
      some (digitsValue digits, -((zeros : Int) + digits.length), rest) := by
  obtain ⟨d, more, shape, _⟩ := first
  have read := @readDigits_append ['0'] _ (by decide)
    (not_digit_point (List.replicate zeros '0' ++ digits ++ rest))
  have after := @readFraction_digits (List.replicate zeros '0' ++ digits) rest
    (by simp [shape])
    (fun c member => (List.mem_append.mp member).elim (zeros_digits zeros c) (all c)) stops.digit
  have padded : digitsValue (['0'] ++ (List.replicate zeros '0' ++ digits)) =
      digitsValue digits := by
    rw [digitsValue, Nat.ofDigitChars_append, Nat.ofDigitChars_append,
      Nat.ofDigitChars_replicate_zero]
    rfl
  rw [← List.singleton_append, readMagnitude_parts read after (readExponent_none stops.exponent)
    (by simp) (fun _ => rfl), padded, List.length_append, List.length_replicate]
  congr 3
  omega

theorem read_single (single : digits.length = 1) (e : Int) :
    readMagnitude (digits ++ 'e' ::
        (((if e < 0 then '-' else '+') :: e.natAbs.repr.toList) ++ rest)) =
      some (digitsValue digits, e, rest) := by
  obtain ⟨d, more, shape, _⟩ := first
  rw [readMagnitude_parts (readDigits_append all (not_digit_exponent _))
    (readFraction_none (not_point_exponent _)) (readExponent_written stops e) (by simp [shape])
    (fun _ => single), List.append_nil]
  congr 3
  simp

theorem read_scientific (several : digits.length ≠ 1) (e : Int) :
    readMagnitude (digits.take 1 ++ '.' :: (digits.drop 1 ++ 'e' ::
        (((if e < 0 then '-' else '+') :: e.natAbs.repr.toList) ++ rest))) =
      some (digitsValue digits, e + 1 - digits.length, rest) := by
  obtain ⟨d, more, shape, leading⟩ := first
  have read := @readDigits_append (digits.take 1) _
    (fun c member => all c (List.mem_of_mem_take member))
    (not_digit_point (digits.drop 1 ++ 'e' ::
      (((if e < 0 then '-' else '+') :: e.natAbs.repr.toList) ++ rest)))
  have length : 0 < digits.length := by simp [shape]
  have left : digits.drop 1 ≠ [] := by
    rw [ne_eq, List.drop_eq_nil_iff]
    omega
  have after := readFraction_digits left (fun c member => all c (List.mem_of_mem_drop member))
    (not_digit_exponent (((if e < 0 then '-' else '+') :: e.natAbs.repr.toList) ++ rest))
  rw [readMagnitude_parts read after (readExponent_written stops e) (by simp [shape])
    (by simp [shape, leading]), List.take_append_drop, List.length_drop]
  congr 3
  omega

/-- A laid out number is read as the decimal number it stands for. -/
theorem readMagnitude_layout (point : Int) :
    ∃ n e, readMagnitude (layout digits point ++ rest) = some (n, e, rest) ∧
      SameDecimal n e (digitsValue digits) (point - digits.length) := by
  have length : 0 < digits.length := by
    obtain ⟨d, more, shape, _⟩ := first
    simp [shape]
  unfold layout
  by_cases plain : -5 ≤ point ∧ point ≤ 21
  · rw [if_pos plain]
    by_cases whole : (digits.length : Int) ≤ point
    · rw [if_pos whole]
      refine ⟨_, _, read_whole stops first all _, ?_⟩
      have shift : (0 - (point - digits.length)).toNat = 0 := by omega
      have shift' : (point - digits.length - 0).toNat = (point - digits.length).toNat := by omega
      rw [SameDecimal, shift, shift', Nat.pow_zero, Nat.mul_one]
    · rw [if_neg whole]
      by_cases split : 0 < point
      · rw [if_pos split, List.append_assoc, List.cons_append]
        refine ⟨_, _, read_split stops first all (by omega) (by omega), sameDecimal_rfl _ ?_⟩
        omega
      · rw [if_neg split, List.cons_append, List.cons_append]
        refine ⟨_, _, read_small stops first all _, sameDecimal_rfl _ ?_⟩
        omega
  · rw [if_neg plain]
    by_cases single : digits.length = 1
    · simp only [single, if_true, List.append_assoc, List.cons_append]
      refine ⟨_, _, read_single stops first all single (point - 1), sameDecimal_rfl _ ?_⟩
      omega
    · simp only [single, if_false, List.append_assoc, List.cons_append]
      refine ⟨_, _, read_scientific stops first all single (point - 1), sameDecimal_rfl _ ?_⟩
      omega

end Layout

variable {doubles}

theorem stops_of_ends {rest : List Char} (ends : Ends rest) : Stops rest := by
  rcases ends with rfl | ⟨c, more, rfl, rfl | rfl | rfl⟩
  · exact ⟨fun _ _ same => (nomatch same), fun _ same => (nomatch same),
      fun _ _ same => (nomatch same)⟩
  all_goals
    refine ⟨?_, ?_, ?_⟩
    · rintro c more ⟨⟩
      decide
    · rintro more ⟨⟩
    · rintro c more ⟨⟩
      decide

theorem layout_head {digits : List Char} (first : ∃ d more, digits = d :: more ∧ d ≠ '0')
    (all : ∀ c ∈ digits, c.isDigit = true) (point : Int) :
    ∃ c more, layout digits point = c :: more ∧ c.isDigit = true := by
  obtain ⟨d, more, rfl, _⟩ := first
  have digit := all d List.mem_cons_self
  unfold layout
  simp only
  split_ifs with plain whole split single
  · exact ⟨d, _, rfl, digit⟩
  · obtain ⟨k, shift⟩ : ∃ k, point.toNat = k + 1 := ⟨point.toNat - 1, by omega⟩
    rw [shift]
    exact ⟨d, _, rfl, digit⟩
  · exact ⟨'0', _, rfl, by decide⟩
  all_goals exact ⟨d, _, rfl, digit⟩

omit [DecidableEq F] in
theorem readNumber_digit {c : Char} (digit : c.isDigit = true) (text : List Char) :
    readNumber doubles (c :: text) = (readMagnitude (c :: text)).map fun read =>
      (doubles.nearest false read.1 read.2.1, read.2.2) := by
  have sign : c ≠ '-' := by
    rintro rfl
    cases digit
  unfold readNumber
  split
  · exact absurd (List.cons.inj ‹_›).1 sign
  · rfl

/-- Every double is read as it was written. -/
theorem numbers_read (lawful : doubles.Lawful) :
    Numbers (readNumber doubles) (numberToString doubles) where
  reads x rest ends := by
    have stops := stops_of_ends ends
    by_cases zero : x = doubles.zero
    · have read := readMagnitude_parts (@readDigits_append ['0'] _ (by decide) stops.digit)
        (readFraction_none stops.point) (readExponent_none stops.exponent) (by decide)
        (fun _ => rfl)
      rw [List.singleton_append] at read
      rw [numberToString, if_pos zero, List.singleton_append, readNumber_digit (by decide), read,
        zero]
      exact congrArg (fun x => some (x, rest)) lawful.zero
    · obtain ⟨n, e, read, same⟩ := readMagnitude_layout stops (lawful.first x zero)
        (lawful.digits x zero) (doubles.point x)
      have found := lawful.nearest x zero n e same
      obtain ⟨c, more, shape, digit⟩ :=
        layout_head (lawful.first x zero) (lawful.digits x zero) (doubles.point x)
      rw [numberToString, if_neg zero]
      simp only
      by_cases negative : doubles.negative x = true
      · rw [if_pos negative, List.cons_append, readNumber, read]
        rw [negative] at found
        exact congrArg (fun x => some (x, rest)) found
      · rw [Bool.not_eq_true] at negative
        rw [negative] at found
        rw [negative, if_neg (by decide)]
        rw [shape, List.cons_append] at read ⊢
        rw [readNumber_digit digit, read]
        exact congrArg (fun x => some (x, rest)) found
  starts x := by
    by_cases zero : x = doubles.zero
    · exact ⟨'0', [], by rw [numberToString, if_pos zero], Or.inr (by decide)⟩
    · obtain ⟨c, more, shape, digit⟩ :=
        layout_head (lawful.first x zero) (lawful.digits x zero) (doubles.point x)
      rw [numberToString, if_neg zero]
      simp only
      split
      · exact ⟨'-', _, rfl, Or.inl rfl⟩
      · exact ⟨c, more, shape, Or.inr digit⟩

end Numbers

section Objects

/- A key that is the decimal text of an index of an array. -/
def arrayIndex (key : List Char) : Option Nat :=
  let n := digitsValue key
  if key = n.repr.toList ∧ n < 2 ^ 32 - 1 then some n else none

variable {J : Type}

/- A property that is there already takes the new value in its place. -/
def setProperty (properties : List (List Char × J)) (property : List Char × J) :
    List (List Char × J) :=
  if properties.any fun p => p.1 == property.1 then
    properties.map fun p => if p.1 = property.1 then property else p
  else properties ++ [property]

def properties (fields : List (List Char × J)) : List (List Char × J) :=
  fields.foldl setProperty []

/- The properties as an object gives them: those of an array by their index, the others as they
   came. -/
def enumerate (properties : List (List Char × J)) : List (List Char × J) :=
  ((properties.filter fun p => (arrayIndex p.1).isSome).mergeSort fun p q =>
      decide ((arrayIndex p.1).getD 0 ≤ (arrayIndex q.1).getD 0)) ++
    properties.filter fun p => (arrayIndex p.1).isNone

/- Two keys that stand in the order in which an object gives them. -/
def Before (a b : List Char) : Prop :=
  match arrayIndex a, arrayIndex b with
  | some i, some j => i < j
  | some _, none => True
  | none, some _ => False
  | none, none => a ≠ b

theorem before_ne {a b : List Char} (before : Before a b) : a ≠ b := by
  rintro rfl
  unfold Before at before
  cases index : arrayIndex a with
  | none => simp [index] at before
  | some i => simp [index] at before

theorem properties_distinct {fields : List (List Char × J)}
    (distinct : (fields.map Prod.fst).Nodup) : properties fields = fields := by
  have grown : ∀ before : List (List Char × J), ((before ++ fields).map Prod.fst).Nodup →
      fields.foldl setProperty before = before ++ fields := by
    clear distinct
    induction fields with
    | nil => exact fun before _ => (List.append_nil before).symm
    | cons field fields ih =>
      intro before distinct
      have absent : (before.any fun p => p.1 == field.1) = false := by
        rw [List.any_eq_false]
        intro p member same
        rw [List.map_append, List.nodup_append] at distinct
        exact distinct.2.2 _ (List.mem_map_of_mem member) _ List.mem_cons_self (beq_iff_eq.mp same)
      rw [List.foldl_cons, setProperty, absent, if_neg (by decide), ih _ (by simpa using distinct)]
      simp
  exact grown [] (by simpa using distinct)

theorem before_indices {a b : List Char} (before : Before a b)
    (first : (arrayIndex a).isSome = true) (second : (arrayIndex b).isSome = true) :
    (arrayIndex a).getD 0 ≤ (arrayIndex b).getD 0 := by
  obtain ⟨i, index⟩ := Option.isSome_iff_exists.mp first
  obtain ⟨j, index'⟩ := Option.isSome_iff_exists.mp second
  simp only [Before, index, index'] at before
  simp only [index, index', Option.getD_some]
  omega

theorem before_none {a b : List Char} (before : Before a b) (first : arrayIndex a = none) :
    arrayIndex b = none := by
  cases index : arrayIndex b with
  | none => rfl
  | some j => simp [Before, first, index] at before

theorem indices_first {fields : List (List Char × J)}
    (ordered : fields.Pairwise fun p q => Before p.1 q.1) :
    (fields.filter fun p => (arrayIndex p.1).isSome) ++
      (fields.filter fun p => (arrayIndex p.1).isNone) = fields := by
  induction fields with
  | nil => rfl
  | cons field fields ih =>
    obtain ⟨first, rest⟩ := List.pairwise_cons.mp ordered
    cases index : arrayIndex field.1 with
    | some i =>
      rw [List.filter_cons_of_pos (by simp [index]), List.filter_cons_of_neg (by simp [index]),
        List.cons_append, ih rest]
    | none =>
      have others : ∀ q ∈ fields, arrayIndex q.1 = none :=
        fun q member => before_none (first q member) index
      rw [List.filter_eq_nil_iff.mpr, List.nil_append, List.filter_eq_self.mpr]
      · intro q member
        rcases List.mem_cons.mp member with rfl | member
        · simp [index]
        · simp [others q member]
      · intro q member
        rcases List.mem_cons.mp member with rfl | member
        · simp [index]
        · simp [others q member]

/-- An object gives properties in order as they came. -/
theorem enumerate_ordered {fields : List (List Char × J)}
    (ordered : fields.Pairwise fun p q => Before p.1 q.1) : enumerate fields = fields := by
  have sorted : (fields.filter fun p => (arrayIndex p.1).isSome).Pairwise fun p q =>
      decide ((arrayIndex p.1).getD 0 ≤ (arrayIndex q.1).getD 0) = true := by
    refine (ordered.filter _).imp_of_mem fun {p q} member member' before => ?_
    rw [decide_eq_true_eq]
    exact before_indices before (List.mem_filter.mp member).2 (List.mem_filter.mp member').2
  rw [enumerate, List.mergeSort_of_pairwise sorted, indices_first ordered]

theorem properties_ordered {fields : List (List Char × J)}
    (ordered : fields.Pairwise fun p q => Before p.1 q.1) : properties fields = fields :=
  properties_distinct (List.pairwise_map.mpr (ordered.imp before_ne))

end Objects

section Values
variable {F : Type}

mutual

/- Every object of a value with its properties gone through by a function. -/
def rebuild (f : List (List Char × Json F) → List (List Char × Json F)) : Json F → Json F
  | .null => .null
  | .bool b => .bool b
  | .number x => .number x
  | .string s => .string s
  | .array items => .array (rebuildItems f items)
  | .object fields => .object (f (rebuildFields f fields))

def rebuildItems (f : List (List Char × Json F) → List (List Char × Json F)) :
    List (Json F) → List (Json F)
  | [] => []
  | item :: items => rebuild f item :: rebuildItems f items

def rebuildFields (f : List (List Char × Json F) → List (List Char × Json F)) :
    List (List Char × Json F) → List (List Char × Json F)
  | [] => []
  | (key, value) :: fields => (key, rebuild f value) :: rebuildFields f fields

end

mutual

/- Every object has its properties in the order in which it gives them. -/
def Ordered : Json F → Prop
  | .array items => OrderedItems items
  | .object fields => (fields.Pairwise fun p q => Before p.1 q.1) ∧ OrderedFields fields
  | _ => True

def OrderedItems : List (Json F) → Prop
  | [] => True
  | item :: items => Ordered item ∧ OrderedItems items

def OrderedFields : List (List Char × Json F) → Prop
  | [] => True
  | (_, value) :: fields => Ordered value ∧ OrderedFields fields

end

section
variable {f : List (List Char × Json F) → List (List Char × Json F)}
  (kept : ∀ fields, (fields.Pairwise fun p q => Before p.1 q.1) → f fields = fields)
include kept

mutual

theorem rebuild_ordered : ∀ value : Json F, Ordered value → rebuild f value = value
  | .null, _ => rfl
  | .bool _, _ => rfl
  | .number _, _ => rfl
  | .string _, _ => rfl
  | .array items, ordered => congrArg Json.array (rebuildItems_ordered items ordered)
  | .object fields, ordered => by
    rw [rebuild, rebuildFields_ordered fields ordered.2, kept fields ordered.1]

theorem rebuildItems_ordered : ∀ items : List (Json F), OrderedItems items →
    rebuildItems f items = items
  | [], _ => rfl
  | item :: items, ordered => by
    rw [rebuildItems, rebuild_ordered item ordered.1, rebuildItems_ordered items ordered.2]

theorem rebuildFields_ordered : ∀ fields : List (List Char × Json F), OrderedFields fields →
    rebuildFields f fields = fields
  | [], _ => rfl
  | (key, value) :: fields, ordered => by
    rw [rebuildFields, rebuild_ordered value ordered.1, rebuildFields_ordered fields ordered.2]

end

end

variable [DecidableEq F] (doubles : Doubles F)

/- `JSON.parse`. -/
def parse (text : List Char) : Option (Json F) :=
  (read (readNumber doubles) text).map (rebuild properties)

/- `JSON.stringify`. -/
def stringify (value : Json F) : List Char :=
  text (numberToString doubles) (rebuild enumerate value)

/- `QuoteJSONString`: some characters have an escape of their own, other control characters are
   given by their number. -/
def escapeJsonChar (c : Char) : List Char :=
  if c = '\x08' then ['\\', 'b']
  else if c = '\t' then ['\\', 't']
  else if c = '\n' then ['\\', 'n']
  else if c = '\x0c' then ['\\', 'f']
  else if c = '\r' then ['\\', 'r']
  else if c = '"' then ['\\', '"']
  else if c = '\\' then ['\\', '\\']
  else if c.toNat < 32 then
    ['\\', 'u', '0', '0', hexDigit (c.toNat / 16), hexDigit (c.toNat % 16)]
  else [c]

def quoteJsonString (s : List Char) : List Char := '"' :: (s.flatMap escapeJsonChar ++ ['"'])

theorem escapeJsonChar_eq (c : Char) : escapeJsonChar c = escapeChar c := by
  have back : c.toNat = 8 ↔ c = '\x08' := Char.toNat_inj (c := c) (d := '\x08')
  have feed : c.toNat = 12 ↔ c = '\x0c' := Char.toNat_inj (c := c) (d := '\x0c')
  unfold escapeJsonChar escapeChar
  simp only [back, feed]
  by_cases named : c = '\x08' ∨ c = '\t' ∨ c = '\n' ∨ c = '\x0c' ∨ c = '\r' ∨ c = '"' ∨ c = '\\'
  · rcases named with rfl | rfl | rfl | rfl | rfl | rfl | rfl <;> rfl
  · push Not at named
    obtain ⟨back, tab, line, feed, form, quote, backslash⟩ := named
    simp only [back, tab, line, feed, form, quote, backslash, if_false]

theorem quoteJsonString_eq (s : List Char) : quoteJsonString s = quote s := by
  rw [quoteJsonString, quote, escape, funext escapeJsonChar_eq]

variable {doubles}

/-- A text whose objects are in order is read and written again as it is. -/
theorem stringify_parse (lawful : doubles.Lawful) {value : Json F} (ordered : Ordered value) :
    (parse doubles (text (numberToString doubles) value)).map (stringify doubles) =
      some (text (numberToString doubles) value) := by
  rw [parse, read_text (numbers_read lawful) value, Option.map_some,
    rebuild_ordered (fun _ => properties_ordered) value ordered, Option.map_some, stringify,
    rebuild_ordered (fun _ => enumerate_ordered) value ordered]

end Values

end EcmaScript
