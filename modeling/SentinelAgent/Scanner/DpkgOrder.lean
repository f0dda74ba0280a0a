import Mathlib.Tactic.Ring
import SentinelAgent.Library.Padded
import SentinelAgent.Scanner.DebianVersion

/-!
The order of Debian versions, by what a version is read as: its epoch, and for each of its two
parts the rounds of characters that are no digits and a number after them. The loop that
compares two texts byte by byte computes it.
-/
namespace SentinelAgent.Dpkg
open DebianVersion Padded Std

/- Characters that are no digits, perhaps none, and the number after them, perhaps 0. -/
structure Round where
  others : List Nat
  number : Nat

def others (part : List Nat) : List Nat := part.takeWhile (!isDigit ·)

def afterOthers (part : List Nat) : List Nat := part.dropWhile (!isDigit ·)

def digits (part : List Nat) : List Nat := (afterOthers part).takeWhile isDigit

def rest (part : List Nat) : List Nat := (afterOthers part).dropWhile isDigit

def valueFrom (n : Nat) (digits : List Nat) : Nat := digits.foldl (fun n d => 10 * n + (d - 48)) n

def firstRound (part : List Nat) : Round := ⟨others part, valueFrom 0 (digits part)⟩

theorem rest_shorter (b : Nat) (part : List Nat) :
    (rest (b :: part)).length < (b :: part).length := by
  have within : ∀ (p : Nat → Bool) (l : List Nat), (l.dropWhile p).length ≤ l.length :=
    fun p l => (List.dropWhile_sublist p).length_le
  have cut := within isDigit (part.dropWhile (!isDigit ·))
  have cut' := within (!isDigit ·) part
  have cut'' := within isDigit part
  by_cases digit : isDigit b = true
  · simp only [rest, afterOthers, List.dropWhile_cons, digit, Bool.not_true, Bool.false_eq_true,
      if_false, if_true, List.length_cons]
    omega
  · simp only [rest, afterOthers, List.dropWhile_cons, digit, Bool.not_false, if_true,
      List.length_cons]
    omega

def rounds : List Nat → List Round
  | [] => []
  | b :: part => firstRound (b :: part) :: rounds (rest (b :: part))
termination_by part => part.length
decreasing_by exact rest_shorter b part

/- `~` stands before the end of the characters, letters after it and all else after letters. -/
def weight (b : Nat) : Int :=
  if b = 126 then -1 else if isAlphabetic b then b else b + 256

def compareOthers (a b : Round) : Ordering :=
  padded compare 0 (a.others.map weight) (b.others.map weight)

def compareRound : Round → Round → Ordering := compareLex compareOthers (compareOn Round.number)

def noRound : Round := ⟨[], 0⟩

def comparePart (a b : List Nat) : Ordering := padded compareRound noRound (rounds a) (rounds b)

instance : TransCmp compareOthers :=
  transCmp_on fun r : Round => r.others.map weight

instance : TransCmp compareRound := inferInstanceAs (TransCmp (compareLex _ _))

instance : TransCmp comparePart := transCmp_on rounds

/-! The rounds of a part, one after the other. -/

theorem rounds_head (part : List Nat) : (rounds part).headD noRound = firstRound part := by
  cases part with
  | nil => simp [rounds, firstRound, noRound, others, digits, afterOthers, valueFrom]
  | cons b part => rw [rounds, List.headD_cons]

theorem rounds_tail (part : List Nat) : (rounds part).tail = rounds (rest part) := by
  cases part with
  | nil => simp [rounds, rest, afterOthers]
  | cons b part => rw [rounds, List.tail_cons]

theorem comparePart_step (a b : List Nat) : comparePart a b =
    (compareRound (firstRound a) (firstRound b)).then (comparePart (rest a) (rest b)) := by
  rw [comparePart, padded_step, rounds_head, rounds_head, rounds_tail, rounds_tail]
  rfl

/-! The characters that are no digits. -/

theorem order_other {b : Nat} (other : isDigit b = false) : order (some b) = weight b := by
  simp [order, weight, other]

/- A part without its first character, where that is no digit. -/
def afterLead (part : List Nat) : List Nat := if (lead part).isSome then part.tail else part

theorem head_cases (part : List Nat) : lead part = none ∧ others part = [] ∧
      afterOthers part = part ∨
    ∃ b after, part = b :: after ∧ isDigit b = false := by
  cases part with
  | nil => exact .inl ⟨rfl, rfl, rfl⟩
  | cons b part =>
    by_cases digit : isDigit b = true
    · exact .inl (by simp [lead, others, afterOthers, digit])
    · exact .inr ⟨b, part, rfl, by simpa using digit⟩

theorem lead_other {b : Nat} (other : isDigit b = false) (after : List Nat) :
    lead (b :: after) = some b := by
  simp [lead, other]

theorem others_other {b : Nat} (other : isDigit b = false) (after : List Nat) :
    others (b :: after) = b :: others after ∧ afterOthers (b :: after) = afterOthers after := by
  simp [others, afterOthers, other]

theorem order_lead (part : List Nat) :
    order (lead part) = ((others part).map weight).headD 0 := by
  rcases head_cases part with ⟨none, empty, -⟩ | ⟨b, after, rfl, other⟩
  · simp [none, empty, order]
  · simp [lead_other other, others_other other, order_other other]

theorem others_afterLead (part : List Nat) : others (afterLead part) = (others part).tail := by
  rcases head_cases part with ⟨none, empty, -⟩ | ⟨b, after, rfl, other⟩
  · simp [afterLead, none, empty]
  · simp [afterLead, lead_other other, others_other other]

theorem afterOthers_afterLead (part : List Nat) : afterOthers (afterLead part) = afterOthers part := by
  rcases head_cases part with ⟨none, -⟩ | ⟨b, after, rfl, other⟩
  · simp [afterLead, none]
  · simp [afterLead, lead_other other, others_other other]

theorem afterLead_length (part : List Nat) :
    (afterLead part).length + (if lead part = none then 0 else 1) = part.length := by
  rcases head_cases part with ⟨none, -⟩ | ⟨b, after, rfl, other⟩
  · simp [afterLead, none]
  · simp [afterLead, lead_other other]

theorem lead_none {part : List Nat} (none : lead part = none) :
    others part = [] ∧ afterOthers part = part := by
  rcases head_cases part with ⟨-, whole⟩ | ⟨b, after, rfl, other⟩
  · exact whole
  · rw [lead_other other] at none
    cases none

/- What the loop over the characters that are no digits makes of how they compare. -/
def differs (compared : Ordering) (a b : List Nat) : Except Ordering (List Nat × List Nat) :=
  if compared = .eq then .ok (a, b) else .error compared

theorem otherRuns_eq {fuel : Nat} {a b : List Nat} (enough : a.length + b.length ≤ fuel) :
    otherRuns fuel a b = differs (padded compare 0 ((others a).map weight) ((others b).map weight))
      (afterOthers a) (afterOthers b) := by
  induction fuel generalizing a b with
  | zero =>
    have none : a = [] := List.length_eq_zero_iff.mp (by omega)
    have none' : b = [] := List.length_eq_zero_iff.mp (by omega)
    subst none none'
    rfl
  | succ fuel ih =>
    rw [otherRuns]
    split
    · rename_i ends
      obtain ⟨empty, same⟩ := lead_none ends.1
      obtain ⟨empty', same'⟩ := lead_none ends.2
      rw [empty, empty', same, same']
      rfl
    · rename_i goes
      have first := afterLead_length a
      have second := afterLead_length b
      have shorter : (afterLead a).length + (afterLead b).length ≤ fuel := by
        split at first <;> split at second
        · exact absurd ⟨‹_›, ‹_›⟩ goes
        all_goals omega
      rw [order_lead, order_lead, padded_step]
      split
      · rename_i ne
        have unequal := mt Int.compare_eq_eq.mp ne
        cases compared : compare (((others a).map weight).headD 0) (((others b).map weight).headD 0)
        · simp [differs]
        · exact absurd compared unequal
        · simp [differs]
      · rename_i same
        rw [not_not] at same
        rw [← List.map_tail, ← List.map_tail, ← others_afterLead, ← others_afterLead,
          ← afterOthers_afterLead a, ← afterOthers_afterLead b, Int.compare_eq_eq.mpr same]
        exact ih shorter

/-! The digits. -/

theorem digit_bounds {d : Nat} (digit : isDigit d = true) : 48 ≤ d ∧ d ≤ 57 := by
  simpa [isDigit] using digit

/- A further digit of each decides where what stands before it does not. -/
theorem compare_digit (n m : Nat) {d e : Nat} (digit : isDigit d = true)
    (digit' : isDigit e = true) : (compare n m).then (compare d e) =
      compare (10 * n + (d - 48)) (10 * m + (e - 48)) := by
  obtain ⟨low, high⟩ := digit_bounds digit
  obtain ⟨low', high'⟩ := digit_bounds digit'
  rcases Nat.lt_trichotomy n m with less | rfl | more
  · have less' : 10 * n + (d - 48) < 10 * m + (e - 48) := by omega
    rw [Nat.compare_eq_lt.mpr less, Nat.compare_eq_lt.mpr less']
    rfl
  · rw [Nat.compare_eq_eq.mpr rfl, Ordering.eq_then]
    rcases Nat.lt_trichotomy d e with less | rfl | more
    · rw [Nat.compare_eq_lt.mpr less, Nat.compare_eq_lt.mpr (by omega)]
    · rw [Nat.compare_eq_eq.mpr rfl, Nat.compare_eq_eq.mpr rfl]
    · rw [Nat.compare_eq_gt.mpr more, Nat.compare_eq_gt.mpr (by omega)]
  · have more' : 10 * m + (e - 48) < 10 * n + (d - 48) := by omega
    rw [Nat.compare_eq_gt.mpr more, Nat.compare_eq_gt.mpr more']
    rfl

/- What the loop over the digits leaves of two numbers: what stands after as many digits as
   both have. -/
theorem digitRuns_eq (n m : Nat) (a b : List Nat) :
    let digits := a.takeWhile isDigit
    let digits' := b.takeWhile isDigit
    let places := min digits.length digits'.length
    digitRuns (compare n m) a b = (compare (valueFrom n (digits.take places))
      (valueFrom m (digits'.take places)), a.drop places, b.drop places) := by
  induction a generalizing n m b with
  | nil => simp [digitRuns, valueFrom]
  | cons d a ih =>
    cases b with
    | nil => simp [digitRuns, valueFrom]
    | cons e b =>
      rw [digitRuns]
      by_cases digit : isDigit d = true
      · by_cases digit' : isDigit e = true
        · rw [digit, digit', Bool.and_true, if_pos rfl, compare_digit n m digit digit', ih]
          simp [digit, digit', valueFrom, Nat.succ_min_succ]
        · simp [digit, digit', valueFrom]
      · simp [digit, valueFrom]

theorem valueFrom_lower (n : Nat) (digits : List Nat) :
    n * 10 ^ digits.length ≤ valueFrom n digits := by
  induction digits generalizing n with
  | nil => simp [valueFrom]
  | cons d digits ih =>
    calc n * 10 ^ (d :: digits).length = 10 * n * 10 ^ digits.length := by
          rw [List.length_cons, Nat.pow_succ]; ring
      _ ≤ (10 * n + (d - 48)) * 10 ^ digits.length := Nat.mul_le_mul_right _ (Nat.le_add_right _ _)
      _ ≤ valueFrom n (d :: digits) := ih _

theorem valueFrom_upper (n : Nat) {digits : List Nat} (each : ∀ d ∈ digits, isDigit d = true) :
    valueFrom n digits < (n + 1) * 10 ^ digits.length := by
  induction digits generalizing n with
  | nil => simp [valueFrom]
  | cons d digits ih =>
    obtain ⟨low, high⟩ := digit_bounds (each d List.mem_cons_self)
    calc valueFrom n (d :: digits) < (10 * n + (d - 48) + 1) * 10 ^ digits.length :=
          ih _ fun e member => each e (List.mem_cons_of_mem _ member)
      _ ≤ (10 * (n + 1)) * 10 ^ digits.length := Nat.mul_le_mul_right _ (by omega)
      _ = (n + 1) * 10 ^ (d :: digits).length := by rw [List.length_cons, Nat.pow_succ]; ring

/- Of two numbers written without zeros in front the longer one is the larger. -/
theorem longer_larger {a b : List Nat} (each : ∀ d ∈ a ++ b, isDigit d = true)
    (no_zero : a.head? ≠ some 48) (longer : b.length < a.length) :
    valueFrom 0 b < valueFrom 0 a := by
  cases a with
  | nil => simp at longer
  | cons d a =>
    obtain ⟨low, high⟩ := digit_bounds (each d (by simp))
    have positive : 1 ≤ d - 48 := by
      have : d ≠ 48 := fun zero => no_zero (by simp [zero])
      omega
    calc valueFrom 0 b < (0 + 1) * 10 ^ b.length :=
          valueFrom_upper 0 fun e member => each e (List.mem_append_right _ member)
      _ ≤ (d - 48) * 10 ^ a.length := Nat.mul_le_mul positive
          (Nat.pow_le_pow_right (by decide) (by simpa [Nat.lt_succ_iff] using longer))
      _ ≤ valueFrom 0 (d :: a) := by
          simpa [valueFrom] using valueFrom_lower (10 * 0 + (d - 48)) a

theorem isDigit_zero : isDigit 48 = true := by decide

/- Zeros in front change neither a number nor what stands after it. -/
theorem without_zeros (part : List Nat) :
    valueFrom 0 ((part.dropWhile (· = 48)).takeWhile isDigit) =
        valueFrom 0 (part.takeWhile isDigit) ∧
      (part.dropWhile (· = 48)).dropWhile isDigit = part.dropWhile isDigit := by
  induction part with
  | nil => exact ⟨rfl, rfl⟩
  | cons b part ih =>
    by_cases zero : b = 48
    · subst zero
      simp only [List.dropWhile_cons, List.takeWhile_cons, isDigit_zero, decide_true, if_true]
      exact ⟨ih.1.trans (by simp [valueFrom]), ih.2⟩
    · simp [List.dropWhile_cons, zero]

theorem no_zero_first (part : List Nat) :
    ((part.dropWhile (· = 48)).takeWhile isDigit).head? ≠ some 48 := by
  intro zero
  have first := List.head?_dropWhile_not (fun b => decide (b = 48)) part
  cases left : part.dropWhile (· = 48) with
  | nil => simp [left] at zero
  | cons b after =>
    have none : b ≠ 48 := by simpa [left] using first
    rw [left, List.takeWhile_cons] at zero
    split at zero
    · exact none (by simpa using zero)
    · simp at zero

theorem takeWhile_digits {part : List Nat} {d : Nat} (member : d ∈ part.takeWhile isDigit) :
    isDigit d = true := List.mem_takeWhile_imp member

/- A number that goes on goes on with a digit, and one that has ended does not. -/
theorem drop_digits (part : List Nat) (places : Nat)
    (within : places ≤ (part.takeWhile isDigit).length) :
    (part.drop places).head?.any isDigit = decide (places < (part.takeWhile isDigit).length) := by
  have whole := List.takeWhile_append_dropWhile (p := isDigit) (l := part)
  have ended := List.head?_dropWhile_not isDigit part
  have each : ∀ d ∈ part.takeWhile isDigit, isDigit d = true := fun d => takeWhile_digits
  generalize part.takeWhile isDigit = digits at *
  generalize part.dropWhile isDigit = after at *
  subst whole
  rw [List.drop_append_of_le_length within]
  by_cases goes : places < digits.length
  · rw [List.drop_eq_getElem_cons goes]
    simp [goes, each _ (List.getElem_mem goes)]
  · rw [List.drop_of_length_le (Nat.not_lt.mp goes), List.nil_append]
    cases after with
    | nil => simp [goes]
    | cons b after => simpa [goes] using ended

theorem drop_all_digits (part : List Nat) :
    part.drop (part.takeWhile isDigit).length = part.dropWhile isDigit := by
  induction part with
  | nil => rfl
  | cons b part ih =>
    by_cases digit : isDigit b = true
    · simpa [digit] using ih
    · simp [digit]

/-- What the loop over the digits decides, and how the comparison goes on where it decides
    nothing. -/
theorem digitRuns_decide (more : List Nat → List Nat → Ordering) (a b : List Nat) :
    (let (diff, a, b) := digitRuns .eq (a.dropWhile (· = 48)) (b.dropWhile (· = 48))
      if a.head?.any isDigit then .gt
      else if b.head?.any isDigit then .lt
      else if diff ≠ .eq then diff
      else more a b) =
    (compare (valueFrom 0 (a.takeWhile isDigit)) (valueFrom 0 (b.takeWhile isDigit))).then
      (more (a.dropWhile isDigit) (b.dropWhile isDigit)) := by
  have runs := digitRuns_eq 0 0 (a.dropWhile (· = 48)) (b.dropWhile (· = 48))
  rw [Nat.compare_eq_eq.mpr rfl] at runs
  rw [← (without_zeros a).1, ← (without_zeros a).2, ← (without_zeros b).1, ← (without_zeros b).2]
  have front := no_zero_first a
  have front' := no_zero_first b
  generalize a.dropWhile (· = 48) = a at *
  generalize b.dropWhile (· = 48) = b at *
  simp only [runs]
  rw [drop_digits a _ (Nat.min_le_left _ _), drop_digits b _ (Nat.min_le_right _ _)]
  rcases Nat.lt_trichotomy (a.takeWhile isDigit).length (b.takeWhile isDigit).length with
    shorter | same | longer
  · have less := longer_larger (fun d member => (List.mem_append.mp member).elim takeWhile_digits
      takeWhile_digits) front' shorter
    simp [Nat.compare_eq_lt.mpr less, shorter, Nat.not_lt_of_gt shorter]
  · rw [same, Nat.min_self, List.take_length, ← same, List.take_length, drop_all_digits, same,
      drop_all_digits]
    cases compared : compare (valueFrom 0 (a.takeWhile isDigit)) (valueFrom 0 (b.takeWhile isDigit))
    all_goals simp
  · have more := longer_larger (fun d member => (List.mem_append.mp member).elim takeWhile_digits
      takeWhile_digits) front longer
    simp [Nat.compare_eq_gt.mpr more, longer]

/-! The rounds of the loop over two parts. -/

theorem rest_length (part : List Nat) : (rest part).length ≤ part.length - 1 := by
  cases part with
  | nil => simp [rest, afterOthers]
  | cons b part =>
    have shorter := rest_shorter b part
    simp only [List.length_cons] at shorter ⊢
    omega

/-- The loop over the bytes of two parts compares their rounds. -/
theorem comparePart_eq {fuel : Nat} {a b : List Nat} (enough : a.length + b.length ≤ fuel) :
    DebianVersion.comparePart fuel a b = comparePart a b := by
  induction fuel generalizing a b with
  | zero =>
    have none : a = [] := List.length_eq_zero_iff.mp (by omega)
    have none' : b = [] := List.length_eq_zero_iff.mp (by omega)
    subst none none'
    simp [DebianVersion.comparePart, comparePart, ReflCmp.compare_self]
  | succ fuel ih =>
    rw [DebianVersion.comparePart, comparePart_step, otherRuns_eq le_rfl]
    split
    · rename_i ended
      obtain ⟨rfl, rfl⟩ := ended
      simp [comparePart, ReflCmp.compare_self]
    · rename_i goes
      have shorter : (rest a).length + (rest b).length ≤ fuel := by
        have left := rest_length a
        have left' := rest_length b
        have some : 0 < a.length + b.length := by
          simp only [← List.length_eq_zero_iff] at goes
          omega
        omega
      rw [compareRound, compareLex, Ordering.then_assoc]
      by_cases same : compareOthers (firstRound a) (firstRound b) = .eq
      · have follows : differs (padded compare 0 ((others a).map weight) ((others b).map weight))
            (afterOthers a) (afterOthers b) = .ok (afterOthers a, afterOthers b) := if_pos same
        rw [follows, same, Ordering.eq_then, ← ih shorter]
        exact digitRuns_decide (DebianVersion.comparePart fuel) (afterOthers a) (afterOthers b)
      · have decided : differs (padded compare 0 ((others a).map weight) ((others b).map weight))
            (afterOthers a) (afterOthers b) =
              .error (compareOthers (firstRound a) (firstRound b)) := if_neg same
        rw [decided]
        cases compared : compareOthers (firstRound a) (firstRound b)
        · rfl
        · exact absurd compared same
        · rfl

theorem compareText_eq (a b : String) : compareText a b = comparePart (bytes a) (bytes b) :=
  comparePart_eq le_rfl

/-! Whole versions. -/

structure Version where
  epoch : Nat
  upstream : String
  revision : String

def splitRevision (epoch : Nat) (rest : String) : Version :=
  match Text.splitLast '-' rest with
  | some (upstream, revision) => ⟨epoch, upstream, revision⟩
  | none => ⟨epoch, rest, ""⟩

/- The epoch is what stands before the first colon, where that is a number. -/
def readVersion (version : String) : Version :=
  match Text.splitFirst ':' (Text.trim version) with
  | some (epoch, rest) =>
    if epoch ≠ "" ∧ Text.allDigits epoch = true then
      splitRevision (Nat.ofDigitChars 10 epoch.toList 0) rest
    else splitRevision 0 (Text.trim version)
  | none => splitRevision 0 (Text.trim version)

/- The order of `dpkg --compare-versions`. -/
def compareVersions : Version → Version → Ordering :=
  compareLex (compareOn Version.epoch)
    (compareLex (fun a b => comparePart (bytes a.upstream) (bytes b.upstream))
      fun a b => comparePart (bytes a.revision) (bytes b.revision))

/- An epoch of more than 64 bits read as the largest of 64 bits. -/
def Version.bounded (version : Version) : Version :=
  { version with epoch := min version.epoch (2 ^ 64 - 1) }

instance : TransCmp compareVersions :=
  have := @transCmp_on _ comparePart _ _ fun version : Version => bytes version.upstream
  have := @transCmp_on _ comparePart _ _ fun version : Version => bytes version.revision
  inferInstanceAs (TransCmp (compareLex _ (compareLex _ _)))

theorem splitUpstream_eq (epoch : Nat) (rest : String) :
    splitUpstream (min epoch (2 ^ 64 - 1)) rest = ((splitRevision epoch rest).bounded.epoch,
      (splitRevision epoch rest).bounded.upstream, (splitRevision epoch rest).bounded.revision) := by
  unfold splitUpstream splitRevision
  cases Text.splitLast '-' rest <;> rfl

theorem parse_digits {text : String} (nonempty : text ≠ "")
    (digits : Text.allDigits text = true) (bits : Nat) : Text.parseUnsigned bits text =
      if Nat.ofDigitChars 10 text.toList 0 < 2 ^ bits then some (Nat.ofDigitChars 10 text.toList 0)
      else none := by
  have some : text.toList ≠ [] := fun empty => nonempty (String.toList_eq_nil_iff.mp empty)
  rw [Text.allDigits] at digits
  unfold Text.parseUnsigned
  generalize text.toList = chars at *
  dsimp only
  split
  · rename_i rest
    exact absurd (List.all_eq_true.mp digits '+' List.mem_cons_self) (by decide)
  · simp only [ne_eq, some, not_false_eq_true, digits, true_and]

theorem epoch_eq {epoch : String} (digits : epoch ≠ "" ∧ Text.allDigits epoch = true) :
    (Text.parseUnsigned 64 epoch).getD (2 ^ 64 - 1) =
      min (Nat.ofDigitChars 10 epoch.toList 0) (2 ^ 64 - 1) := by
  rw [parse_digits digits.1 digits.2]
  split
  · rw [Option.getD_some]
    omega
  · rw [Option.getD_none]
    omega

theorem splitVersion_eq (version : String) : splitVersion version =
    ((readVersion version).bounded.epoch, (readVersion version).bounded.upstream,
      (readVersion version).bounded.revision) := by
  have no_epoch := splitUpstream_eq 0 (Text.trim version)
  unfold splitVersion readVersion
  cases Text.splitFirst ':' (Text.trim version) with
  | none => exact no_epoch
  | some parts =>
    obtain ⟨epoch, rest⟩ := parts
    dsimp only
    split
    · rename_i digits
      rw [epoch_eq digits]
      exact splitUpstream_eq _ rest
    · exact no_epoch

/-- The comparison of two texts is the order of the versions that they are read as, epochs of
    more than 64 bits read as one. -/
theorem compareDebianVersions_eq (a b : String) : compareDebianVersions a b =
    compareVersions (readVersion a).bounded (readVersion b).bounded := by
  rw [compareDebianVersions, splitVersion_eq a, splitVersion_eq b]
  simp only [compareText_eq]
  rfl

instance : TransCmp compareDebianVersions := by
  have same : compareDebianVersions = fun a b =>
      compareVersions (readVersion a).bounded (readVersion b).bounded :=
    funext fun a => funext fun b => compareDebianVersions_eq a b
  rw [same]
  exact transCmp_on fun version => (readVersion version).bounded

/-- Where one of the epochs is below the largest of 64 bits, the order is that of the epochs
    as they are. -/
theorem compareVersions_bounded {a b : Version}
    (small : a.epoch < 2 ^ 64 - 1 ∨ b.epoch < 2 ^ 64 - 1) :
    compareVersions a.bounded b.bounded = compareVersions a b := by
  have epochs : compare (min a.epoch (2 ^ 64 - 1)) (min b.epoch (2 ^ 64 - 1)) =
      compare a.epoch b.epoch := by
    rcases Nat.lt_trichotomy a.epoch b.epoch with less | same | more
    · rw [Nat.compare_eq_lt.mpr less, Nat.compare_eq_lt]
      omega
    · rw [same]
      simp [Nat.compare_eq_eq]
    · rw [Nat.compare_eq_gt.mpr more, Nat.compare_eq_gt]
      omega
  simp only [compareVersions, compareLex, compareOn, Version.bounded, epochs]

end SentinelAgent.Dpkg
