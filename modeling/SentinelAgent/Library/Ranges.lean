import Mathlib.Data.List.Basic
import Mathlib.Data.List.Sort

/- Inclusive ranges of numbers up to a bound, and what they leave uncovered. -/
namespace Ranges

abbrev Range := Nat × Nat

def Range.holds (range : Range) (n : Nat) : Prop := range.1 ≤ n ∧ n ≤ range.2

instance (range : Range) (n : Nat) : Decidable (range.holds n) :=
  inferInstanceAs (Decidable (_ ∧ _))

def covers (ranges : List Range) (n : Nat) : Prop := ∃ range ∈ ranges, range.holds n

instance (ranges : List Range) (n : Nat) : Decidable (covers ranges n) :=
  inferInstanceAs (Decidable (∃ range ∈ ranges, range.holds n))

def before (a b : Range) : Prop := a.1 < b.1 ∨ (a.1 = b.1 ∧ a.2 ≤ b.2)

instance : DecidableRel before := fun _ _ => inferInstanceAs (Decidable (_ ∨ _))

/- One pass over ranges in the order of their starts. The cursor is the first
   number not yet decided; there is none once the bound is passed. -/
def gapsFrom (max : Nat) : Option Nat → List Range → List Range
  | none, _ => []
  | some cursor, [] => [(cursor, max)]
  | some cursor, (first, last) :: rest =>
    (if cursor < first then [(cursor, first - 1)] else []) ++
      gapsFrom max (if cursor ≤ last then (if last < max then some (last + 1) else none)
        else some cursor) rest

def gaps (ranges : List Range) (max : Nat) : List Range :=
  gapsFrom max (some 0) (ranges.insertionSort before)

example : gaps [(5, 7), (2, 2), (6, 9)] 20 = [(0, 1), (3, 4), (10, 20)] := by decide

@[simp] theorem covers_nil (n : Nat) : ¬ covers [] n := by
  simp [covers]

theorem covers_cons (range : Range) (rest : List Range) (n : Nat) :
    covers (range :: rest) n ↔ range.holds n ∨ covers rest n := by
  simp [covers]

theorem covers_append (first second : List Range) (n : Nat) :
    covers (first ++ second) n ↔ covers first n ∨ covers second n := by
  simp only [covers, List.mem_append, or_and_right, exists_or]

/- What a later range covers is not before the start of an earlier one. -/
theorem covered_after {start n : Nat} {ranges : List Range}
    (sorted : ∀ range ∈ ranges, start ≤ range.1) (covered : covers ranges n) : start ≤ n := by
  obtain ⟨range, member, first, _⟩ := covered
  have := sorted range member
  omega

theorem covers_gapsFrom {max n : Nat} (bound : n ≤ max) (ranges : List Range) (cursor : Nat)
    (sorted : ranges.Pairwise fun a b => a.1 ≤ b.1) :
    covers (gapsFrom max (some cursor) ranges) n ↔ cursor ≤ n ∧ ¬ covers ranges n := by
  induction ranges generalizing cursor with
  | nil => simp [gapsFrom, covers, Range.holds, bound]
  | cons range rest ih =>
    obtain ⟨first, last⟩ := range
    obtain ⟨later, sorted⟩ := List.pairwise_cons.mp sorted
    have gap : covers (if cursor < first then [(cursor, first - 1)] else []) n ↔
        cursor ≤ n ∧ n < first := by
      split
      · simp only [covers_cons, covers_nil, or_false, Range.holds]
        omega
      · simp only [covers_nil, false_iff]
        omega
    have not_later : n < first → ¬ covers rest n := by
      intro less covered
      have := covered_after later covered
      omega
    rw [gapsFrom, covers_append, gap, covers_cons, Range.holds]
    by_cases covered : covers rest n
    · have less : first ≤ n := by
        by_contra less
        exact not_later (by omega) covered
      split_ifs <;> simp only [ih _ sorted, gapsFrom, covers_nil, covered, not_true, and_false,
        or_true, or_false, iff_false] <;> omega
    · split_ifs <;> simp only [ih _ sorted, gapsFrom, covers_nil, covered, not_false_eq_true,
        and_true, or_false] <;> omega

/- The gaps hold exactly the numbers up to the bound that no range holds. -/
theorem covers_gaps {ranges : List Range} {max n : Nat} (bound : n ≤ max) :
    covers (gaps ranges max) n ↔ ¬ covers ranges n := by
  have total : Std.Total before := by
    constructor
    intro a b
    simp only [before]
    omega
  have trans : IsTrans Range before := by
    constructor
    intro a b c
    simp only [before]
    omega
  have sorted : (ranges.insertionSort before).Pairwise fun a b => a.1 ≤ b.1 := by
    apply (List.pairwise_insertionSort before ranges).imp
    intro a b ordered
    simp only [before] at ordered
    omega
  rw [gaps, covers_gapsFrom bound _ 0 sorted]
  simp [covers, List.mem_insertionSort]

/- A range of numbers up to the bound. -/
def Range.Valid (max : Nat) (range : Range) : Prop := range.1 ≤ range.2 ∧ range.2 ≤ max

instance (max : Nat) (range : Range) : Decidable (range.Valid max) :=
  inferInstanceAs (Decidable (_ ∧ _))

theorem gapsFrom_none (max : Nat) (ranges : List Range) : gapsFrom max none ranges = [] := by
  cases ranges with
  | nil => rfl
  | cons range rest => rfl

/- What a pass still gives begins at the cursor. -/
theorem gapsFrom_valid {max cursor : Nat} {ranges : List Range} (start : cursor ≤ max)
    (valid : ∀ range ∈ ranges, range.Valid max) :
    ∀ gap ∈ gapsFrom max (some cursor) ranges, cursor ≤ gap.1 ∧ gap.Valid max := by
  induction ranges generalizing cursor with
  | nil =>
    intro gap member
    rw [List.mem_singleton.mp member]
    exact ⟨le_rfl, start, le_rfl⟩
  | cons range rest ih =>
    obtain ⟨first, last⟩ := range
    obtain ⟨ordered, bound⟩ : first ≤ last ∧ last ≤ max := valid _ List.mem_cons_self
    have rest_valid := fun range member => valid range (List.mem_cons_of_mem _ member)
    intro gap member
    rw [gapsFrom] at member
    rcases List.mem_append.mp member with here | later
    · split_ifs at here with room
      · rw [List.mem_singleton.mp here]
        exact ⟨le_rfl, Nat.le_sub_one_of_lt room, by omega⟩
      · cases here
    · split_ifs at later with passed more
      · obtain ⟨from_next, gap_valid⟩ := ih (by omega) rest_valid gap later
        exact ⟨by omega, gap_valid⟩
      · rw [gapsFrom_none] at later
        cases later
      · exact ih start rest_valid gap later

theorem gapsFrom_ordered {max cursor : Nat} {ranges : List Range} (start : cursor ≤ max)
    (valid : ∀ range ∈ ranges, range.Valid max) :
    (gapsFrom max (some cursor) ranges).Pairwise fun a b => a.2 < b.1 := by
  induction ranges generalizing cursor with
  | nil => exact List.pairwise_singleton _ _
  | cons range rest ih =>
    obtain ⟨first, last⟩ := range
    obtain ⟨ordered, bound⟩ : first ≤ last ∧ last ≤ max := valid _ List.mem_cons_self
    have rest_valid := fun range member => valid range (List.mem_cons_of_mem _ member)
    rw [gapsFrom, List.pairwise_append]
    refine ⟨?_, ?_, ?_⟩
    · split_ifs
      · exact List.pairwise_singleton _ _
      · exact List.Pairwise.nil
    · split_ifs with passed more
      · exact ih (by omega) rest_valid
      · rw [gapsFrom_none]
        exact List.Pairwise.nil
      · exact ih start rest_valid
    · intro gap here other later
      split_ifs at here with room
      · rw [List.mem_singleton.mp here]
        split_ifs at later with passed more
        · have := (gapsFrom_valid (by omega) rest_valid other later).1
          simp only
          omega
        · rw [gapsFrom_none] at later
          cases later
        · omega
      · cases here

theorem sorted_valid {max : Nat} {ranges : List Range} (valid : ∀ range ∈ ranges, range.Valid max) :
    ∀ range ∈ ranges.insertionSort before, range.Valid max :=
  fun range member => valid range ((List.mem_insertionSort before).mp member)

/-- The gaps are ranges up to the bound. -/
theorem gaps_valid {max : Nat} {ranges : List Range} (valid : ∀ range ∈ ranges, range.Valid max) :
    ∀ gap ∈ gaps ranges max, gap.Valid max :=
  fun gap member => (gapsFrom_valid (Nat.zero_le max) (sorted_valid valid) gap member).2

/-- The gaps ascend and have no number in common. -/
theorem gaps_ordered {max : Nat} {ranges : List Range} (valid : ∀ range ∈ ranges, range.Valid max) :
    (gaps ranges max).Pairwise fun a b => a.2 < b.1 :=
  gapsFrom_ordered (Nat.zero_le max) (sorted_valid valid)

end Ranges
