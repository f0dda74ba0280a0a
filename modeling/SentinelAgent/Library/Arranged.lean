import Mathlib.Data.List.Sort
import Mathlib.Data.List.Lex
import Mathlib.Data.List.Range
import Mathlib.Data.List.Perm.Basic

/-!
Rows put in order by a time that several of them may share. Nothing is said about the order of
those, so two answers may differ in it, and so may the pages that are cut out of them.
-/
namespace Arranged

variable {R T : Type*} [LinearOrder T] {time : R → T} {rows answer other : List R}

structure Newest (time : R → T) (rows answer : List R) : Prop where
  perm : answer.Perm rows
  sorted : answer.Pairwise fun a b => time b ≤ time a

theorem exists_newest (time : R → T) (rows : List R) : ∃ answer, Newest time rows answer := by
  let newer (a b : R) : Prop := time b ≤ time a
  have total : Std.Total newer := ⟨fun a b => le_total (time b) (time a)⟩
  have trans : IsTrans R newer := ⟨fun a b c first second => le_trans second first⟩
  refine ⟨rows.insertionSort newer, List.perm_insertionSort newer rows, ?_⟩
  exact List.pairwise_insertionSort newer rows

theorem sorted_of_times (sorted : (answer.map time).Pairwise (· ≥ ·)) :
    answer.Pairwise fun a b => time b ≤ time a :=
  List.pairwise_map.mp sorted

theorem times_sorted (newest : Newest time rows answer) : (answer.map time).Pairwise (· ≥ ·) :=
  List.pairwise_map.mpr newest.sorted

/-- The times of an answer are the same, however it orders rows of one time. -/
theorem times_eq (newest : Newest time rows answer) (newest' : Newest time rows other) :
    answer.map time = other.map time :=
  ((newest.perm.trans newest'.perm.symm).map time).eq_of_pairwise
    (fun _ _ _ _ first second => le_antisymm second first) (times_sorted newest)
    (times_sorted newest')

/- What holds of the rows up to some place holds of as many as it is true of. -/
theorem holds_iff_lt_countP {p : R → Bool} {xs : List R}
    (first : xs.Pairwise fun a b => p b = true → p a = true) {i : Nat} (inside : i < xs.length) :
    p xs[i] = true ↔ i < xs.countP p := by
  induction xs generalizing i with
  | nil => cases inside
  | cons x xs ih =>
    obtain ⟨before, later⟩ := List.pairwise_cons.mp first
    cases i with
    | zero =>
      rw [List.getElem_cons_zero, List.countP_pos_iff]
      constructor
      · intro holds
        exact ⟨x, List.mem_cons_self, holds⟩
      · rintro ⟨y, member, holds⟩
        rcases List.mem_cons.mp member with rfl | member
        · exact holds
        · exact before y member holds
    | succ i =>
      have inside' : i < xs.length := Nat.lt_of_succ_lt_succ inside
      rw [List.getElem_cons_succ, ih later inside', List.countP_cons]
      by_cases head : p x = true
      · rw [if_pos head]
        omega
      · rw [if_neg head]
        have none_left : xs.countP p = 0 := by
          rw [List.countP_eq_zero]
          intro y member holds
          exact head (before y member holds)
        omega

section Places

/- How many rows are newer than a row, and how many are at least as new. -/
def newer (time : R → T) (rows : List R) (r : R) : Nat := rows.countP fun a => time r < time a

def atLeast (time : R → T) (rows : List R) (r : R) : Nat := rows.countP fun a => time r ≤ time a

theorem newer_perm (perm : answer.Perm rows) (r : R) : newer time answer r = newer time rows r :=
  perm.countP_eq _

theorem atLeast_perm (perm : answer.Perm rows) (r : R) :
    atLeast time answer r = atLeast time rows r :=
  perm.countP_eq _

/-- The place of a row is between the newer rows and those that are older. -/
theorem time_eq_iff (newest : Newest time rows answer) {r : R} {i : Nat}
    (inside : i < answer.length) :
    time answer[i] = time r ↔ newer time rows r ≤ i ∧ i < atLeast time rows r := by
  have later : answer.Pairwise fun a b =>
      decide (time r ≤ time b) = true → decide (time r ≤ time a) = true :=
    newest.sorted.imp fun {a b} below holds =>
      decide_eq_true ((of_decide_eq_true holds).trans below)
  have later' : answer.Pairwise fun a b =>
      decide (time r < time b) = true → decide (time r < time a) = true :=
    newest.sorted.imp fun {a b} below holds =>
      decide_eq_true ((of_decide_eq_true holds).trans_le below)
  have upper : time r ≤ time answer[i] ↔ i < atLeast time rows r := by
    rw [← atLeast_perm newest.perm, atLeast, ← holds_iff_lt_countP later inside, decide_eq_true_eq]
  have lower : time r < time answer[i] ↔ i < newer time rows r := by
    rw [← newer_perm newest.perm, newer, ← holds_iff_lt_countP later' inside, decide_eq_true_eq]
  rw [← upper, ← Nat.not_lt, ← lower, not_lt]
  exact ⟨fun same => ⟨same.le, same.ge⟩, fun both => le_antisymm both.1 both.2⟩

theorem newer_lt_atLeast (time : R → T) {r : R} (member : r ∈ rows) : newer time rows r < atLeast time rows r := by
  obtain ⟨answer, newest⟩ := exists_newest time rows
  obtain ⟨i, inside, here⟩ := List.getElem_of_mem (newest.perm.mem_iff.mpr member)
  have between := (time_eq_iff newest inside).mp (congrArg time here)
  omega

theorem atLeast_le (time : R → T) (rows : List R) (r : R) : atLeast time rows r ≤ rows.length := List.countP_le_length

end Places

section Pages
variable {size n : Nat}

def page (size : Nat) (answer : List R) (k : Nat) : List R := (answer.drop (k * size)).take size

/- The rows of one time stand on one page, whatever their order. -/
def OnOnePage (time : R → T) (size : Nat) (rows : List R) (r : R) : Prop :=
  newer time rows r / size = (atLeast time rows r - 1) / size

theorem page_eq_filter {q : R → Bool} {k : Nat} (positive : 0 < size)
    (here : ∀ i (inside : i < answer.length), q answer[i] = true ↔ i / size = k) :
    page size answer k = answer.filter q := by
  have parts : answer = answer.take (k * size) ++
      (page size answer k ++ answer.drop (k * size + size)) := by
    rw [page, ← List.drop_drop, List.take_append_drop, List.take_append_drop]
  have before : (answer.take (k * size)).filter q = [] := by
    rw [List.filter_eq_nil_iff]
    intro r member holds
    obtain ⟨i, inside, rfl⟩ := List.getElem_of_mem member
    rw [List.getElem_take, here, Nat.div_eq_iff positive] at holds
    rw [List.length_take] at inside
    omega
  have within : (page size answer k).filter q = page size answer k := by
    rw [List.filter_eq_self]
    intro r member
    obtain ⟨i, inside, rfl⟩ := List.getElem_of_mem member
    simp only [page, List.length_take, List.length_drop] at inside
    simp only [page, List.getElem_take, List.getElem_drop]
    rw [here, Nat.div_eq_iff positive]
    omega
  have after : (answer.drop (k * size + size)).filter q = [] := by
    rw [List.filter_eq_nil_iff]
    intro r member holds
    obtain ⟨i, inside, rfl⟩ := List.getElem_of_mem member
    rw [List.getElem_drop, here, Nat.div_eq_iff positive] at holds
    omega
  conv_rhs => rw [parts]
  rw [List.filter_append, List.filter_append, before, within, after, List.append_nil,
    List.nil_append]

/-- The pages of one answer make up its beginning. -/
theorem pages_of_one (size : Nat) (answer : List R) (n : Nat) :
    (List.range n).flatMap (page size answer) = answer.take (n * size) := by
  induction n with
  | zero => simp
  | succ n ih =>
    rw [List.range_succ, List.flatMap_append, ih, List.flatMap_singleton, Nat.succ_mul,
      List.take_add, page]

theorem parts_perm (f : R → Nat) (rows : List R) (n : Nat) :
    ((List.range n).flatMap fun k => rows.filter (f · = k)).Perm (rows.filter (f · < n)) := by
  induction n with
  | zero => simp
  | succ n ih =>
    rw [List.range_succ, List.flatMap_append, List.flatMap_singleton]
    have split := List.filter_append_perm (fun r => decide (f r < n))
      (rows.filter fun r => decide (f r < n + 1))
    rw [List.filter_filter, List.filter_filter] at split
    have first : (rows.filter fun r => decide (f r < n) && decide (f r < n + 1)) =
        rows.filter (f · < n) := by
      refine List.filter_congr fun r _ => ?_
      rw [← Bool.decide_and]
      exact decide_eq_decide.mpr (by omega)
    have second : (rows.filter fun r => !decide (f r < n) && decide (f r < n + 1)) =
        rows.filter (f · = n) := by
      refine List.filter_congr fun r _ => ?_
      rw [← decide_not, ← Bool.decide_and]
      exact decide_eq_decide.mpr (by omega)
    rw [first, second] at split
    exact (ih.append_right _).trans split

theorem page_of_newest (positive : 0 < size) (together : ∀ r ∈ rows, OnOnePage time size rows r)
    (newest : Newest time rows answer) (k : Nat) :
    (page size answer k).Perm (rows.filter (newer time rows · / size = k)) := by
  refine List.Perm.trans (.of_eq (page_eq_filter positive fun i inside => ?_))
    (newest.perm.filter _)
  have member : answer[i] ∈ rows := newest.perm.mem_iff.mp (List.getElem_mem inside)
  obtain ⟨above, below⟩ := (time_eq_iff newest inside).mp rfl
  have same : i / size = newer time rows answer[i] / size := by
    refine Nat.le_antisymm ?_ (Nat.div_le_div_right above)
    rw [together _ member]
    exact Nat.div_le_div_right (by omega)
  rw [decide_eq_true_eq, same]

/-- Pages cut out of different answers make up one answer where no page parts rows of one
time. -/
theorem newest_pages (positive : 0 < size) (together : ∀ r ∈ rows, OnOnePage time size rows r)
    {answers : Nat → List R} (newest : ∀ k, Newest time rows (answers k))
    (enough : rows.length ≤ n * size) :
    Newest time rows ((List.range n).flatMap fun k => page size (answers k) k) where
  perm := by
    have all : rows.filter (newer time rows · / size < n) = rows := by
      rw [List.filter_eq_self]
      intro r member
      have inside := newer_lt_atLeast time member
      have bound := atLeast_le time rows r
      rw [decide_eq_true_eq, Nat.div_lt_iff_lt_mul positive]
      omega
    have each := List.Perm.flatMap_left (List.range n)
      fun k _ => page_of_newest positive together (newest k) k
    have parts := parts_perm (newer time rows · / size) rows n
    rw [all] at parts
    exact each.trans parts
  sorted := by
    have cut : ∀ k, (page size (answers k) k).map time = page size ((answers 0).map time) k := by
      intro k
      rw [page, page, List.map_take, List.map_drop, times_eq (newest k) (newest 0)]
    refine sorted_of_times ?_
    rw [List.map_flatMap, funext cut, pages_of_one]
    exact (times_sorted (newest 0)).sublist (List.take_sublist _ _)

/-- Where a page parts rows of one time, one of them may be on it and on the next. -/
theorem together_of_pages (positive : 0 < size) (enough : rows.length ≤ n * size)
    (apart : ∀ answers : Nat → List R, (∀ k, Newest time rows (answers k)) →
      ((List.range n).flatMap fun k => page size (answers k) k).Nodup) :
    ∀ r ∈ rows, OnOnePage time size rows r := by
  intro r member
  by_contra parted
  obtain ⟨answer, newest⟩ := exists_newest time rows
  have length := newest.perm.length_eq
  have inside := newer_lt_atLeast time member
  have bound := atLeast_le time rows r
  let p := newer time rows r / size
  have later : p < (atLeast time rows r - 1) / size :=
    lt_of_le_of_ne (Nat.div_le_div_right (by omega)) parted
  have last : newer time rows r < (p + 1) * size := by
    rw [Nat.mul_comm]
    exact Nat.lt_mul_div_succ _ positive
  have next : (p + 1) * size ≤ atLeast time rows r - 1 :=
    (Nat.le_div_iff_mul_le positive).mp later
  obtain ⟨m, end_of_page⟩ : ∃ m, (p + 1) * size = m + 1 := ⟨(p + 1) * size - 1, by omega⟩
  have in_answer : m + 1 < answer.length := by omega
  have first_time : time answer[m] = time r := (time_eq_iff newest _).mpr (by omega)
  have second_time : time answer[m + 1] = time r := (time_eq_iff newest _).mpr (by omega)
  let swapped := answer.take m ++ answer[m + 1] :: answer[m] :: answer.drop (m + 2)
  have parts : answer = answer.take m ++ answer[m] :: answer[m + 1] :: answer.drop (m + 2) := by
    rw [List.getElem_cons_drop, List.getElem_cons_drop, List.take_append_drop]
  have newest_swapped : Newest time rows swapped := by
    refine ⟨?_, sorted_of_times ?_⟩
    · refine List.Perm.trans ?_ newest.perm
      conv_rhs => rw [parts]
      exact (List.Perm.swap _ _ _).append_left _
    · have same : swapped.map time = answer.map time := by
        have times := congrArg (List.map time) parts
        simp only [List.map_append, List.map_cons, first_time, second_time] at times
        simp only [swapped, List.map_append, List.map_cons, first_time, second_time]
        exact times.symm
      rw [same]
      exact times_sorted newest
  have on_page : answer[m] ∈ page size answer p := by
    rw [List.mem_iff_getElem]
    refine ⟨size - 1, ?_, ?_⟩
    · simp only [page, List.length_take, List.length_drop]
      rw [Nat.succ_mul] at end_of_page
      omega
    · simp only [page, List.getElem_take, List.getElem_drop]
      rw [Nat.succ_mul] at end_of_page
      congr 1
      omega
  have on_next : answer[m] ∈ page size swapped (p + 1) := by
    have taken : (answer.take m).length = m := by
      rw [List.length_take]
      omega
    rw [page, end_of_page, List.drop_append, taken, List.drop_eq_nil_of_le (by omega)]
    obtain ⟨rest, size_eq⟩ := Nat.exists_eq_succ_of_ne_zero positive.ne'
    have one : m + 1 - m = 1 := by omega
    rw [one, size_eq]
    exact List.mem_cons_self
  have nodup := apart (fun k => if k = p + 1 then swapped else answer) fun k => by
    by_cases here : k = p + 1
    · rw [if_pos here]
      exact newest_swapped
    · rw [if_neg here]
      exact newest
  rw [List.nodup_flatMap] at nodup
  have in_range : p + 1 < n := by
    refine Nat.lt_of_mul_lt_mul_right (a := size) ?_
    omega
  have disjoint := List.pairwise_iff_getElem.mp nodup.2 p (p + 1) (by simpa using by omega)
    (by simpa using in_range) (Nat.lt_succ_self p)
  simp only [List.getElem_range, Function.onFun, if_neg (Nat.succ_ne_self p).symm, if_pos] at disjoint
  exact disjoint on_page on_next

end Pages

end Arranged
