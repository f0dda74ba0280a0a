import Mathlib.Data.Char
import Mathlib.Data.String.Basic
import SentinelAgent.Library.Arranged
import SentinelAgent.Storage.CheckResults

/-!
Queries of the check results. The column of the execution time holds a text to the second, and
the bounds of a query are texts too, in another format; texts are compared.
-/
namespace SentinelAgent.ResultQueries
open CheckResults AutoTables Arranged

/- A time by its calendar fields. A leap second is the 60th. -/
structure Moment where
  year : Int
  month : Fin 13
  day : Fin 32
  hour : Fin 24
  minute : Fin 60
  second : Fin 61
  nanos : Fin 1000000000
  deriving DecidableEq

def Moment.whole (m : Moment) : Moment := { m with nanos := 0 }

/- The fields up to the second, in their order. -/
def Moment.seconds (m : Moment) : List Int := [m.year, m.month, m.day, m.hour, m.minute, m.second]

def digits : Nat → Nat → List Char
  | 0, _ => []
  | width + 1, n => digits width (n / 10) ++ [Nat.digitChar (n % 10)]

/- A year that four digits do not hold has a sign. -/
def yearText (year : Int) : List Char :=
  if 0 ≤ year ∧ year < 10000 then digits 4 year.toNat
  else (if year < 0 then '-' else '+') ::
    if year.natAbs < 10000 then digits 4 year.natAbs else Nat.toDigits 10 year.natAbs

def Moment.toSecond (m : Moment) : List Char :=
  yearText m.year ++ ('-' :: digits 2 m.month ++ ('-' :: digits 2 m.day ++ ('T' :: digits 2 m.hour ++
    (':' :: digits 2 m.minute ++ (':' :: digits 2 m.second)))))

/- `%Y-%m-%dT%H:%M:%SZ`. -/
def Moment.stored (m : Moment) : List Char := m.toSecond ++ ['Z']

/- As many digits of the fraction as it needs, in threes. -/
def fraction (nanos : Nat) : List Char :=
  if nanos = 0 then []
  else if nanos % 1000000 = 0 then '.' :: digits 3 (nanos / 1000000)
  else if nanos % 1000 = 0 then '.' :: digits 6 (nanos / 1000)
  else '.' :: digits 9 nanos

def Moment.toRfc3339 (m : Moment) : List Char :=
  m.toSecond ++ (fraction m.nanos ++ ['+', '0', '0', ':', '0', '0'])

/- A row of the table. Its execution time is written as `stored`. -/
structure StoredResult where
  id : Nat
  checkRuleId : String
  status : String
  score : Option Int
  message : Option String
  rawData : Option String
  executed : Moment
  durationMs : Option Int
  synced : Bool
  deriving DecidableEq

structure Result where
  id : Nat
  checkRuleId : String
  status : CheckStatus
  score : Option Int
  message : Option String
  rawData : Option String
  executedAt : Moment
  durationMs : Option Int
  synced : Bool
  deriving DecidableEq

def StoredResult.executedAt (row : StoredResult) : List Char := row.executed.stored

def StoredResult.told (row : StoredResult) (executedAt : Moment) : Result where
  id := row.id
  checkRuleId := row.checkRuleId
  status := (CheckStatus.parseStr row.status).getD .error
  score := row.score
  message := row.message
  rawData := row.rawData
  executedAt := executedAt
  durationMs := row.durationMs
  synced := row.synced

abbrev ResultsTable := AutoTable StoredResult.id

structure ResultQuery where
  checkRuleId : Option String
  status : Option CheckStatus
  fromDate : Option Moment
  toDate : Option Moment
  synced : Option Bool
  limit : Option Int
  offset : Option Int

section Reads
variable (parse : List Char → Option Moment)

def rowToCheckResult (row : StoredResult) : Option Result := (parse row.executedAt).map row.told

/- The filters of a query, given how its dates are compared with a row. -/
def ResultQuery.filters (query : ResultQuery) (from_date to_date : Moment → StoredResult → Bool)
    (row : StoredResult) : Bool :=
  query.checkRuleId.all (row.checkRuleId == ·) && query.status.all (row.status == ·.asStr) &&
    query.fromDate.all (from_date · row) && query.toDate.all (to_date · row) &&
    query.synced.all (row.synced == ·)

/- `executed_at >= ?` and `executed_at <= ?`. -/
def ResultQuery.selects (query : ResultQuery) : StoredResult → Bool :=
  query.filters (fun date row => date.toRfc3339 ≤ row.executedAt)
    fun date row => row.executedAt ≤ date.toRfc3339

/- `LIMIT ? OFFSET ?`: a negative limit is none, a negative offset is zero. -/
def ResultQuery.window (query : ResultQuery) (rows : List StoredResult) : List StoredResult :=
  let rest := rows.drop (query.offset.getD 0).toNat
  match query.limit with
  | none => rest
  | some limit => if limit < 0 then rest else rest.take limit.toNat

/- What the query can answer, nothing where it fails. `OFFSET` without `LIMIT` is no statement,
   and of rows of one time the statement does not say which comes first. -/
def Query (t : ResultsTable) (query : ResultQuery) (answer : Option (List Result)) : Prop :=
  if query.offset.isSome ∧ query.limit.isNone then answer = none
  else ∃ rows, Newest StoredResult.executedAt (t.rows.filter query.selects) rows ∧
    answer = (query.window rows).mapM (rowToCheckResult parse)

/- The rows joined with the greatest time of their rule, in the order of the rules. -/
def GetLatestPerRule (t : ResultsTable) (answer : Option (List Result)) : Prop :=
  ∃ rows : List StoredResult, rows.Perm (t.rows.filter fun row => t.rows.all fun other =>
      other.checkRuleId != row.checkRuleId || decide (other.executedAt ≤ row.executedAt)) ∧
    (rows.map StoredResult.checkRuleId).Pairwise (· ≤ ·) ∧
    answer = rows.mapM (rowToCheckResult parse)

def deleteOlderThan (before : Moment) (t : ResultsTable) : ResultsTable :=
  t.keep fun row => !decide (row.executedAt < before.toRfc3339)

end Reads

section Texts

theorem digitChar_lt {a b : Nat} (first : a < 10) (second : b < 10) :
    Nat.digitChar a < Nat.digitChar b ↔ a < b := by
  have all : ∀ a b : Fin 10, Nat.digitChar a < Nat.digitChar b ↔ a.val < b.val := by decide
  exact all ⟨a, first⟩ ⟨b, second⟩

theorem digitChar_inj {a b : Nat} (first : a < 10) (second : b < 10) :
    Nat.digitChar a = Nat.digitChar b ↔ a = b := by
  have all : ∀ a b : Fin 10, Nat.digitChar a = Nat.digitChar b ↔ a.val = b.val := by decide
  exact all ⟨a, first⟩ ⟨b, second⟩

/-- Numbers of one width are ordered as their digits are. -/
theorem digits_lt {width n m : Nat} (first : n < 10 ^ width) (second : m < 10 ^ width)
    (x y : List Char) : digits width n ++ x < digits width m ++ y ↔ n < m ∨ n = m ∧ x < y := by
  induction width generalizing n m x y with
  | zero =>
    have both : n = 0 ∧ m = 0 := by omega
    simp [digits, both]
  | succ width ih =>
    rw [Nat.pow_succ] at first second
    simp only [digits, List.append_assoc, List.singleton_append]
    rw [ih (by omega) (by omega), List.cons_lt_cons_iff, digitChar_lt (Nat.mod_lt _ (by omega))
      (Nat.mod_lt _ (by omega)), digitChar_inj (Nat.mod_lt _ (by omega)) (Nat.mod_lt _ (by omega))]
    by_cases rest : x < y
    · simp only [rest, and_true]
      omega
    · simp only [rest, and_false, or_false]
      omega

def FourDigits (m : Moment) : Prop := 0 ≤ m.year ∧ m.year < 10000

theorem toSecond_lt {m m' : Moment} (fits : FourDigits m) (fits' : FourDigits m')
    (x y : List Char) : m.toSecond ++ x < m'.toSecond ++ y ↔
      m.seconds < m'.seconds ∨ m.seconds = m'.seconds ∧ x < y := by
  unfold FourDigits at fits fits'
  simp only [Moment.toSecond, yearText, if_pos fits, if_pos fits', List.append_assoc,
    List.cons_append, Moment.seconds]
  rw [digits_lt (by omega) (by omega), List.cons_lt_cons_iff, digits_lt (by omega) (by omega),
    List.cons_lt_cons_iff, digits_lt (by omega) (by omega), List.cons_lt_cons_iff,
    digits_lt (by omega) (by omega), List.cons_lt_cons_iff, digits_lt (by omega) (by omega),
    List.cons_lt_cons_iff, digits_lt (by omega) (by omega)]
  simp only [List.cons_lt_cons_iff, lt_irrefl, false_or, true_and, List.cons.injEq, and_true]
  by_cases rest : x < y
  · simp only [rest, and_true]
    omega
  · simp only [rest, and_false, or_false]
    omega

/- The letter after the seconds is later than what follows them in a bound. -/
theorem bound_lt_stored {m m' : Moment} (fits : FourDigits m) (fits' : FourDigits m') :
    m.toRfc3339 < m'.stored ↔ m.seconds ≤ m'.seconds := by
  rw [Moment.toRfc3339, Moment.stored, toSecond_lt fits fits', le_iff_lt_or_eq]
  have before : fraction m.nanos ++ ['+', '0', '0', ':', '0', '0'] < ['Z'] := by
    unfold fraction
    split_ifs <;> exact List.cons_lt_cons_iff.mpr (Or.inl (by decide))
  simp only [before, and_true]

theorem stored_lt_bound {m m' : Moment} (fits : FourDigits m) (fits' : FourDigits m') :
    m.stored < m'.toRfc3339 ↔ m.seconds < m'.seconds := by
  rw [Moment.toRfc3339, Moment.stored, toSecond_lt fits fits']
  have after : ¬ ['Z'] < fraction m'.nanos ++ ['+', '0', '0', ':', '0', '0'] := by
    unfold fraction
    split_ifs <;>
      exact fun less => (List.cons_lt_cons_iff.mp less).elim (by decide) fun same =>
        absurd same.1 (by decide)
  simp only [after, and_false, or_false]

theorem stored_lt {m m' : Moment} (fits : FourDigits m) (fits' : FourDigits m') :
    m.stored < m'.stored ↔ m.seconds < m'.seconds := by
  rw [Moment.stored, Moment.stored, toSecond_lt fits fits']
  simp only [lt_irrefl, and_false, or_false]

end Texts

section Meant

def StoredResult.time (row : StoredResult) : List Int := row.executed.seconds

/- The row as it is told, its time at the stored precision. -/
def StoredResult.result (row : StoredResult) : Result := row.told row.executed.whole

/- The filters as they are meant: both dates belong to the range, to the second. -/
def ResultQuery.wanted (query : ResultQuery) : StoredResult → Bool :=
  query.filters (fun date row => date.seconds ≤ row.time) fun date row => row.time ≤ date.seconds

def Right (t : ResultsTable) (query : ResultQuery) (answer : Option (List Result)) : Prop :=
  ∃ rows, Newest StoredResult.time (t.rows.filter query.wanted) rows ∧
    answer = some ((query.window rows).map StoredResult.result)

def ResultQuery.since (query : ResultQuery) (start : Option Int) : ResultQuery :=
  { query with limit := none, offset := start }

def ResultQuery.page (query : ResultQuery) (size k : Nat) : ResultQuery :=
  { query with limit := some size, offset := some (k * size : Nat) }

/- Inserted last among those of the greatest time of its rule. -/
def LastOfRule (t : ResultsTable) (row : StoredResult) : Prop :=
  row ∈ t ∧ ∀ other ∈ t, other.checkRuleId = row.checkRuleId →
    other.time < row.time ∨ other.time = row.time ∧ other.id ≤ row.id

structure MeanIt (parse : List Char → Option Moment) (t : ResultsTable) (filters : ResultQuery)
    (start : Option Int) (size : Nat) (before : Moment) : Prop where
  whole : ∀ answer, Query parse t (filters.since start) answer →
    Right t (filters.since start) answer
  paged : ∀ answers : Nat → Option (List Result),
    (∀ k, Query parse t (filters.page size k) (answers k)) →
      ∃ pages : Nat → List Result, (∀ k, answers k = some (pages k)) ∧
        ∀ n, (t.rows.filter filters.wanted).length ≤ n * size →
          ∃ rows, Newest StoredResult.time (t.rows.filter filters.wanted) rows ∧
            (List.range n).flatMap pages = rows.map StoredResult.result
  deleted : ∀ row, row ∈ deleteOlderThan before t ↔ row ∈ t ∧ ¬ row.time < before.seconds
  latest : ∀ answer, GetLatestPerRule parse t answer → ∃ rows : List StoredResult,
    answer = some (rows.map StoredResult.result) ∧
      (rows.map StoredResult.checkRuleId).Nodup ∧ ∀ row, row ∈ rows ↔ LastOfRule t row

/- An offset comes with a limit, no wanted result is of the last second asked for, a page parts
   no results of one second, and the newest result of a rule is alone in its second. -/
structure Clear (t : ResultsTable) (filters : ResultQuery) (start : Option Int) (size : Nat) :
    Prop where
  no_start : start = none
  before_end : ∀ date ∈ filters.toDate, ∀ row ∈ t, filters.wanted row = true →
    row.time ≠ date.seconds
  together : ∀ row ∈ t.rows.filter filters.wanted,
    OnOnePage StoredResult.time size (t.rows.filter filters.wanted) row
  alone : ∀ row ∈ t, (∀ other ∈ t, other.checkRuleId = row.checkRuleId →
    other.time ≤ row.time) → ∀ other ∈ t, other.checkRuleId = row.checkRuleId →
      other.time = row.time → other = row

/- Every time is one that the column can hold. -/
structure InFourDigits (t : ResultsTable) (filters : ResultQuery) (before : Moment) : Prop where
  rows : ∀ row ∈ t, FourDigits row.executed
  fromDate : ∀ date ∈ filters.fromDate, FourDigits date
  toDate : ∀ date ∈ filters.toDate, FourDigits date
  before : FourDigits before

end Meant

section Answers
variable {parse : List Char → Option Moment} {t : ResultsTable} {filters : ResultQuery}
  {before : Moment} {rows answer : List StoredResult} {size : Nat}

theorem told_rows (reads : ∀ m, FourDigits m → parse m.stored = some m.whole)
    (fit : ∀ row ∈ rows, FourDigits row.executed) :
    rows.mapM (rowToCheckResult parse) = some (rows.map StoredResult.result) := by
  induction rows with
  | nil => rfl
  | cons row rows ih =>
    have first : rowToCheckResult parse row = some row.result := by
      rw [rowToCheckResult, StoredResult.executedAt, reads _ (fit row List.mem_cons_self)]
      rfl
    rw [List.mapM_cons, first, ih fun other member => fit other (List.mem_cons_of_mem row member)]
    rfl

theorem newest_iff (fit : ∀ row ∈ rows, FourDigits row.executed) :
    Newest StoredResult.executedAt rows answer ↔ Newest StoredResult.time rows answer := by
  have same : ∀ perm : answer.Perm rows,
      (answer.Pairwise (fun a b => b.executedAt ≤ a.executedAt) ↔
        answer.Pairwise (fun a b => b.time ≤ a.time)) := by
    intro perm
    refine List.Pairwise.iff_of_mem fun {a b} first second => ?_
    rw [← not_lt, ← not_lt, StoredResult.executedAt, StoredResult.executedAt,
      stored_lt (fit a (perm.mem_iff.mp first)) (fit b (perm.mem_iff.mp second))]
    rfl
  constructor
  · intro newest
    exact ⟨newest.perm, (same newest.perm).mp newest.sorted⟩
  · intro newest
    exact ⟨newest.perm, (same newest.perm).mpr newest.sorted⟩

theorem selects_iff (fit : InFourDigits t filters before) {row : StoredResult} (member : row ∈ t) :
    filters.selects row = true ↔ filters.wanted row = true ∧
      ∀ date ∈ filters.toDate, row.time ≠ date.seconds := by
  have stored_fits := fit.rows row member
  have from_same : filters.fromDate.all (fun date => decide (date.toRfc3339 ≤ row.executedAt)) =
      filters.fromDate.all fun date => decide (date.seconds ≤ row.time) := by
    cases given : filters.fromDate with
    | none => rfl
    | some date =>
      have date_fits := fit.fromDate date given
      have inclusive : date.toRfc3339 ≤ row.executedAt ↔ date.seconds ≤ row.time := by
        rw [← not_lt, StoredResult.executedAt, stored_lt_bound stored_fits date_fits, not_lt]
        rfl
      rw [Option.all_some, Option.all_some, decide_eq_decide.mpr inclusive]
  unfold ResultQuery.selects ResultQuery.wanted ResultQuery.filters
  rw [from_same]
  cases given : filters.toDate with
  | none => simp
  | some date =>
    have date_fits := fit.toDate date given
    have strict : row.executedAt ≤ date.toRfc3339 ↔ row.time ≤ date.seconds ∧
        row.time ≠ date.seconds := by
      rw [← not_lt, StoredResult.executedAt, bound_lt_stored date_fits stored_fits, not_le,
        ← lt_iff_le_and_ne]
      rfl
    simp only [Option.all_some, strict, Option.mem_def, Option.some.injEq, forall_eq',
      Bool.and_eq_true, decide_eq_true_eq]
    tauto

theorem deleted_iff (fit : InFourDigits t filters before) (row : StoredResult) :
    row ∈ deleteOlderThan before t ↔ row ∈ t ∧ ¬ row.time < before.seconds := by
  rw [deleteOlderThan, AutoTable.mem_keep]
  refine and_congr_right fun member => ?_
  rw [Bool.not_eq_true', decide_eq_false_iff_not, StoredResult.executedAt,
    stored_lt_bound (fit.rows row member) fit.before]
  rfl

theorem fit_wanted (fit : InFourDigits t filters before) {p : StoredResult → Bool} :
    ∀ row ∈ t.rows.filter p, FourDigits row.executed :=
  fun row member => fit.rows row (List.mem_filter.mp member).1

theorem window_subset (query : ResultQuery) (rows : List StoredResult) :
    query.window rows ⊆ rows := by
  unfold ResultQuery.window
  cases query.limit with
  | none => exact List.drop_subset _ _
  | some limit =>
    simp only
    split_ifs
    · exact List.drop_subset _ _
    · exact List.Subset.trans (List.take_subset _ _) (List.drop_subset _ _)

/-- What a query that is a statement answers: the rows it selects, and a window of them. -/
theorem query_iff (reads : ∀ m, FourDigits m → parse m.stored = some m.whole)
    (fit : InFourDigits t filters before) {query : ResultQuery}
    (statement : ¬ (query.offset.isSome ∧ query.limit.isNone)) (told : Option (List Result)) :
    Query parse t query told ↔ ∃ rows, Newest StoredResult.time (t.rows.filter query.selects) rows ∧
      told = some ((query.window rows).map StoredResult.result) := by
  rw [Query, if_neg statement]
  refine exists_congr fun rows => ?_
  rw [newest_iff (fit_wanted fit)]
  refine and_congr_right fun newest => ?_
  rw [told_rows reads fun row member => fit_wanted fit row
    (newest.perm.mem_iff.mp (window_subset query rows member))]

/-- All that is wanted is selected where nothing of it is of the last second. -/
theorem selects_eq (fit : InFourDigits t filters before)
    (before_end : ∀ date ∈ filters.toDate, ∀ row ∈ t, filters.wanted row = true →
      row.time ≠ date.seconds) :
    t.rows.filter filters.selects = t.rows.filter filters.wanted := by
  refine List.filter_congr fun row member => ?_
  rw [Bool.eq_iff_iff, selects_iff fit member]
  exact ⟨fun both => both.1, fun wanted => ⟨wanted, fun date given =>
    before_end date given row member wanted⟩⟩

theorem before_end_of_length (fit : InFourDigits t filters before)
    (same : (t.rows.filter filters.selects).length = (t.rows.filter filters.wanted).length) :
    ∀ date ∈ filters.toDate, ∀ row ∈ t, filters.wanted row = true → row.time ≠ date.seconds := by
  intro date given row member wanted at_end
  have fewer : t.rows.filter filters.selects =
      (t.rows.filter filters.wanted).filter filters.selects := by
    rw [List.filter_filter]
    refine List.filter_congr fun other there => ?_
    rw [Bool.eq_iff_iff, Bool.and_eq_true, selects_iff fit there]
    tauto
  have missing : ¬ filters.selects row = true := by
    rw [selects_iff fit member]
    exact fun both => both.2 date given at_end
  rw [fewer] at same
  have less := List.length_filter_lt_length_iff_exists.mpr
    ⟨row, List.mem_filter.mpr ⟨member, wanted⟩, missing⟩
  omega

theorem ids_nodup (t : ResultsTable) : (t.rows.map StoredResult.id).Nodup := t.keys_nodup

theorem ids_of_results (rows : List StoredResult) :
    (rows.map StoredResult.result).map Result.id = rows.map StoredResult.id := by
  rw [List.map_map]
  rfl

theorem page_window (filters : ResultQuery) (size k : Nat) (rows : List StoredResult) :
    (filters.page size k).window rows = page size rows k := by
  have whole_number : ¬ (size : Int) < 0 := by omega
  simp only [ResultQuery.window, ResultQuery.page, whole_number, if_false, Option.getD_some,
    Int.toNat_natCast, Arranged.page]

end Answers

section WholeQuery
variable {parse : List Char → Option Moment} {t : ResultsTable} {filters : ResultQuery}
  {before : Moment} {size : Nat} {start : Option Int}

theorem whole_iff (reads : ∀ m, FourDigits m → parse m.stored = some m.whole)
    (fit : InFourDigits t filters before) :
    (∀ told, Query parse t (filters.since start) told → Right t (filters.since start) told) ↔
      start = none ∧ ∀ date ∈ filters.toDate, ∀ row ∈ t, filters.wanted row = true →
        row.time ≠ date.seconds := by
  constructor
  · intro right
    have no_start : start = none := by
      by_contra given
      have fails : Query parse t (filters.since start) none := by
        rw [Query, if_pos ⟨by simpa [ResultQuery.since, Option.isSome_iff_ne_none] using given, rfl⟩]
      obtain ⟨rows, _, told⟩ := right none fails
      cases told
    subst no_start
    refine ⟨rfl, before_end_of_length fit ?_⟩
    obtain ⟨rows, newest⟩ := exists_newest StoredResult.time
      (t.rows.filter (filters.since none).selects)
    obtain ⟨others, newest', told⟩ := right _ ((query_iff reads fit (by simp [ResultQuery.since]) _).mpr ⟨rows, newest, rfl⟩)
    have lengths := congrArg List.length (Option.some.inj told)
    rw [List.length_map, List.length_map] at lengths
    exact newest.perm.length_eq.symm.trans (lengths.trans newest'.perm.length_eq)
  · rintro ⟨rfl, before_end⟩ told answered
    obtain ⟨rows, newest, rfl⟩ := (query_iff reads fit (by simp [ResultQuery.since]) _).mp answered
    refine ⟨rows, ?_, rfl⟩
    have same := selects_eq fit before_end
    exact same ▸ newest

theorem page_answers (reads : ∀ m, FourDigits m → parse m.stored = some m.whole)
    (fit : InFourDigits t filters before)
    (before_end : ∀ date ∈ filters.toDate, ∀ row ∈ t, filters.wanted row = true →
      row.time ≠ date.seconds) (k : Nat) (told : Option (List Result)) :
    Query parse t (filters.page size k) told ↔ ∃ rows,
      Newest StoredResult.time (t.rows.filter filters.wanted) rows ∧
        told = some ((page size rows k).map StoredResult.result) := by
  rw [query_iff reads fit
    (by simp [ResultQuery.page]), ← selects_eq fit before_end]
  refine exists_congr fun rows => ?_
  rw [page_window]
  rfl

/-- Every result is on one page, whichever answers the pages are cut out of, where no page parts
results of one second. -/
theorem paged_iff (reads : ∀ m, FourDigits m → parse m.stored = some m.whole)
    (fit : InFourDigits t filters before) (positive : 0 < size)
    (before_end : ∀ date ∈ filters.toDate, ∀ row ∈ t, filters.wanted row = true →
      row.time ≠ date.seconds) :
    (∀ answers : Nat → Option (List Result), (∀ k, Query parse t (filters.page size k) (answers k)) →
      ∃ pages : Nat → List Result, (∀ k, answers k = some (pages k)) ∧
        ∀ n, (t.rows.filter filters.wanted).length ≤ n * size →
          ∃ rows, Newest StoredResult.time (t.rows.filter filters.wanted) rows ∧
            (List.range n).flatMap pages = rows.map StoredResult.result) ↔
      ∀ row ∈ t.rows.filter filters.wanted,
        OnOnePage StoredResult.time size (t.rows.filter filters.wanted) row := by
  constructor
  · intro partition
    refine together_of_pages positive (Nat.le_mul_of_pos_right _ positive) fun answers newest => ?_
    obtain ⟨pages, told, whole⟩ := partition
      (fun k => some ((page size (answers k) k).map StoredResult.result)) fun k =>
        (page_answers reads fit before_end k _).mpr ⟨answers k, newest k, rfl⟩
    obtain ⟨rows, newest', parts⟩ := whole _ (Nat.le_mul_of_pos_right _ positive)
    have same : pages = fun k => (page size (answers k) k).map StoredResult.result :=
      funext fun k => (Option.some.inj (told k)).symm
    rw [same, ← List.map_flatMap] at parts
    have ids := congrArg (List.map Result.id) parts
    rw [ids_of_results, ids_of_results] at ids
    have once : (rows.map StoredResult.id).Nodup :=
      ((newest'.perm.map _).nodup_iff).mpr
        ((ids_nodup t).sublist (List.filter_sublist.map _))
    exact List.Nodup.of_map StoredResult.id (ids ▸ once)
  · intro together answers answered
    have each := fun k => (page_answers reads fit before_end k _).mp (answered k)
    choose rows newest told using each
    refine ⟨fun k => (page size (rows k) k).map StoredResult.result, told, fun n enough => ?_⟩
    refine ⟨_, newest_pages positive together newest enough, ?_⟩
    rw [List.map_flatMap]

end WholeQuery

section Latest
variable {parse : List Char → Option Moment} {t : ResultsTable} {filters : ResultQuery}
  {before : Moment} {row : StoredResult}

/- The rows of their rule's greatest time. -/
def tops (t : ResultsTable) : List StoredResult :=
  t.rows.filter fun row => t.rows.all fun other =>
    other.checkRuleId != row.checkRuleId || decide (other.executedAt ≤ row.executedAt)

theorem mem_tops (fit : InFourDigits t filters before) : row ∈ tops t ↔ row ∈ t ∧
    ∀ other ∈ t, other.checkRuleId = row.checkRuleId → other.time ≤ row.time := by
  rw [tops, List.mem_filter, AutoTable.mem_rows]
  refine and_congr_right fun member => ?_
  simp only [List.all_eq_true, AutoTable.mem_rows, Bool.or_eq_true, bne_iff_ne, ne_eq,
    decide_eq_true_eq, ← imp_iff_not_or]
  refine forall_congr' fun other => forall_congr' fun there => imp_congr_right fun _ => ?_
  rw [← not_lt, StoredResult.executedAt, StoredResult.executedAt,
    stored_lt (fit.rows row member) (fit.rows other there), not_lt]
  rfl

theorem latest_answers (reads : ∀ m, FourDigits m → parse m.stored = some m.whole)
    (fit : InFourDigits t filters before) (told : Option (List Result)) :
    GetLatestPerRule parse t told ↔ ∃ rows : List StoredResult, rows.Perm (tops t) ∧
      (rows.map StoredResult.checkRuleId).Pairwise (· ≤ ·) ∧
        told = some (rows.map StoredResult.result) := by
  refine exists_congr fun rows => and_congr_right fun perm => and_congr_right fun _ => ?_
  rw [told_rows reads fun row member => fit_wanted fit row (perm.mem_iff.mp member)]

/-- Where the newest results of all rules are alone in their second, they are the rows of their
rule's greatest time. -/
theorem lastOfRule_iff (fit : InFourDigits t filters before)
    (alone : ∀ row ∈ t, (∀ other ∈ t, other.checkRuleId = row.checkRuleId →
      other.time ≤ row.time) → ∀ other ∈ t, other.checkRuleId = row.checkRuleId →
        other.time = row.time → other = row) : row ∈ tops t ↔ LastOfRule t row := by
  rw [mem_tops fit, LastOfRule]
  refine and_congr_right fun member => ?_
  constructor
  · intro greatest other there same
    rcases (greatest other there same).lt_or_eq with less | tie
    · exact Or.inl less
    · exact Or.inr ⟨tie, (congrArg StoredResult.id
        (alone row member greatest other there same tie)).le⟩
  · intro last other there same
    rcases last other there same with less | ⟨tie, _⟩
    · exact less.le
    · exact tie.le

theorem exists_latest (t : ResultsTable) : ∃ rows : List StoredResult, rows.Perm (tops t) ∧
    (rows.map StoredResult.checkRuleId).Pairwise (· ≤ ·) := by
  obtain ⟨rows, newest⟩ := exists_newest
    (fun row : StoredResult => OrderDual.toDual row.checkRuleId) (tops t)
  exact ⟨rows, newest.perm, List.pairwise_map.mpr newest.sorted⟩

theorem latest_iff (reads : ∀ m, FourDigits m → parse m.stored = some m.whole)
    (fit : InFourDigits t filters before) :
    (∀ told, GetLatestPerRule parse t told → ∃ rows : List StoredResult,
      told = some (rows.map StoredResult.result) ∧ (rows.map StoredResult.checkRuleId).Nodup ∧
        ∀ row, row ∈ rows ↔ LastOfRule t row) ↔
      ∀ row ∈ t, (∀ other ∈ t, other.checkRuleId = row.checkRuleId → other.time ≤ row.time) →
        ∀ other ∈ t, other.checkRuleId = row.checkRuleId → other.time = row.time →
          other = row := by
  constructor
  · intro one row member greatest other there same tie
    obtain ⟨tops_rows, perm, sorted⟩ := exists_latest t
    obtain ⟨rows, told, nodup, _⟩ := one _ ((latest_answers reads fit _).mpr
      ⟨tops_rows, perm, sorted, rfl⟩)
    have rules := congrArg (List.map Result.checkRuleId) (Option.some.inj told)
    rw [List.map_map, List.map_map] at rules
    have nodup' : (tops_rows.map StoredResult.checkRuleId).Nodup := by
      have unfolded : rows.map StoredResult.checkRuleId = tops_rows.map StoredResult.checkRuleId :=
        rules.symm
      rwa [← unfolded]
    have top : row ∈ tops_rows := perm.mem_iff.mpr ((mem_tops fit).mpr ⟨member, greatest⟩)
    have other_top : other ∈ tops_rows := by
      refine perm.mem_iff.mpr ((mem_tops fit).mpr ⟨there, fun third in_table same_rule => ?_⟩)
      rw [tie]
      exact greatest third in_table (same_rule.trans same)
    exact List.inj_on_of_nodup_map nodup' other_top top same
  · intro alone told answered
    obtain ⟨rows, perm, _, rfl⟩ := (latest_answers reads fit _).mp answered
    refine ⟨rows, rfl, ?_, fun row => ?_⟩
    · have rows_nodup : rows.Nodup := perm.nodup_iff.mpr
        ((List.Nodup.of_map _ (ids_nodup t)).filter _)
      refine rows_nodup.map_on fun row member other there same => ?_
      obtain ⟨in_table, greatest⟩ := (mem_tops fit).mp (perm.mem_iff.mp member)
      obtain ⟨in_table', greatest'⟩ := (mem_tops fit).mp (perm.mem_iff.mp there)
      exact (alone row in_table greatest other in_table' same.symm
        (le_antisymm (greatest other in_table' same.symm) (greatest' row in_table same))).symm
    · rw [perm.mem_iff]
      exact lastOfRule_iff fit alone

end Latest

/-- When the queries of the results mean what they say, for any table, filters, page size and
bound. -/
theorem queries_meant_iff {parse : List Char → Option Moment} {t : ResultsTable}
    {filters : ResultQuery} {start : Option Int} {size : Nat} {before : Moment}
    (reads : ∀ m, FourDigits m → parse m.stored = some m.whole) (positive : 0 < size)
    (fit : InFourDigits t filters before) :
    MeanIt parse t filters start size before ↔ Clear t filters start size := by
  constructor
  · intro meant
    obtain ⟨no_start, before_end⟩ := (whole_iff reads fit).mp meant.whole
    exact ⟨no_start, before_end, (paged_iff reads fit positive before_end).mp meant.paged,
      (latest_iff reads fit).mp meant.latest⟩
  · intro clear
    exact ⟨(whole_iff reads fit).mpr ⟨clear.no_start, clear.before_end⟩,
      (paged_iff reads fit positive clear.before_end).mpr clear.together, deleted_iff fit,
      (latest_iff reads fit).mpr clear.alone⟩

section Example

def readDigits (text : List Char) : Nat := text.foldl (fun n c => 10 * n + (c.toNat - 48)) 0

/- What `stored` writes, read by the places of its numbers. -/
def parseStored (text : List Char) : Option Moment :=
  let month := readDigits ((text.drop 5).take 2)
  let day := readDigits ((text.drop 8).take 2)
  let hour := readDigits ((text.drop 11).take 2)
  let minute := readDigits ((text.drop 14).take 2)
  let second := readDigits ((text.drop 17).take 2)
  if fits : month < 13 ∧ day < 32 ∧ hour < 24 ∧ minute < 60 ∧ second < 61 then
    some ⟨readDigits (text.take 4), ⟨month, fits.1⟩, ⟨day, fits.2.1⟩, ⟨hour, fits.2.2.1⟩,
      ⟨minute, fits.2.2.2.1⟩, ⟨second, fits.2.2.2.2⟩, 0⟩
  else none

theorem readDigits_two {n : Nat} (fits : n < 100) : readDigits (digits 2 n) = n := by
  have first := Nat.toNat_digitChar_of_lt_ten (Nat.mod_lt (n / 10) (by decide))
  have second := Nat.toNat_digitChar_of_lt_ten (Nat.mod_lt n (by decide))
  simp only [digits, readDigits, List.nil_append, List.singleton_append, List.foldl_cons,
    List.foldl_nil, first, second]
  omega

theorem readDigits_four {n : Nat} (fits : n < 10000) : readDigits (digits 4 n) = n := by
  have place (k : Nat) := Nat.toNat_digitChar_of_lt_ten (Nat.mod_lt k (by decide : 0 < 10))
  simp only [digits, readDigits, List.nil_append, List.cons_append, List.foldl_cons,
    List.foldl_nil, place]
  omega

theorem parseStored_reads (m : Moment) (fits : FourDigits m) :
    parseStored m.stored = some m.whole := by
  have text : m.stored = digits 4 m.year.toNat ++ ('-' :: digits 2 m.month ++
      ('-' :: digits 2 m.day ++ ('T' :: digits 2 m.hour ++ (':' :: digits 2 m.minute ++
        (':' :: digits 2 m.second))))) ++ ['Z'] := by
    rw [Moment.stored, Moment.toSecond, yearText, if_pos ⟨fits.1, fits.2⟩]
  have year : readDigits (m.stored.take 4) = m.year.toNat := by
    rw [text]
    exact readDigits_four (by unfold FourDigits at fits; omega)
  have month : readDigits ((m.stored.drop 5).take 2) = m.month := by
    rw [text]
    exact readDigits_two (by omega)
  have day : readDigits ((m.stored.drop 8).take 2) = m.day := by
    rw [text]
    exact readDigits_two (by omega)
  have hour : readDigits ((m.stored.drop 11).take 2) = m.hour := by
    rw [text]
    exact readDigits_two (by omega)
  have minute : readDigits ((m.stored.drop 14).take 2) = m.minute := by
    rw [text]
    exact readDigits_two (by omega)
  have second : readDigits ((m.stored.drop 17).take 2) = m.second := by
    rw [text]
    exact readDigits_two (by omega)
  have year_back : (m.year.toNat : Int) = m.year := Int.toNat_of_nonneg fits.1
  simp only [parseStored, year, month, day, hour, minute, second, year_back]
  rw [dif_pos ⟨m.month.isLt, m.day.isLt, m.hour.isLt, m.minute.isLt, m.second.isLt⟩]
  rfl

def noon : Moment := ⟨2026, 3, 1, 12, 0, 0, 0⟩

/- One result, of noon. -/
def oneResult : ResultsTable := (AutoTable.empty StoredResult.id).insert {
  make := fun id => ⟨id, "disk_encryption", "pass", some 100, none, none, noon, none, false⟩
  keyed := fun _ => rfl }

def everything : ResultQuery := ⟨none, none, none, none, none, none, none⟩

def untilNoon : ResultQuery := { everything with toDate := some noon }

theorem fit_oneResult {filters : ResultQuery} (no_start : filters.fromDate = none)
    (until_noon : ∀ date ∈ filters.toDate, date = noon) : InFourDigits oneResult filters noon where
  rows := by
    intro row member
    rw [List.mem_singleton.mp member]
    exact ⟨by decide, by decide⟩
  fromDate := by
    intro date given
    rw [no_start] at given
    cases given
  toDate := by
    intro date given
    rw [until_noon date given]
    exact ⟨by decide, by decide⟩
  before := ⟨by decide, by decide⟩

theorem queries_meant_one : MeanIt parseStored oneResult everything none 1 noon ↔
    Clear oneResult everything none 1 :=
  queries_meant_iff parseStored_reads (by decide) (fit_oneResult rfl fun _ given => by cases given)

/-- A result of noon is not among the results until noon. -/
theorem noon_left_out : ¬ MeanIt parseStored oneResult untilNoon none 1 noon := by
  intro meant
  have fit : InFourDigits oneResult untilNoon noon :=
    fit_oneResult rfl fun _ given => (Option.some.inj given).symm
  have before_end := ((whole_iff parseStored_reads fit).mp meant.whole).2
  exact before_end noon rfl (oneResult.rows.get ⟨0, by decide⟩) (List.get_mem _ _)
    (by decide) rfl

end Example

end SentinelAgent.ResultQueries
