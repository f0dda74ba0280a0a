import SentinelAgent.Library.Calendar
import SentinelAgent.Siem.Event
import SentinelAgent.Siem.SudoRead

/-!
The time of a traditional syslog line, which has no year.
-/
namespace SentinelAgent.Decode
open Calendar Siem Text

/- A time of day on a date. A leap second is told as more than a second of nanoseconds. -/
structure NaiveDateTime extends Date where
  hour : Nat
  minute : Nat
  second : Nat
  nanosecond : Nat
  hour_lt : hour < 24
  minute_lt : minute < 60
  second_lt : second < 60
  nanosecond_lt : nanosecond < 2 * 10 ^ 9

namespace NaiveDateTime

/- In nanoseconds. -/
def instant (t : NaiveDateTime) : Int :=
  (((t.number * 24 + t.hour) * 60 + t.minute) * 60 + t.second) * 10 ^ 9 + t.nanosecond

/- The instant, where local time is so many seconds ahead. -/
def utc (offset : Int) (t : NaiveDateTime) : Int := t.instant - offset * 10 ^ 9

/- The same date and time of another year, if it has that date. -/
def inYear (t : NaiveDateTime) (year : Int) : Option NaiveDateTime :=
  if here : t.day ≤ daysInMonth year t.month then some { t with year, day_le := here } else none

end NaiveDateTime

/- A day, in nanoseconds. -/
def oneDay : Int := 24 * 60 * 60 * 10 ^ 9

def bsdFormat : String := "%Y %b %d %H:%M:%S"

section Source
variable (parseFromStr : String → String → Option NaiveDateTime) (offset : Int)

def parseYear (month day time : String) (year : Int) : Option Int :=
  (parseFromStr s!"{year} {month} {day} {time}" bsdFormat).map (NaiveDateTime.utc offset)

def bsdTime (month day time : String) (now : NaiveDateTime) : Option Int := do
  let thisYear ← parseYear parseFromStr offset month day time now.year
  if now.utc offset + oneDay < thisYear then parseYear parseFromStr offset month day time (now.year - 1)
  else some thisYear

end Source

/- `Mon dd hh:mm:ss`: the day may be written with one digit. -/
structure Written (t : NaiveDateTime) (month day time : String) : Prop where
  month : month = monthName t.month
  day : day = t.day.repr ∨ day = String.ofList (padded 2 t.day)
  time : time = String.ofList (padded 2 t.hour ++ ':' :: (padded 2 t.minute ++ ':' ::
    padded 2 t.second))
  whole : t.nanosecond = 0

/- What is relied on of the reader of dates: a time that was written with its year of at most four
   digits is read back, and what is read is of the year that was written. -/
structure ReadsDates (parseFromStr : String → String → Option NaiveDateTime) : Prop where
  reads : ∀ {t : NaiveDateTime} {month day time : String}, Written t month day time → 0 ≤ t.year → t.year ≤ 9999 →
    parseFromStr s!"{t.year} {month} {day} {time}" bsdFormat = some t
  year_kept : ∀ {year : Int} {month day time : String} {t : NaiveDateTime},
    parseFromStr s!"{year} {month} {day} {time}" bsdFormat = some t → t.year = year

/- A time of an earlier year ends before the new one, but for a leap second. -/
theorem instant_lt {t now : NaiveDateTime} (earlier : t.year < now.year) :
    t.instant < now.instant + 10 ^ 9 := by
  have days := number_lt earlier
  have hour := t.hour_lt
  have minute := t.minute_lt
  have second := t.second_lt
  have nanosecond := t.nanosecond_lt
  unfold NaiveDateTime.instant
  omega

theorem inYear_written {t u : NaiveDateTime} {year : Int} {month day time : String}
    (written : Written t month day time) (same : t.inYear year = some u) :
    Written u month day time ∧ u.year = year := by
  unfold NaiveDateTime.inYear at same
  split_ifs at same
  obtain rfl := Option.some.inj same
  exact ⟨⟨written.month, written.day, written.time, written.whole⟩, rfl⟩

theorem inYear_self (t : NaiveDateTime) : t.inYear t.year = some t := by
  rw [NaiveDateTime.inYear, dif_pos t.day_le]

section Read
variable {parseFromStr : String → String → Option NaiveDateTime} (reader : ReadsDates parseFromStr)
  (offset : Int) {now t u : NaiveDateTime} {month day time : String}
include reader

theorem parseYear_written (written : Written t month day time) (start : 0 ≤ t.year)
    (stop : t.year ≤ 9999) :
    parseYear parseFromStr offset month day time t.year = some (t.utc offset) := by
  rw [parseYear, reader.reads written start stop, Option.map_some]

/-- Of a time of this year or the last that is not to come, and whose date this year has too, it is
    the time itself that is recovered, when it is of this year or the date of this year is more
    than a day ahead. Otherwise the date of this year is taken. -/
theorem bsdTime_recovered (written : Written t month day time) (start : 0 ≤ t.year)
    (stop : now.year ≤ 9999) (past : t.instant ≤ now.instant)
    (recent : t.year = now.year ∨ t.year + 1 = now.year) (here : t.inYear now.year = some u) :
    bsdTime parseFromStr offset month day time now =
      some ((if t.year = now.year ∨ now.instant + oneDay < u.instant then t else u).utc offset) := by
  obtain ⟨u_written, u_year⟩ := inYear_written written here
  have later : now.utc offset + oneDay < u.utc offset ↔ now.instant + oneDay < u.instant := by
    unfold NaiveDateTime.utc
    omega
  have this_year : parseYear parseFromStr offset month day time now.year = some (u.utc offset) := by
    rw [← u_year]
    exact parseYear_written reader offset u_written (by omega) (by omega)
  rw [bsdTime, this_year, Option.bind_eq_bind, Option.bind_some]
  rcases recent with same | last
  · have u_eq : u = t := by
      rw [← same, inYear_self] at here
      exact (Option.some.inj here).symm
    have not_later : ¬ now.instant + oneDay < u.instant := by
      rw [u_eq, oneDay]
      omega
    rw [if_neg (later.not.mpr not_later), if_pos (Or.inl same), u_eq]
  · have other : t.year ≠ now.year := by omega
    have last_year : now.year - 1 = t.year := by omega
    rw [last_year, parseYear_written reader offset written start (by omega)]
    by_cases ahead : now.instant + oneDay < u.instant
    · rw [if_pos (later.mpr ahead), if_pos (Or.inr ahead)]
    · rw [if_neg (later.not.mpr ahead), if_neg (not_or.mpr ⟨other, ahead⟩)]

/-- Nothing is dated more than a day ahead. -/
theorem bsdTime_not_ahead {result : Int}
    (read : bsdTime parseFromStr offset month day time now = some result) :
    result ≤ now.utc offset + oneDay := by
  obtain ⟨this_year, _, decided⟩ := Option.bind_eq_some_iff.mp read
  split_ifs at decided with ahead
  · obtain ⟨t, last, rfl⟩ := Option.map_eq_some_iff.mp decided
    have earlier : t.year < now.year := by
      rw [reader.year_kept last]
      omega
    have before := instant_lt earlier
    unfold NaiveDateTime.utc oneDay
    omega
  · rw [← Option.some.inj decided]
    exact not_lt.mp ahead

end Read

/-- What is made of a time without a year: the time of this year or the last that was written, or
    the date of this year where that is at most a day ahead, and nothing further ahead. -/
theorem bsdTime_dated {parseFromStr : String → String → Option NaiveDateTime}
    (reader : ReadsDates parseFromStr) (offset : Int) (now : NaiveDateTime)
    (stop : now.year ≤ 9999) :
    (∀ (t u : NaiveDateTime) (month day time : String), Written t month day time → 0 ≤ t.year →
      t.instant ≤ now.instant → (t.year = now.year ∨ t.year + 1 = now.year) →
        t.inYear now.year = some u → bsdTime parseFromStr offset month day time now =
          some ((if t.year = now.year ∨ now.instant + oneDay < u.instant then t else u).utc
            offset)) ∧
      ∀ (month day time : String) (result : Int),
        bsdTime parseFromStr offset month day time now = some result →
          result ≤ now.utc offset + oneDay :=
  ⟨fun _ _ _ _ _ written start past recent here =>
      bsdTime_recovered reader offset written start stop past recent here,
    fun _ _ _ _ read => bsdTime_not_ahead reader offset read⟩

/-! A reader of dates. -/

section Reader

def monthNumber (s : String) : Option (Fin 12) := (List.finRange 12).find? fun m => monthName m = s

def timeOf (year : Int) (month : Fin 12) (day hour minute second : Nat) : Option NaiveDateTime :=
  if valid : (1 ≤ day ∧ day ≤ daysInMonth year month) ∧ hour < 24 ∧ minute < 60 ∧ second < 60 then
    some { year, month, day, hour, minute, second, nanosecond := 0, day_pos := valid.1.1,
           day_le := valid.1.2, hour_lt := valid.2.1, minute_lt := valid.2.2.1,
           second_lt := valid.2.2.2, nanosecond_lt := by decide }
  else none

def readDate (text _format : String) : Option NaiveDateTime := do
  let (year, rest) ← splitFirst ' ' text
  let (month, rest) ← splitFirst ' ' rest
  let (day, time) ← splitFirst ' ' rest
  let (hour, rest) ← splitFirst ':' time
  let (minute, second) ← splitFirst ':' rest
  let year ← parseUnsigned 16 year
  let month ← monthNumber month
  let day ← parseUnsigned 8 day
  let hour ← parseUnsigned 8 hour
  let minute ← parseUnsigned 8 minute
  let second ← parseUnsigned 8 second
  timeOf year month day hour minute second

theorem splitFirst_append {c : Char} {key value : String} (free : c ∉ key.toList) :
    splitFirst c (key ++ String.singleton c ++ value) = some (key, value) := by
  have text : key ++ String.singleton c ++ value =
      String.ofList (key.toList ++ c :: value.toList) := by
    rw [← String.toList_inj]
    simp
  rw [text, splitFirst_text free, String.ofList_toList, String.ofList_toList]

theorem dateText_eq (year : Int) (month day time : String) :
    s!"{year} {month} {day} {time}" = toString year ++ String.singleton ' ' ++
      (month ++ String.singleton ' ' ++ (day ++ String.singleton ' ' ++ time)) := by
  simp only [String.append_assoc]
  rfl

theorem negative_text (n : Nat) :
    (toString (Int.negSucc n)).toList = '-' :: (n + 1).repr.toList := by
  have text : toString (Int.negSucc n) = "-" ++ (n + 1).repr := rfl
  rw [text, String.toList_append]
  rfl

theorem year_no_blank (year : Int) : ' ' ∉ (toString year).toList := by
  have digits (n : Nat) : ' ' ∉ n.repr.toList := fun member =>
    absurd (repr_digits n ' ' member) (by decide)
  cases year with
  | ofNat n => exact digits n
  | negSucc n =>
    rw [negative_text, List.mem_cons, not_or]
    exact ⟨by decide, digits _⟩

theorem year_read {year : Int} {n : Nat} (read : parseUnsigned 16 (toString year) = some n) :
    (n : Int) = year := by
  cases year with
  | ofNat m => exact congrArg Int.ofNat (parseUnsigned_repr_eq read)
  | negSucc m =>
    have sign : Char.isDigit '-' = false := by decide
    rw [parseUnsigned, negative_text] at read
    simp [sign] at read

theorem readDate_year {year : Int} {month day time : String} {t : NaiveDateTime}
    (read : readDate s!"{year} {month} {day} {time}" bsdFormat = some t) : t.year = year := by
  rw [dateText_eq, readDate, splitFirst_append (year_no_blank year)] at read
  simp only [Option.bind_eq_bind, Option.bind_some, Option.bind_eq_some_iff] at read
  obtain ⟨_, _, _, _, _, _, _, _, n, year_eq, _, _, _, _, _, _, _, _, _, _, made⟩ := read
  unfold timeOf at made
  split_ifs at made
  obtain rfl := Option.some.inj made
  exact year_read year_eq

theorem two_digits {n : Nat} (small : n < 100) :
    parseUnsigned 8 (String.ofList (padded 2 n)) = some n := by
  have each : ∀ n < 100, parseUnsigned 8 (String.ofList (padded 2 n)) = some n := by decide
  exact each n small

theorem padded_plain {c : Char} (no_digit : c.isDigit = false) (n : Nat) :
    c ∉ (String.ofList (padded 2 n)).toList := by
  rw [String.toList_ofList, padded, List.mem_append, not_or]
  constructor
  · intro member
    rw [(List.mem_replicate.mp member).2] at no_digit
    exact absurd no_digit (by decide)
  · intro member
    rw [repr_digits n c member] at no_digit
    cases no_digit

theorem month_read (month : Fin 12) : monthNumber (monthName month) = some month := by
  revert month
  decide

theorem month_no_blank (month : Fin 12) : ' ' ∉ (monthName month).toList := by
  revert month
  decide

theorem day_le_31 (t : NaiveDateTime) : t.day ≤ 31 := by
  have most : ∀ leap month, (monthLengths leap).getD (month : Fin 12) 0 ≤ 31 := by decide
  exact t.day_le.trans (most _ _)

theorem timeOf_self {t : NaiveDateTime} (whole : t.nanosecond = 0) :
    timeOf t.year t.month t.day t.hour t.minute t.second = some t := by
  rw [timeOf, dif_pos ⟨⟨t.day_pos, t.day_le⟩, t.hour_lt, t.minute_lt, t.second_lt⟩]
  cases t
  cases whole
  rfl

theorem readDate_written {t : NaiveDateTime} {month day time : String}
    (written : Written t month day time) (start : 0 ≤ t.year) (stop : t.year ≤ 9999) :
    readDate s!"{t.year} {month} {day} {time}" bsdFormat = some t := by
  obtain ⟨rfl, day_eq, rfl, whole⟩ := written
  have no_digit : Char.isDigit ' ' = false := by decide
  have day_plain : ' ' ∉ day.toList := by
    rcases day_eq with rfl | rfl
    · exact fun member => absurd (repr_digits t.day ' ' member) (by decide)
    · exact padded_plain no_digit t.day
  have day_read : parseUnsigned 8 day = some t.day := by
    have := day_le_31 t
    rcases day_eq with rfl | rfl
    · exact parseUnsigned_repr (by omega)
    · exact two_digits (by omega)
  have time_eq : String.ofList (padded 2 t.hour ++ ':' :: (padded 2 t.minute ++ ':' ::
      padded 2 t.second)) = String.ofList (padded 2 t.hour) ++ String.singleton ':' ++
        (String.ofList (padded 2 t.minute) ++ String.singleton ':' ++
          String.ofList (padded 2 t.second)) := by
    rw [← String.toList_inj]
    simp
  have year_read : parseUnsigned 16 (toString t.year) = some t.year.toNat := by
    obtain ⟨n, year_eq⟩ := Int.eq_ofNat_of_zero_le start
    rw [year_eq] at stop ⊢
    exact parseUnsigned_repr (by omega)
  have colon : Char.isDigit ':' = false := by decide
  have hour := t.hour_lt
  have minute := t.minute_lt
  have second := t.second_lt
  rw [dateText_eq, readDate, splitFirst_append (year_no_blank t.year)]
  simp only [Option.bind_eq_bind, Option.bind_some]
  rw [splitFirst_append (month_no_blank t.month)]
  simp only [Option.bind_some]
  rw [splitFirst_append day_plain]
  simp only [Option.bind_some]
  rw [time_eq, splitFirst_append (padded_plain colon t.hour)]
  simp only [Option.bind_some]
  rw [splitFirst_append (padded_plain colon t.minute)]
  simp only [Option.bind_some, year_read, month_read, day_read]
  rw [two_digits (by omega), two_digits (by omega), two_digits (by omega)]
  simp only [Option.bind_some]
  rw [Int.toNat_of_nonneg start, timeOf_self whole]

theorem readDate_reads : ReadsDates readDate := ⟨readDate_written, readDate_year⟩

end Reader

section Read

def onTheHour (year : Int) (month : Fin 12) (day hour : Nat) (day_pos : 1 ≤ day)
    (day_le : day ≤ daysInMonth year month) (hour_lt : hour < 24) : NaiveDateTime :=
  { year, month, day, hour, minute := 0, second := 0, nanosecond := 0, day_pos, day_le, hour_lt
    minute_lt := by decide, second_lt := by decide, nanosecond_lt := by decide }

/- The morning of 2 January 2027, and a time of the night of 31 December, in both years. -/
def january : NaiveDateTime := onTheHour 2027 0 2 8 (by decide) (by decide) (by decide)
def december : NaiveDateTime := onTheHour 2026 11 31 23 (by decide) (by decide) (by decide)
def nextDecember : NaiveDateTime := onTheHour 2027 11 31 23 (by decide) (by decide) (by decide)

theorem bsdTime_dated_december :
    bsdTime readDate 0 "Dec" "31" "23:00:00" january = some (december.utc 0) := by
  have dated := (bsdTime_dated readDate_reads 0 january (by decide)).1 december nextDecember "Dec"
    "31" "23:00:00" ⟨by decide, by decide, by decide, by decide⟩ (by decide) (by decide) (by decide) rfl
  have ahead : january.instant + oneDay < nextDecember.instant := by decide
  rwa [if_pos (Or.inr ahead)] at dated

/- Noon of 15 June 2027, and the evening of that day in the year before. -/
def noon : NaiveDateTime := onTheHour 2027 5 15 12 (by decide) (by decide) (by decide)
def evening : NaiveDateTime := onTheHour 2026 5 15 18 (by decide) (by decide) (by decide)

/-- A time less than a year ago is dated six hours ahead. -/
theorem evening_not_recovered :
    evening.instant < noon.instant ∧ noon.instant - evening.instant < 365 * oneDay ∧
      Written evening "Jun" "15" "18:00:00" ∧
        bsdTime readDate 0 "Jun" "15" "18:00:00" noon ≠ some (evening.utc 0) ∧
          bsdTime readDate 0 "Jun" "15" "18:00:00" noon =
            some (noon.utc 0 + 6 * 60 * 60 * 10 ^ 9) := by
  refine ⟨by decide, by decide, ⟨by decide, by decide, by decide, by decide⟩, ?_, ?_⟩
  · decide
  · decide

end Read
end SentinelAgent.Decode
