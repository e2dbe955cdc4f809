import Cmp.Lib.Calendar
import Cmp.Lib.Text
import Cmp.Relay.Delivery
import Mathlib.Tactic.IntervalCases

/-! `parse_sqlite_datetime` against the calendar. The closed formula for the days of a date is
zero on the first of January 1970 and goes up by one from each day to the next. -/

namespace Cmp.Relay

open Cmp.Lib Cmp.Lib.Calendar

/-! ## Texts -/

/-- `YYYY-MM-DD HH:MM:SS`, as SQLite writes a time. -/
def sqliteText (t : DateTime) : String :=
  String.ofList (paddedDigits 4 t.year ++ '-' :: (paddedDigits 2 t.month ++ '-' ::
    (paddedDigits 2 t.day ++ ' ' :: (paddedDigits 2 t.hour ++ ':' ::
      (paddedDigits 2 t.minute ++ ':' :: paddedDigits 2 t.second)))))

/-- A number in at least one digit is read as itself. -/
theorem parseI64_paddedDigits {width n : Nat} (hwidth : 0 < width) (hn : n < 10 ^ width)
    (hsize : n < 2 ^ 63) : parseI64 (paddedDigits width n) = some (n : Int) := by
  have hdigits := isDigit_paddedDigits width n
  have hvalue := foldl_paddedDigits width n hn
  have hne : paddedDigits width n ≠ [] := by
    obtain ⟨width', rfl⟩ := Nat.exists_eq_succ_of_ne_zero (Nat.pos_iff_ne_zero.mp hwidth)
    exact List.append_ne_nil_of_right_ne_nil _ (List.cons_ne_nil _ _)
  have hplus : (paddedDigits width n).head? ≠ some '+' := by
    intro hhead
    exact absurd (hdigits _ (List.mem_of_head? hhead)) (by decide)
  unfold parseI64
  rw [if_neg hplus]
  dsimp only
  rw [hvalue, if_pos ⟨hne, List.all_eq_true.mpr hdigits, hsize⟩]

/-- A separator of the parts of a text. -/
def isSeparator (c : Char) : Bool := decide (c = '-' ∨ c = ' ' ∨ c = ':')

theorem isSeparator_paddedDigits (width n : Nat) :
    ∀ c ∈ paddedDigits width n, isSeparator c = false := by
  intro c hc
  refine decide_eq_false fun hsep => ?_
  have hdigit := isDigit_paddedDigits width n c hc
  rcases hsep with rfl | rfl | rfl <;> exact absurd hdigit (by decide)

/-- The parts of a text are its six numbers. -/
theorem splitOnP_sqliteText (t : DateTime) :
    (sqliteText t).toList.splitOnP isSeparator =
      [paddedDigits 4 t.year, paddedDigits 2 t.month, paddedDigits 2 t.day, paddedDigits 2 t.hour,
        paddedDigits 2 t.minute, paddedDigits 2 t.second] := by
  have hpart : ∀ (width n : Nat) (sep : Char) (rest : List Char), isSeparator sep = true →
      (paddedDigits width n ++ sep :: rest).splitOnP isSeparator =
        paddedDigits width n :: rest.splitOnP isSeparator := fun width n sep rest hsep =>
    List.splitOnP_append_cons_of_forall_mem (isSeparator_paddedDigits width n) sep hsep rest
  rw [sqliteText, String.toList_ofList, hpart _ _ _ _ rfl, hpart _ _ _ _ rfl, hpart _ _ _ _ rfl,
    hpart _ _ _ _ rfl, hpart _ _ _ _ rfl,
    List.splitOnP_eq_singleton (isSeparator_paddedDigits 2 t.second)]

theorem parseSqliteDatetime_sqliteText (t : DateTime) (hyear : t.year ≤ 9999) :
    parseSqliteDatetime (sqliteText t) =
      secondsSinceEpoch t.year t.month t.day t.hour t.minute t.second := by
  have hmonth := t.month_le
  have hday := t.day_le.trans (monthLength_le t.year t.month)
  have hhour := t.hour_lt
  have hminute := t.minute_lt
  have hsecond := t.second_lt
  have hsplit := splitOnP_sqliteText t
  unfold isSeparator at hsplit
  have htwo : ∀ n, n < 60 → parseI64 (paddedDigits 2 n) = some (n : Int) := fun n hn =>
    parseI64_paddedDigits (by decide) (by omega) (by omega)
  unfold parseSqliteDatetime
  rw [hsplit]
  dsimp only
  rw [parseI64_paddedDigits (by decide) (by omega) (by omega), htwo _ (by omega),
    htwo _ (by omega), htwo _ (by omega), htwo _ (by omega), htwo _ (by omega)]

/-! ## Days -/

/-- The days before a year, in the formula of the source. -/
def daysBeforeYear (year : Int) : Int :=
  (year - 1970) * 365 + (year - 1969).tdiv 4 - (year - 1901).tdiv 100 + (year - 1601).tdiv 400

/-- The days before a month of its year, from the table. -/
def daysBeforeMonth (year month : Nat) : Int :=
  monthDays.getD (month - 1) 0 + if isLeap year = true ∧ 2 < month then 1 else 0

def daysSinceEpoch (date : Date) : Int :=
  daysBeforeYear date.year + daysBeforeMonth date.year date.month + date.day - 1

/-- A year has 365 days, and one more if it is a leap year. -/
theorem daysBeforeYear_succ {year : Nat} (hyear : 1970 ≤ year) :
    daysBeforeYear (year + 1 : Nat) = daysBeforeYear year + 365 + if isLeap year then 1 else 0 := by
  unfold daysBeforeYear isLeap
  rw [Int.tdiv_eq_ediv_of_nonneg (by omega), Int.tdiv_eq_ediv_of_nonneg (by omega),
    Int.tdiv_eq_ediv_of_nonneg (by omega), Int.tdiv_eq_ediv_of_nonneg (by omega),
    Int.tdiv_eq_ediv_of_nonneg (by omega), Int.tdiv_eq_ediv_of_nonneg (by omega)]
  simp only [decide_eq_true_eq]
  split <;> omega

theorem daysBeforeMonth_succ (year : Nat) {month : Nat} (hpos : 1 ≤ month) (hlt : month < 12) :
    daysBeforeMonth year (month + 1) = daysBeforeMonth year month + monthLength year month := by
  unfold daysBeforeMonth monthLength
  interval_cases month <;> cases isLeap year <;> rfl

theorem daysBeforeMonth_last (year : Nat) :
    daysBeforeMonth year 12 + monthLength year 12 = 365 + if isLeap year then 1 else 0 := by
  unfold daysBeforeMonth monthLength
  cases isLeap year <;> rfl

theorem daysSinceEpoch_next (date : Date) (hyear : 1970 ≤ date.year) :
    daysSinceEpoch date.next = daysSinceEpoch date + 1 := by
  unfold daysSinceEpoch
  rcases date.next_cases with ⟨-, hy, hm, hd⟩ | ⟨hlast, hlt, hy, hm, hd⟩ | ⟨hlast, hend, hy, hm, hd⟩
  · rw [hy, hm, hd]
    omega
  · rw [hy, hm, hd, daysBeforeMonth_succ date.year date.month_pos hlt, hlast]
    omega
  · have hfirst : daysBeforeMonth (date.year + 1) 1 = 0 := by
      unfold daysBeforeMonth
      simp [monthDays]
    have hmonths := daysBeforeMonth_last date.year
    rw [hy, hm, hd, daysBeforeYear_succ hyear, hlast, hend, hfirst]
    omega

/-- The formula counts the days since the first of January 1970. -/
theorem daysSinceEpoch_iterate (n : Nat) :
    daysSinceEpoch (Date.next^[n] (Date.newYear 1970)) = n :=
  Date.count_iterate daysSinceEpoch (by decide) (fun date hyear => daysSinceEpoch_next date hyear) n

/-! ## Seconds -/

/-- The leap-year test of the source, on a year of the calendar. -/
theorem isLeap_iff (year : Nat) :
    (((year : Int).tmod 4 = 0 ∧ (year : Int).tmod 100 ≠ 0) ∨ (year : Int).tmod 400 = 0) ↔
      isLeap year = true := by
  rw [Int.tmod_eq_emod_of_nonneg (by omega), Int.tmod_eq_emod_of_nonneg (by omega),
    Int.tmod_eq_emod_of_nonneg (by omega)]
  unfold isLeap
  rw [decide_eq_true_eq]
  omega

/-- The index of a month in the table. -/
theorem monthIndex {month : Nat} (hpos : 1 ≤ month) (hle : month ≤ 12) :
    (max 0 (min ((month : Int) - 1) 11)).toNat = month - 1 := by
  omega

theorem secondsSinceEpoch_days (t : DateTime) :
    secondsSinceEpoch t.year t.month t.day t.hour t.minute t.second =
      ((daysSinceEpoch t.toDate * 86400 + t.hour * 3600 + t.minute * 60 + t.second) % 2 ^
        64).toNat := by
  have hleap : (if (((t.year : Int).tmod 4 = 0 ∧ (t.year : Int).tmod 100 ≠ 0) ∨
      (t.year : Int).tmod 400 = 0) ∧ (t.month : Int) > 2 then (1 : Int) else 0) =
      if isLeap t.year = true ∧ 2 < t.month then 1 else 0 :=
    if_congr (and_congr (isLeap_iff t.year) (by omega)) rfl rfl
  have hdays : daysBeforeYear t.year + monthDays.getD (t.month - 1) 0 + t.day - 1 +
      (if isLeap t.year = true ∧ 2 < t.month then 1 else 0) = daysSinceEpoch t.toDate := by
    unfold daysSinceEpoch daysBeforeMonth
    omega
  unfold secondsSinceEpoch
  dsimp only
  rw [monthIndex t.month_pos t.month_le, hleap, ← hdays]
  rfl

/-- The days of a year with four digits. -/
theorem daysSinceEpoch_lt (date : Date) (hfrom : 1970 ≤ date.year) (hto : date.year ≤ 9999) :
    daysSinceEpoch date < 3000000 := by
  have hmonths : daysBeforeMonth date.year date.month ≤ 335 := by
    have hpos := date.month_pos
    have hle := date.month_le
    unfold daysBeforeMonth
    generalize date.month = month at hpos hle ⊢
    interval_cases month <;> cases isLeap date.year <;> decide
  have hday := date.day_le.trans (monthLength_le date.year date.month)
  unfold daysSinceEpoch daysBeforeYear
  rw [Int.tdiv_eq_ediv_of_nonneg (by omega), Int.tdiv_eq_ediv_of_nonneg (by omega),
    Int.tdiv_eq_ediv_of_nonneg (by omega)]
  omega

/-- A time is the seconds of the days before it and those of its own day. -/
theorem secondsSinceEpoch_eq (t : DateTime) {n : Nat}
    (hn : Date.next^[n] (Date.newYear 1970) = t.toDate) (hfrom : 1970 ≤ t.year)
    (hto : t.year ≤ 9999) :
    secondsSinceEpoch t.year t.month t.day t.hour t.minute t.second =
      86400 * n + (3600 * t.hour + 60 * t.minute + t.second) := by
  have hdays : daysSinceEpoch t.toDate = n := hn ▸ daysSinceEpoch_iterate n
  have hlt := daysSinceEpoch_lt t.toDate hfrom hto
  have hhour := t.hour_lt
  have hminute := t.minute_lt
  have hsecond := t.second_lt
  rw [secondsSinceEpoch_days, hdays, Int.emod_eq_of_lt (by omega) (by omega)]
  omega

/-! ## Intermediate values -/

/-- A value that fits in `i64`. -/
def i64 (value : Int) : Option Int :=
  if -2 ^ 63 ≤ value ∧ value < 2 ^ 63 then some value else none

/-- A value well within the range is passed on. -/
theorem i64_bind {α : Type} {value : Int} (f : Int → Option α)
    (h : -1000000000000 ≤ value ∧ value ≤ 1000000000000) : (i64 value >>= f) = f value := by
  unfold i64
  rw [if_pos (by omega)]
  rfl

/-- `secondsSinceEpoch` with every operation checked; `none` is a value that does not fit. -/
def secondsChecked (year month day hour minute sec : Int) : Option Nat := do
  let sinceEpoch ← i64 (year - 1970)
  let regular ← i64 (sinceEpoch * 365)
  let since1969 ← i64 (year - 1969)
  let fourth ← i64 (since1969.tdiv 4)
  let withFourth ← i64 (regular + fourth)
  let since1901 ← i64 (year - 1901)
  let hundredth ← i64 (since1901.tdiv 100)
  let withHundredth ← i64 (withFourth - hundredth)
  let since1601 ← i64 (year - 1601)
  let fourHundredth ← i64 (since1601.tdiv 400)
  let days ← i64 (withHundredth + fourHundredth)
  let mod4 ← i64 (year.tmod 4)
  let mod100 ← i64 (year.tmod 100)
  let mod400 ← i64 (year.tmod 400)
  let isLeap := (mod4 = 0 ∧ mod100 ≠ 0) ∨ mod400 = 0
  let leapAdj : Int := if isLeap ∧ month > 2 then 1 else 0
  let monthBefore ← i64 (month - 1)
  let mIdx := (max 0 (min monthBefore 11)).toNat
  let toMonth ← i64 (days + monthDays.getD mIdx 0)
  let toDay ← i64 (toMonth + day)
  let fromZero ← i64 (toDay - 1)
  let allDays ← i64 (fromZero + leapAdj)
  let daySeconds ← i64 (allDays * 86400)
  let hourSeconds ← i64 (hour * 3600)
  let withHours ← i64 (daySeconds + hourSeconds)
  let minuteSeconds ← i64 (minute * 60)
  let withMinutes ← i64 (withHours + minuteSeconds)
  let total ← i64 (withMinutes + sec)
  if 0 ≤ total then some total.toNat else none

theorem monthDays_getD (index : Nat) : 0 ≤ monthDays.getD index 0 ∧
    monthDays.getD index 0 ≤ 334 := by
  by_cases hindex : index < 12
  · interval_cases index <;> decide
  · rw [List.getD_eq_getElem?_getD, List.getElem?_eq_none (Nat.le_of_not_lt hindex)]
    decide

/-- A quotient of a number below 10000. -/
theorem tdiv_bounds {a : Int} (hfrom : 0 ≤ a) (hto : a ≤ 9999) (k : Int) (hk : 1 ≤ k) :
    0 ≤ a.tdiv k ∧ a.tdiv k ≤ 9999 :=
  ⟨Int.tdiv_nonneg hfrom (by omega), (Int.tdiv_le_self k hfrom).trans hto⟩

theorem tmod_bounds {a : Int} (hfrom : 0 ≤ a) (k : Int) (hk : 1 ≤ k) (hk' : k ≤ 400) :
    -1000000000000 ≤ a.tmod k ∧ a.tmod k ≤ 1000000000000 := by
  have hnonneg := Int.tmod_nonneg k hfrom
  have hlt := Int.tmod_lt_of_pos a (by omega : 0 < k)
  omega

/-- No operation overflows on a time with a year of four digits. -/
theorem secondsChecked_eq {year month day hour minute sec : Int} (hfrom : 1970 ≤ year)
    (hto : year ≤ 9999) (hmonth : 1 ≤ month ∧ month ≤ 12) (hday : 1 ≤ day ∧ day ≤ 31)
    (hhour : 0 ≤ hour ∧ hour < 24) (hminute : 0 ≤ minute ∧ minute < 60)
    (hsec : 0 ≤ sec ∧ sec < 60) :
    secondsChecked year month day hour minute sec =
      some (secondsSinceEpoch year month day hour minute sec) := by
  have hfourth := tdiv_bounds (a := year - 1969) (by omega) (by omega) 4 (by decide)
  have hhundredth := tdiv_bounds (a := year - 1901) (by omega) (by omega) 100 (by decide)
  have hfourHundredth := tdiv_bounds (a := year - 1601) (by omega) (by omega) 400 (by decide)
  have hcenturies : 100 * (year - 1901).tdiv 100 ≤ year - 1901 := by
    rw [Int.tdiv_eq_ediv_of_nonneg (by omega)]
    omega
  have htable := monthDays_getD (max 0 (min (month - 1) 11)).toNat
  unfold secondsChecked secondsSinceEpoch
  rw [i64_bind _ (by omega), i64_bind _ (by omega), i64_bind _ (by omega), i64_bind _ (by omega),
    i64_bind _ (by omega), i64_bind _ (by omega), i64_bind _ (by omega), i64_bind _ (by omega),
    i64_bind _ (by omega), i64_bind _ (by omega), i64_bind _ (by omega),
    i64_bind _ (tmod_bounds (by omega) 4 (by decide) (by decide)),
    i64_bind _ (tmod_bounds (by omega) 100 (by decide) (by decide)),
    i64_bind _ (tmod_bounds (by omega) 400 (by decide) (by decide))]
  dsimp only
  generalize hleapAdj : (if ((year.tmod 4 = 0 ∧ year.tmod 100 ≠ 0) ∨ year.tmod 400 = 0) ∧
    month > 2 then (1 : Int) else 0) = leapAdj
  have hadj : 0 ≤ leapAdj ∧ leapAdj ≤ 1 := by
    rw [← hleapAdj]
    split <;> decide
  rw [i64_bind _ (by omega)]
  generalize monthDays.getD (max 0 (min (month - 1) 11)).toNat 0 = before at htable ⊢
  generalize (year - 1969).tdiv 4 = fourth at hfourth ⊢
  generalize (year - 1901).tdiv 100 = hundredth at hhundredth hcenturies ⊢
  generalize (year - 1601).tdiv 400 = fourHundredth at hfourHundredth ⊢
  rw [i64_bind _ (by omega), i64_bind _ (by omega), i64_bind _ (by omega), i64_bind _ (by omega),
    i64_bind _ (by omega), i64_bind _ (by omega), i64_bind _ (by omega), i64_bind _ (by omega),
    i64_bind _ (by omega), i64_bind _ (by omega), if_pos (by omega),
    Int.emod_eq_of_lt (by omega) (by omega)]

/-- **SQLite timestamps convert exactly.** The text of a time is read as the seconds of the days
that lie between it and the first of January 1970, counted one by one, and of its own day; no
operation overflows, and a later time is a larger number. -/
theorem sqlite_timestamps_exact :
    (∀ t : DateTime, 1970 ≤ t.year → t.year ≤ 9999 →
      ∃ n, Date.next^[n] (Date.newYear 1970) = t.toDate ∧
        parseSqliteDatetime (sqliteText t) =
          86400 * n + (3600 * t.hour + 60 * t.minute + t.second) ∧
        secondsChecked t.year t.month t.day t.hour t.minute t.second =
          some (parseSqliteDatetime (sqliteText t))) ∧
    ∀ t t' : DateTime, 1970 ≤ t.year → t'.year ≤ 9999 → t.fields < t'.fields →
      parseSqliteDatetime (sqliteText t) < parseSqliteDatetime (sqliteText t') := by
  have hexact : ∀ t : DateTime, 1970 ≤ t.year → t.year ≤ 9999 →
      ∃ n, Date.next^[n] (Date.newYear 1970) = t.toDate ∧
        parseSqliteDatetime (sqliteText t) =
          86400 * n + (3600 * t.hour + 60 * t.minute + t.second) := by
    intro t hfrom hto
    obtain ⟨n, hn⟩ := Date.exists_iterate_newYear 1970 t.toDate hfrom
    refine ⟨n, hn, ?_⟩
    rw [parseSqliteDatetime_sqliteText t hto, secondsSinceEpoch_eq t hn hfrom hto]
  refine ⟨fun t hfrom hto => ?_, fun t t' hfrom hto hlt => ?_⟩
  · obtain ⟨n, hn, hseconds⟩ := hexact t hfrom hto
    refine ⟨n, hn, hseconds, ?_⟩
    have hmonth := t.month_pos
    have hmonth' := t.month_le
    have hday := t.day_pos
    have hday' := t.day_le.trans (monthLength_le t.year t.month)
    have hhour := t.hour_lt
    have hminute := t.minute_lt
    have hsecond := t.second_lt
    rw [parseSqliteDatetime_sqliteText t hto]
    exact secondsChecked_eq (by omega) (by omega) (by omega) (by omega) (by omega) (by omega)
      (by omega)
  · have hyears : t.year ≤ t'.year := by
      unfold DateTime.fields at hlt
      rcases List.cons_lt_cons_iff.mp hlt with hlt | ⟨heq, -⟩
      · exact Nat.le_of_lt hlt
      · exact Nat.le_of_eq heq
    obtain ⟨n, hn, hseconds⟩ := hexact t hfrom (hyears.trans hto)
    obtain ⟨n', hn', hseconds'⟩ := hexact t' (hfrom.trans hyears) hto
    have hhour := t.hour_lt
    have hminute := t.minute_lt
    have hsecond := t.second_lt
    rw [hseconds, hseconds']
    rcases DateTime.fields_lt hlt with hdates | ⟨hsame, htime⟩
    · rw [← hn, ← hn'] at hdates
      have hdays : n < n' := (Date.strictMono_iterate (Date.newYear 1970)).lt_iff_lt.mp hdates
      omega
    · rw [← hn, ← hn'] at hsame
      have hdays : n = n' :=
        (Date.strictMono_iterate (Date.newYear 1970)).injective (congrArg Date.fields hsame)
      omega

/-- The last second of a leap day at the end of a century. -/
def leapDay : DateTime :=
  { year := 2000, month := 2, day := 29, hour := 23, minute := 59, second := 59
    month_pos := by decide, month_le := by decide, day_pos := by decide, day_le := by decide
    hour_lt := by decide, minute_lt := by decide, second_lt := by decide }

theorem sqlite_timestamps_exact_leap :
    sqliteText leapDay = "2000-02-29 23:59:59" ∧
    parseSqliteDatetime (sqliteText leapDay) = 951868799 ∧
    ∃ n, Date.next^[n] (Date.newYear 1970) = leapDay.toDate ∧ 86400 * n + 86399 = 951868799 := by
  obtain ⟨n, hn, hseconds, hchecked⟩ :=
    sqlite_timestamps_exact.1 leapDay (by decide) (by decide)
  have hvalue : parseSqliteDatetime (sqliteText leapDay) = 951868799 := by
    have hnumber : secondsChecked 2000 2 29 23 59 59 = some 951868799 := by decide +kernel
    exact Option.some.inj (hchecked.symm.trans hnumber)
  exact ⟨by decide +kernel, hvalue, n, hn, hseconds.symm.trans hvalue⟩

end Cmp.Relay
