import Mathlib.Data.List.Lex
import Mathlib.Order.Lattice

/-! The proleptic Gregorian calendar. A date is followed by the next one, and every date from the
first of a year on is reached from there day by day. -/

namespace Cmp.Lib.Calendar

def isLeap (year : Nat) : Bool :=
  decide ((year % 4 = 0 ∧ year % 100 ≠ 0) ∨ year % 400 = 0)

def monthLength (year month : Nat) : Nat :=
  if month = 2 then if isLeap year then 29 else 28
  else if month = 4 ∨ month = 6 ∨ month = 9 ∨ month = 11 then 30
  else 31

theorem monthLength_pos (year month : Nat) : 1 ≤ monthLength year month := by
  unfold monthLength
  split <;> split <;> decide

theorem monthLength_le (year month : Nat) : monthLength year month ≤ 31 := by
  unfold monthLength
  split <;> split <;> decide

@[ext]
structure Date where
  year : Nat
  month : Nat
  day : Nat
  month_pos : 1 ≤ month
  month_le : month ≤ 12
  day_pos : 1 ≤ day
  day_le : day ≤ monthLength year month

namespace Date

/-- The first day of a month. -/
def first (year month : Nat) (hpos : 1 ≤ month) (hle : month ≤ 12) : Date :=
  ⟨year, month, 1, hpos, hle, Nat.le_refl 1, monthLength_pos year month⟩

def newYear (year : Nat) : Date := first year 1 (by decide) (by decide)

def next (date : Date) : Date :=
  if hday : date.day < monthLength date.year date.month then
    ⟨date.year, date.month, date.day + 1, date.month_pos, date.month_le, Nat.le_add_left 1 date.day,
      hday⟩
  else if hmonth : date.month < 12 then
    first date.year (date.month + 1) (Nat.le_add_left 1 date.month) hmonth
  else newYear (date.year + 1)

/-- Year, month and day, in the order in which dates are compared. -/
def fields (date : Date) : List Nat := [date.year, date.month, date.day]

/-- The three ways in which a day is followed by another. -/
theorem next_cases (date : Date) :
    (date.day < monthLength date.year date.month ∧ date.next.year = date.year ∧
      date.next.month = date.month ∧ date.next.day = date.day + 1) ∨
    (date.day = monthLength date.year date.month ∧ date.month < 12 ∧
      date.next.year = date.year ∧ date.next.month = date.month + 1 ∧ date.next.day = 1) ∨
    (date.day = monthLength date.year date.month ∧ date.month = 12 ∧
      date.next.year = date.year + 1 ∧ date.next.month = 1 ∧ date.next.day = 1) := by
  unfold next
  split
  · next hday => exact .inl ⟨hday, rfl, rfl, rfl⟩
  · next hday =>
    have hlast := Nat.le_antisymm date.day_le (Nat.le_of_not_lt hday)
    split
    · next hmonth => exact .inr (.inl ⟨hlast, hmonth, rfl, rfl, rfl⟩)
    · next hmonth =>
      have hyear := Nat.le_antisymm date.month_le (Nat.le_of_not_lt hmonth)
      exact .inr (.inr ⟨hlast, hyear, rfl, rfl, rfl⟩)

theorem fields_lt_next (date : Date) : date.fields < date.next.fields := by
  unfold fields
  rcases date.next_cases with ⟨-, hy, hm, hd⟩ | ⟨-, -, hy, hm, -⟩ | ⟨-, -, hy, -, -⟩
  · rw [hy, hm, hd]
    exact List.cons_lt_cons_iff.mpr (.inr ⟨rfl, List.cons_lt_cons_iff.mpr (.inr ⟨rfl,
      List.cons_lt_cons_iff.mpr (.inl (Nat.lt_succ_self _))⟩)⟩)
  · rw [hy, hm]
    exact List.cons_lt_cons_iff.mpr (.inr ⟨rfl,
      List.cons_lt_cons_iff.mpr (.inl (Nat.lt_succ_self _))⟩)
  · rw [hy]
    exact List.cons_lt_cons_iff.mpr (.inl (Nat.lt_succ_self _))

theorem strictMono_iterate (start : Date) : StrictMono fun n => (next^[n] start).fields := by
  refine strictMono_nat_of_lt_succ fun n => ?_
  rw [Function.iterate_succ_apply']
  exact fields_lt_next _

/-! ## The day before -/

theorem next_of_day {previous date : Date} (hyear : date.year = previous.year)
    (hmonth : date.month = previous.month) (hday : date.day = previous.day + 1) :
    previous.next = date := by
  have hlength := date.day_le
  rw [hyear, hmonth] at hlength
  rcases previous.next_cases with ⟨-, hy, hm, hd⟩ | ⟨hlast, -⟩ | ⟨hlast, -⟩
  · exact Date.ext (hy.trans hyear.symm) (hm.trans hmonth.symm) (hd.trans hday.symm)
  · omega
  · omega

theorem next_of_month {previous date : Date}
    (hlast : previous.day = monthLength previous.year previous.month)
    (hyear : date.year = previous.year) (hmonth : date.month = previous.month + 1)
    (hday : date.day = 1) : previous.next = date := by
  have hle := date.month_le
  rcases previous.next_cases with ⟨hlt, -⟩ | ⟨-, -, hy, hm, hd⟩ | ⟨-, hend, -⟩
  · omega
  · exact Date.ext (hy.trans hyear.symm) (hm.trans hmonth.symm) (hd.trans hday.symm)
  · omega

theorem next_of_year {previous : Date} (hmonth : previous.month = 12) (hday : previous.day = 31) :
    previous.next = newYear (previous.year + 1) := by
  have hlength := monthLength_le previous.year previous.month
  rcases previous.next_cases with ⟨hlt, -⟩ | ⟨-, hlt, -⟩ | ⟨-, -, hy, hm, hd⟩
  · omega
  · omega
  · exact Date.ext hy hm hd

/-- A number that grows from each day to the next. -/
def weight (date : Date) : Nat := 372 * date.year + 31 * date.month + date.day

/-- A date after the first day of `start` has a day before it that is not earlier than that. -/
theorem exists_previous (start : Nat) (date : Date) (hyear : start ≤ date.year)
    (hne : date ≠ newYear start) :
    ∃ previous : Date, previous.next = date ∧ start ≤ previous.year ∧
      previous.weight < date.weight := by
  have hday_pos := date.day_pos
  have hday_le := date.day_le
  have hmonth_pos := date.month_pos
  have hmonth_le := date.month_le
  by_cases hday : date.day = 1
  · by_cases hmonth : date.month = 1
    · have hlater : start ≠ date.year := fun heq => hne (Date.ext heq.symm hmonth hday)
      obtain ⟨year, hyears⟩ : ∃ year, date.year = year + 1 := ⟨date.year - 1, by omega⟩
      have hstart : start ≤ year := by omega
      obtain rfl : date = newYear (year + 1) := Date.ext hyears hmonth hday
      let previous : Date := ⟨year, 12, 31, by decide, by decide, by decide, Nat.le_refl _⟩
      refine ⟨previous, next_of_year rfl rfl, hstart, ?_⟩
      show 372 * year + 31 * 12 + 31 < 372 * (year + 1) + 31 * 1 + 1
      omega
    · let previous : Date := ⟨date.year, date.month - 1, monthLength date.year (date.month - 1),
        by omega, by omega, monthLength_pos _ _, Nat.le_refl _⟩
      have hlength := monthLength_le date.year (date.month - 1)
      refine ⟨previous, next_of_month rfl rfl (by show date.month = date.month - 1 + 1; omega) hday,
        hyear, ?_⟩
      show 372 * date.year + 31 * (date.month - 1) + monthLength date.year (date.month - 1) <
        372 * date.year + 31 * date.month + date.day
      omega
  · let previous : Date := ⟨date.year, date.month, date.day - 1, date.month_pos, date.month_le,
      by omega, by omega⟩
    refine ⟨previous, next_of_day rfl rfl (by show date.day = date.day - 1 + 1; omega), hyear, ?_⟩
    show 372 * date.year + 31 * date.month + (date.day - 1) <
      372 * date.year + 31 * date.month + date.day
    omega

/-- Every date from the first of a year on is reached from there. -/
theorem exists_iterate_newYear (start : Nat) (date : Date) (hyear : start ≤ date.year) :
    ∃ n, next^[n] (newYear start) = date := by
  induction hweight : date.weight using Nat.strong_induction_on generalizing date with
  | _ weight ih =>
    by_cases hstart : date = newYear start
    · exact ⟨0, hstart.symm⟩
    · obtain ⟨previous, rfl, hprevious, hless⟩ := exists_previous start date hyear hstart
      obtain ⟨n, hn⟩ := ih _ (hweight ▸ hless) previous hprevious rfl
      exact ⟨n + 1, by rw [Function.iterate_succ_apply', hn]⟩

theorem year_iterate_le (start : Date) (n : Nat) : start.year ≤ (next^[n] start).year := by
  induction n with
  | zero => exact Nat.le_refl _
  | succ n ih =>
    rw [Function.iterate_succ_apply']
    rcases (next^[n] start).next_cases with ⟨-, hy, -⟩ | ⟨-, -, hy, -⟩ | ⟨-, -, hy, -⟩ <;> omega

/-- A count that is zero at the start and goes up by one each day is the number of days. -/
theorem count_iterate {start : Date} (count : Date → Int) (hstart : count start = 0)
    (hnext : ∀ date, start.year ≤ date.year → count date.next = count date + 1) (n : Nat) :
    count (next^[n] start) = n := by
  induction n with
  | zero => exact hstart
  | succ n ih =>
    rw [Function.iterate_succ_apply', hnext _ (year_iterate_le start n), ih]
    rfl

end Date

/-- A date with a time of day. -/
structure DateTime extends Date where
  hour : Nat
  minute : Nat
  second : Nat
  hour_lt : hour < 24
  minute_lt : minute < 60
  second_lt : second < 60

def DateTime.fields (t : DateTime) : List Nat :=
  [t.year, t.month, t.day, t.hour, t.minute, t.second]

/-- An earlier time is of an earlier day, or of the same day and earlier in it. -/
theorem DateTime.fields_lt {t t' : DateTime} (h : t.fields < t'.fields) :
    t.toDate.fields < t'.toDate.fields ∨
      (t.toDate = t'.toDate ∧ 3600 * t.hour + 60 * t.minute + t.second <
        3600 * t'.hour + 60 * t'.minute + t'.second) := by
  unfold DateTime.fields at h
  unfold Date.fields
  simp only [List.cons_lt_cons_iff, List.not_lt_nil, and_false, or_false] at h ⊢
  have hm := t.minute_lt
  have hs := t.second_lt
  rcases h with h | ⟨hyear, h | ⟨hmonth, h | ⟨hday, h⟩⟩⟩
  · exact .inl (.inl h)
  · exact .inl (.inr ⟨hyear, .inl h⟩)
  · exact .inl (.inr ⟨hyear, .inr ⟨hmonth, h⟩⟩)
  · refine .inr ⟨Date.ext hyear hmonth hday, ?_⟩
    omega

end Cmp.Lib.Calendar
