import DiscVolume.Proofs.Calendar

/-! Days of the proleptic Gregorian calendar, numbered. A year starts where the lengths of all years
before it add up to, and a month where those of the months before it do; this holds for years of
either sign. To pass over months one by one leads to the date with the number that is looked for.
-/

namespace DiscVolume.Calendar

-----------------------------------------------------------------------------------------
-- Years and months
-----------------------------------------------------------------------------------------

/-- Every fourth year has a leap day, but of the hundredth ones only every fourth. -/
def leapDays (year : Int) : Int := if 4 ∣ year ∧ (100 ∣ year → 400 ∣ year) then 1 else 0

/-- The number of days of a month of a year, whose months are counted from 0. -/
def monthLength (year : Int) (month : Nat) : Int :=
  match month with
  | 1 => 28 + leapDays year
  | 3 | 5 | 8 | 10 => 30
  | _ => 31

/-- The number of days of a year before a month of it. -/
def daysBeforeMonth (year : Int) : Nat → Int
  | 0 => 0
  | month + 1 => daysBeforeMonth year month + monthLength year month

/-- The number of days from the start of year 1 to the start of another year. -/
def daysBeforeYear (year : Int) : Int :=
  365 * (year - 1) + (year - 1) / 4 - (year - 1) / 100 + (year - 1) / 400

/-- The number of days from the start of year 1 to the start of a month. Months are counted on from
January of year 0.
-/
def monthStart (months : Int) : Int :=
  daysBeforeYear (months / 12) + daysBeforeMonth (months / 12) (months % 12).toNat

theorem leapDays_natCast (year : Nat) : leapDays year = if isLeapYear year then 1 else 0 := by
  have same : (4 ∣ (year : Int) ∧ (100 ∣ (year : Int) → 400 ∣ (year : Int)))
      ↔ isLeapYear year = true := by
    simp only [isLeapYear, Bool.and_eq_true, Bool.or_eq_true, decide_eq_true_eq]
    omega
  exact ite_congr (propext same) (fun _ => rfl) (fun _ => rfl)

theorem leapDays_bounds (year : Int) : 0 ≤ leapDays year ∧ leapDays year ≤ 1 := by
  unfold leapDays
  split <;> omega

/-- A month has as many days as it has in the years that are not negative. -/
theorem monthLength_natCast (year month : Nat)
    : monthLength year month = daysInMonth year (month + 1) := by
  match month with
  | 1 =>
      rw [monthLength, leapDays_natCast, daysInMonth]
      split <;> rfl
  | 0 | 2 | 3 | 4 | 5 | 6 | 7 | 8 | 9 | 10 | _ + 11 => rfl

theorem monthLength_pos (year : Int) (month : Nat) : 0 < monthLength year month := by
  have leap := leapDays_bounds year
  unfold monthLength
  split <;> omega

/-- A year ends where the lengths of its months add up to. -/
theorem daysBeforeYear_succ (year : Int)
    : daysBeforeYear (year + 1) = daysBeforeYear year + daysBeforeMonth year 12 := by
  simp only [daysBeforeYear, daysBeforeMonth, monthLength, leapDays]
  split <;> omega

theorem monthStart_eq (year : Int) (month : Nat) (inYear : month < 12)
    : monthStart (12 * year + month) = daysBeforeYear year + daysBeforeMonth year month := by
  have quotient : (12 * year + month) / 12 = year := by omega
  have remainder : ((12 * year + month) % 12).toNat = month := by omega
  rw [monthStart, quotient, remainder]

/-- A year starts with its first month. -/
theorem monthStart_year (year : Int) : monthStart (12 * year) = daysBeforeYear year := by
  have start := monthStart_eq year 0 (by omega)
  simpa [daysBeforeMonth] using start

/-- The next month starts where a month ends. After the last month that is the next year. -/
theorem monthStart_succ (year : Int) (month : Nat) (inYear : month < 12)
    : monthStart (12 * year + month + 1)
      = monthStart (12 * year + month) + monthLength year month := by
  rw [monthStart_eq year month inYear]
  by_cases isLast : month = 11
  · subst isLast
    have next : 12 * year + (11 : Nat) + 1 = 12 * (year + 1) := by omega
    rw [next, monthStart_year, daysBeforeYear_succ, daysBeforeMonth, Int.add_assoc]
  · have next := monthStart_eq year (month + 1) (by omega)
    rw [Int.natCast_add, Int.natCast_one, ← Int.add_assoc] at next
    rw [next, daysBeforeMonth, Int.add_assoc]

/-- The next month starts later, by at least a day. -/
theorem monthStart_lt_succ (months : Int) : monthStart months < monthStart (months + 1) := by
  have index : months = 12 * (months / 12) + ((months % 12).toNat : Nat) := by omega
  have positive := monthLength_pos (months / 12) (months % 12).toNat
  rw [index, monthStart_succ _ _ (by omega)]
  omega

/-- Later months start later. The induction is on the months between. -/
theorem monthStart_lt {months others : Int} (before : months < others)
    : monthStart months < monthStart others := by
  obtain ⟨between, rfl⟩ : ∃ between : Nat, others = months + between + 1 :=
    ⟨(others - months - 1).toNat, by omega⟩
  clear before
  induction between with
  | zero =>
      rw [Int.natCast_zero, Int.add_zero]
      exact monthStart_lt_succ months
  | succ between ih =>
      rw [Int.natCast_succ, ← Int.add_assoc months]
      exact Int.lt_trans ih (monthStart_lt_succ _)

theorem monthStart_le_iff {months others : Int}
    : monthStart months ≤ monthStart others ↔ months ≤ others := by
  constructor
  · intro noLater
    exact Int.not_lt.mp fun behind => Int.not_lt.mpr noLater (monthStart_lt behind)
  · intro noLater
    rcases Int.lt_or_eq_of_le noLater with before | rfl
    · exact Int.le_of_lt (monthStart_lt before)
    · exact Int.le_refl _

theorem monthStart_lt_iff {months others : Int}
    : monthStart months < monthStart others ↔ months < others := by
  rw [← Int.not_le, monthStart_le_iff, Int.not_le]

/-- A day lies in one month only. -/
theorem month_unique {months others day : Int} (start : monthStart months ≤ day)
    (stop : day < monthStart (months + 1)) (otherStart : monthStart others ≤ day)
    (otherStop : day < monthStart (others + 1))
    : months = others := by
  have notBefore : months < others + 1 :=
    monthStart_lt_iff.mp (Int.lt_of_le_of_lt start otherStop)
  have notBehind : others < months + 1 :=
    monthStart_lt_iff.mp (Int.lt_of_le_of_lt otherStart stop)
  omega

-----------------------------------------------------------------------------------------
-- Dates
-----------------------------------------------------------------------------------------

/-- A year, a month from 1 to 12, and a day that the month has. -/
structure IsDate (date : Nat × Nat × Nat) : Prop where
  month_pos : 1 ≤ date.2.1
  month_le : date.2.1 ≤ 12
  day_pos : 1 ≤ date.2.2
  day_le : date.2.2 ≤ daysInMonth date.1 date.2.1

/-- The number of days from the start of year 1 to a date. -/
def dayNumber (date : Nat × Nat × Nat) : Int :=
  monthStart (12 * date.1 + date.2.1 - 1) + date.2.2 - 1

theorem dayNumber_eq (year month day : Nat)
    : dayNumber (year, month, day) = monthStart (12 * year + month - 1) + day - 1 := rfl

example : dayNumber (1970, 1, 1) = 719162 ∧ dayNumber (2000, 3, 1) = 730179 := by decide

/-- The first of the next month lies as many days on as the month has. -/
theorem monthStart_nextMonth (year month : Nat) (month_pos : 1 ≤ month) (month_le : month ≤ 12)
    : monthStart (12 * year + month)
      = monthStart (12 * year + month - 1) + daysInMonth year month := by
  obtain ⟨before, rfl⟩ : ∃ before, month = before + 1 := ⟨month - 1, by omega⟩
  have next := monthStart_succ year before (by omega)
  rw [monthLength_natCast] at next
  rw [Int.natCast_add, Int.natCast_one, ← Int.add_assoc, next, Int.add_sub_cancel]

/-- A date lies between the starts of its month and of the next one. -/
theorem IsDate.dayNumber_bounds {date : Nat × Nat × Nat} (isDate : IsDate date)
    : monthStart (12 * date.1 + date.2.1 - 1) ≤ dayNumber date
      ∧ dayNumber date < monthStart (12 * date.1 + date.2.1) := by
  have next := monthStart_nextMonth date.1 date.2.1 isDate.month_pos isDate.month_le
  have day_pos := isDate.day_pos
  have day_le := isDate.day_le
  rw [next, dayNumber]
  omega

/-- A day has one date. -/
theorem IsDate.eq_of_dayNumber_eq {first second : Nat × Nat × Nat} (isFirst : IsDate first)
    (isSecond : IsDate second) (same : dayNumber first = dayNumber second)
    : first = second := by
  obtain ⟨start, stop⟩ := isFirst.dayNumber_bounds
  obtain ⟨otherStart, otherStop⟩ := isSecond.dayNumber_bounds
  have sameMonth : (12 * first.1 + first.2.1 - 1 : Int) = 12 * second.1 + second.2.1 - 1 := by
    refine month_unique start ?_ (same ▸ otherStart) ?_
    · rwa [Int.sub_add_cancel]
    · rwa [Int.sub_add_cancel, same]
  have month_pos := isFirst.month_pos
  have month_le := isFirst.month_le
  have otherMonth_pos := isSecond.month_pos
  have otherMonth_le := isSecond.month_le
  have sameDay := same
  rw [dayNumber, dayNumber, sameMonth] at sameDay
  refine Prod.ext ?_ (Prod.ext ?_ ?_) <;> omega

/-- A date lies in the years from one to another just if it does so by its number. -/
theorem IsDate.year_bounds_iff {date : Nat × Nat × Nat} (isDate : IsDate date) (first last : Nat)
    : (first ≤ date.1 ∧ date.1 ≤ last)
      ↔ daysBeforeYear first ≤ dayNumber date ∧ dayNumber date < daysBeforeYear (last + 1) := by
  obtain ⟨start, stop⟩ := isDate.dayNumber_bounds
  have month_pos := isDate.month_pos
  have month_le := isDate.month_le
  rw [← monthStart_year, ← monthStart_year]
  constructor
  · rintro ⟨first_le, le_last⟩
    have above := monthStart_le_iff.mpr
      (by omega : (12 * first : Int) ≤ 12 * date.1 + date.2.1 - 1)
    have below := monthStart_le_iff.mpr
      (by omega : (12 * date.1 + date.2.1 : Int) ≤ 12 * (last + 1))
    omega
  · rintro ⟨above, below⟩
    have notBefore := monthStart_lt_iff.mp (Int.lt_of_le_of_lt above stop)
    have notBehind := monthStart_lt_iff.mp (Int.lt_of_le_of_lt start below)
    omega

-----------------------------------------------------------------------------------------
-- Passing over months
-----------------------------------------------------------------------------------------

/-- The date that is found a number of days after the first of a month is a date, and has the
number that it should have. The induction is on the months that are passed over.
-/
theorem dateAfter_isDate (year month : Nat) (month_pos : 1 ≤ month) (month_le : month ≤ 12)
    (days : Nat)
    : IsDate (dateAfter year month days)
      ∧ dayNumber (dateAfter year month days) = monthStart (12 * year + month - 1) + days := by
  fun_induction dateAfter year month days with
  | case1 year month days within =>
      refine ⟨⟨month_pos, month_le, Nat.succ_le_succ (Nat.zero_le _), within⟩, ?_⟩
      rw [dayNumber_eq]
      omega
  | case2 year month days beyond ih =>
      have start := monthStart_nextMonth year month month_pos month_le
      have index : (12 * (nextMonth year month).1 + (nextMonth year month).2 - 1 : Int)
          = 12 * year + month := by
        unfold nextMonth
        split <;> omega
      have next_le : 1 ≤ (nextMonth year month).2 ∧ (nextMonth year month).2 ≤ 12 := by
        unfold nextMonth
        split <;> omega
      obtain ⟨isDate, number⟩ := ih next_le.1 next_le.2
      refine ⟨isDate, ?_⟩
      rw [number, index, start]
      omega

/-- The last day of a month lies before the start of the next month. -/
theorem lastDay_isDate (year month : Nat) (month_pos : 1 ≤ month) (month_le : month ≤ 12)
    : IsDate (year, month, daysInMonth year month)
      ∧ dayNumber (year, month, daysInMonth year month) = monthStart (12 * year + month) - 1 := by
  refine ⟨⟨month_pos, month_le, daysInMonth_pos year month, Nat.le_refl _⟩, ?_⟩
  rw [dayNumber_eq, monthStart_nextMonth year month month_pos month_le]

/-- The day before the first of a month is the last one of the month before. -/
theorem dateBefore_isDate (year month : Nat) (year_pos : 1 ≤ year) (month_pos : 1 ≤ month)
    (month_le : month ≤ 12)
    : IsDate (dateBefore year month)
      ∧ dayNumber (dateBefore year month) = monthStart (12 * year + month - 1) - 1 := by
  unfold dateBefore
  split
  · next isFirst =>
      obtain ⟨isDate, number⟩ := lastDay_isDate (year - 1) 12 (by omega) (by omega)
      have index : (12 * (year - 1 : Nat) + (12 : Nat) : Int) = 12 * year + month - 1 := by omega
      rw [index] at number
      exact ⟨isDate, number⟩
  · next isLater =>
      obtain ⟨isDate, number⟩ := lastDay_isDate year (month - 1) (by omega) (by omega)
      have index : (12 * year + (month - 1 : Nat) : Int) = 12 * year + month - 1 := by omega
      rw [index] at number
      exact ⟨isDate, number⟩

/-- The days of a month are numbered on from its start, in either direction: day 0 is the day before
the first.
-/
theorem dayOfMonth_isDate (year month : Nat) (year_pos : 1 ≤ year) (month_pos : 1 ≤ month)
    (month_le : month ≤ 12) (day : Nat)
    : let date := if day = 0 then dateBefore year month else dateAfter year month (day - 1)
      IsDate date ∧ dayNumber date = monthStart (12 * year + month - 1) + day - 1 := by
  by_cases before : day = 0
  · simp only [before, if_true]
    obtain ⟨isDate, number⟩ := dateBefore_isDate year month year_pos month_pos month_le
    refine ⟨isDate, ?_⟩
    rw [number]
    omega
  · simp only [before, if_false]
    obtain ⟨isDate, number⟩ := dateAfter_isDate year month month_pos month_le (day - 1)
    refine ⟨isDate, ?_⟩
    rw [number]
    omega

end DiscVolume.Calendar
