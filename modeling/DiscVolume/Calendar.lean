/-! Civil times of the proleptic Gregorian calendar, in UTC, for the years 1 to 9999. Recorded
fields may lie outside their range; each then carries into the next larger one, so month 0 is
December of the year before and day 0 is the last day of the month before.
-/

namespace DiscVolume.Calendar

/-- A second of a day of the calendar. -/
structure CivilTime where
  year : Nat
  month : Nat
  day : Nat
  hour : Nat
  minute : Nat
  second : Nat
  deriving DecidableEq, Repr

def firstYear : Nat := 1

def lastYear : Nat := 9999

def isLeapYear (year : Nat) : Bool :=
  year % 4 = 0 && (year % 100 ≠ 0 || year % 400 = 0)

def daysInMonth (year month : Nat) : Nat :=
  match month with
  | 2 => if isLeapYear year then 29 else 28
  | 4 | 6 | 9 | 11 => 30
  | _ => 31

theorem daysInMonth_pos (year month : Nat) : 0 < daysInMonth year month := by
  unfold daysInMonth
  split <;> (try split) <;> omega

/-- The month after a month, with its year. -/
def nextMonth (year month : Nat) : Nat × Nat :=
  if month = 12 then (year + 1, 1) else (year, month + 1)

/-- The date that lies a number of days after the first of a month, found by passing over
whole months.
-/
def dateAfter (year month days : Nat) : Nat × Nat × Nat :=
  if days < daysInMonth year month then (year, month, days + 1)
  else
    dateAfter (nextMonth year month).1 (nextMonth year month).2 (days - daysInMonth year month)
termination_by days
decreasing_by
  have := daysInMonth_pos year month
  omega

/-- The last day before the first of a month. -/
def dateBefore (year month : Nat) : Nat × Nat × Nat :=
  if month = 1 then (year - 1, 12, 31) else (year, month - 1, daysInMonth year (month - 1))

def secondsPerDay : Nat := 24 * 60 * 60

/-- The civil time that recorded fields stand for after every field has carried. There is none
when all fields are zero, when the month falls outside the years of the calendar, or when
the day that results does.
-/
def ofFields? (year month day hour minute second : Nat) : Option CivilTime :=
  if year = 0 ∧ month = 0 ∧ day = 0 ∧ hour = 0 ∧ minute = 0 ∧ second = 0 then none
  else if year * 12 + month = 0 then none
  else
    -- Months are counted from 0, so that a year and a month are one number.
    let months := year * 12 + month - 1
    let clock := (hour * 60 + minute) * 60 + second
    let days := day + clock / secondsPerDay
    let rest := clock % secondsPerDay
    if months / 12 < firstYear ∨ lastYear < months / 12 then none
    else
      let date :=
        if days = 0 then dateBefore (months / 12) (months % 12 + 1)
        else dateAfter (months / 12) (months % 12 + 1) (days - 1)
      if date.1 < firstYear ∨ lastYear < date.1 then none
      else some ⟨date.1, date.2.1, date.2.2, rest / 3600, rest / 60 % 60, rest % 60⟩

/-- A number padded with zeros to a width. -/
def padded (width number : Nat) : String :=
  let digits := (toString number).toList
  String.ofList (List.replicate (width - digits.length) '0' ++ digits)

/-- The extended form of a date and time of day in UTC. -/
def CivilTime.text (time : CivilTime) : String :=
  padded 4 time.year ++ "-" ++ padded 2 time.month ++ "-" ++ padded 2 time.day ++ "T"
    ++ padded 2 time.hour ++ ":" ++ padded 2 time.minute ++ ":" ++ padded 2 time.second
    ++ "+00:00"

end DiscVolume.Calendar
