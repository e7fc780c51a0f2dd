import DiscVolume.Calendar

/-! Valid civil times. A time whose fields are all within their ranges is the time that its own
fields stand for: nothing carries.
-/

namespace DiscVolume.Calendar

/-- Every field of a civil time is within its range. -/
structure CivilTime.IsValid (time : CivilTime) : Prop where
  firstYear_le : firstYear ≤ time.year
  year_le : time.year ≤ lastYear
  month_pos : 1 ≤ time.month
  month_le : time.month ≤ 12
  day_pos : 1 ≤ time.day
  day_le : time.day ≤ daysInMonth time.year time.month
  hour_lt : time.hour < 24
  minute_lt : time.minute < 60
  second_lt : time.second < 60

theorem daysInMonth_le (year month : Nat) : daysInMonth year month ≤ 31 := by
  unfold daysInMonth
  split <;> (try split) <;> omega

/-- A day of a month is found within that month. -/
theorem dateAfter_of_lt {year month days : Nat} (within : days < daysInMonth year month)
    : dateAfter year month days = (year, month, days + 1) := by
  rw [dateAfter, if_pos within]

/-- The fields of a valid time stand for that time. -/
theorem CivilTime.IsValid.ofFields?_eq {time : CivilTime} (valid : time.IsValid)
    : ofFields? time.year time.month time.day time.hour time.minute time.second = some time := by
  obtain ⟨year, month, day, hour, minute, second⟩ := time
  obtain ⟨firstYear_le, year_le, month_pos, month_le, day_pos, day_le, hour_lt, minute_lt,
    second_lt⟩ := valid
  simp only [firstYear, lastYear] at *
  have months : (year * 12 + month - 1) / 12 = year := by omega
  have monthOfYear : (year * 12 + month - 1) % 12 + 1 = month := by omega
  have clock : ((hour * 60 + minute) * 60 + second) / secondsPerDay = 0 :=
    Nat.div_eq_of_lt (by rw [secondsPerDay]; omega)
  have seconds : ((hour * 60 + minute) * 60 + second) % secondsPerDay
      = (hour * 60 + minute) * 60 + second := Nat.mod_eq_of_lt (by rw [secondsPerDay]; omega)
  have date : dateAfter year month (day - 1) = (year, month, day) := by
    rw [dateAfter_of_lt (by omega), Nat.sub_add_cancel day_pos]
  have hours : ((hour * 60 + minute) * 60 + second) / 3600 = hour := by omega
  have minutes : ((hour * 60 + minute) * 60 + second) / 60 % 60 = minute := by omega
  have rest : ((hour * 60 + minute) * 60 + second) % 60 = second := by omega
  rw [ofFields?, if_neg (by omega), if_neg (by omega)]
  simp only [months, monthOfYear, clock, seconds, Nat.add_zero, firstYear, lastYear]
  rw [if_neg (by omega), if_neg (by omega : ¬day = 0), date, if_neg (by simp only; omega), hours,
    minutes, rest]

end DiscVolume.Calendar
