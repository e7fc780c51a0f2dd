import DiscVolume.Proofs.Calendar.DayNumbers

/-! Instants, counted in seconds along the calendar. Fields stand for an instant whether or not they
are within their ranges, and a valid time is told by its instant. What fields carry to is the valid
time of their instant, as far as their month and their instant lie in the years of the calendar.
-/

namespace DiscVolume.Calendar

/-- The fields of a time that is not recorded. -/
def CivilTime.zero : CivilTime := ⟨0, 0, 0, 0, 0, 0⟩

namespace CivilTime

/-- The number of seconds from the start of year 1 to the start of the month that fields name. -/
def monthInstant (fields : CivilTime) : Int :=
  monthStart (12 * fields.year + fields.month - 1) * secondsPerDay

/-- The number of seconds from the start of year 1 to what fields stand for: days are counted from
the first of the month on, and hours, minutes and seconds from the start of the day.
-/
def instant (fields : CivilTime) : Int :=
  fields.monthInstant + (fields.day - 1) * secondsPerDay + fields.hour * 3600 + fields.minute * 60
    + fields.second

/-- What fields stand for after every field has carried. -/
def carried? (fields : CivilTime) : Option CivilTime :=
  ofFields? fields.year fields.month fields.day fields.hour fields.minute fields.second

/-- The time that lies a number of seconds after the start of a date. -/
def ofDate (date : Nat × Nat × Nat) (seconds : Nat) : CivilTime :=
  ⟨date.1, date.2.1, date.2.2, seconds / 3600, seconds / 60 % 60, seconds % 60⟩

end CivilTime

/-- An instant lies in the years of the calendar. -/
def InCalendar (instant : Int) : Prop :=
  daysBeforeYear firstYear * secondsPerDay ≤ instant
  ∧ instant < daysBeforeYear (lastYear + 1) * secondsPerDay

instance (instant : Int) : Decidable (InCalendar instant) :=
  inferInstanceAs (Decidable (_ ∧ _))

theorem secondsPerDay_eq : (secondsPerDay : Int) = 86400 := rfl

-----------------------------------------------------------------------------------------
-- Valid times
-----------------------------------------------------------------------------------------

/-- A time of a date lies in the calendar just if the year of the date does. -/
theorem inCalendar_iff {date : Nat × Nat × Nat} (isDate : IsDate date) {seconds : Nat}
    (within : seconds < secondsPerDay)
    : InCalendar (dayNumber date * secondsPerDay + seconds)
      ↔ firstYear ≤ date.1 ∧ date.1 ≤ lastYear := by
  rw [isDate.year_bounds_iff, InCalendar, secondsPerDay_eq]
  rw [secondsPerDay] at within
  omega

namespace CivilTime

variable {fields time other : CivilTime}

theorem instant_ofDate (date : Nat × Nat × Nat) (seconds : Nat)
    : (ofDate date seconds).instant = dayNumber date * secondsPerDay + seconds := by
  simp only [ofDate, instant, monthInstant, dayNumber, secondsPerDay_eq]
  omega

theorem isValid_ofDate {date : Nat × Nat × Nat} (isDate : IsDate date)
    (above : firstYear ≤ date.1) (below : date.1 ≤ lastYear) {seconds : Nat}
    (within : seconds < secondsPerDay)
    : (ofDate date seconds).IsValid where
  firstYear_le := above
  year_le := below
  month_pos := isDate.month_pos
  month_le := isDate.month_le
  day_pos := isDate.day_pos
  day_le := isDate.day_le
  hour_lt := by
    rw [secondsPerDay] at within
    change seconds / 3600 < 24
    omega
  minute_lt := Nat.mod_lt _ (by decide)
  second_lt := Nat.mod_lt _ (by decide)

/-- A valid time is one of its date. -/
theorem IsValid.exists_ofDate (valid : time.IsValid)
    : ∃ date seconds, IsDate date ∧ seconds < secondsPerDay ∧ time = ofDate date seconds := by
  have hour_lt := valid.hour_lt
  have minute_lt := valid.minute_lt
  have second_lt := valid.second_lt
  refine ⟨(time.year, time.month, time.day), (time.hour * 60 + time.minute) * 60 + time.second,
    ⟨valid.month_pos, valid.month_le, valid.day_pos, valid.day_le⟩, ?_, ?_⟩
  · rw [secondsPerDay]
    omega
  · obtain ⟨year, month, day, hour, minute, second⟩ := time
    simp only [ofDate, mk.injEq, true_and] at *
    omega

/-- Valid times lie in the calendar. -/
theorem IsValid.inCalendar (valid : time.IsValid) : InCalendar time.instant := by
  have above := valid.firstYear_le
  have below := valid.year_le
  obtain ⟨date, seconds, isDate, within, rfl⟩ := valid.exists_ofDate
  rw [instant_ofDate, inCalendar_iff isDate within]
  exact ⟨above, below⟩

/-- No two valid times are one instant. -/
theorem IsValid.eq_of_instant_eq (valid : time.IsValid) (otherValid : other.IsValid)
    (same : time.instant = other.instant)
    : time = other := by
  obtain ⟨date, seconds, isDate, within, rfl⟩ := valid.exists_ofDate
  obtain ⟨otherDate, others, isOtherDate, otherWithin, rfl⟩ := otherValid.exists_ofDate
  rw [instant_ofDate, instant_ofDate, secondsPerDay_eq] at same
  rw [secondsPerDay] at within otherWithin
  have sameDay : dayNumber date = dayNumber otherDate := by omega
  have sameSeconds : seconds = others := by omega
  rw [isDate.eq_of_dayNumber_eq isOtherDate sameDay, sameSeconds]

-----------------------------------------------------------------------------------------
-- Carrying
-----------------------------------------------------------------------------------------

/-- The month that fields name lies in the calendar just if its year does. -/
theorem inCalendar_monthInstant_iff
    : InCalendar fields.monthInstant
      ↔ fields.year * 12 + fields.month ≠ 0
        ∧ firstYear ≤ (fields.year * 12 + fields.month - 1) / 12
        ∧ (fields.year * 12 + fields.month - 1) / 12 ≤ lastYear := by
  have above : monthStart (12 * (firstYear : Int))
        ≤ monthStart (12 * fields.year + fields.month - 1) ↔ _ := monthStart_le_iff
  have below : monthStart (12 * fields.year + fields.month - 1)
        < monthStart (12 * ((lastYear : Int) + 1)) ↔ _ := monthStart_lt_iff
  rw [monthStart_year] at above below
  rw [InCalendar, monthInstant, secondsPerDay_eq]
  simp only [firstYear, lastYear] at *
  omega

/-- Fields whose month lies in the calendar carry to the date and the seconds of their instant, as
far as that date lies in the calendar too.
-/
theorem exists_carried (recorded : fields ≠ zero) (inside : InCalendar fields.monthInstant)
    : ∃ date seconds, IsDate date ∧ seconds < secondsPerDay
        ∧ fields.instant = dayNumber date * secondsPerDay + seconds
        ∧ fields.carried?
          = if date.1 < firstYear ∨ lastYear < date.1 then none
            else some (ofDate date seconds) := by
  obtain ⟨year, month, day, hour, minute, second⟩ := fields
  obtain ⟨counted, above, below⟩ := inCalendar_monthInstant_iff.mp inside
  dsimp only at counted above below
  have someField : ¬(year = 0 ∧ month = 0 ∧ day = 0 ∧ hour = 0 ∧ minute = 0 ∧ second = 0) := by
    rintro ⟨rfl, rfl, rfl, rfl, rfl, rfl⟩
    exact recorded rfl
  have inRange : ¬((year * 12 + month - 1) / 12 < firstYear
      ∨ lastYear < (year * 12 + month - 1) / 12) := by omega
  have index : (12 * ((year * 12 + month - 1) / 12 : Nat)
      + ((year * 12 + month - 1) % 12 + 1 : Nat) - 1 : Int) = 12 * year + month - 1 := by omega
  let clock := (hour * 60 + minute) * 60 + second
  obtain ⟨isDate, number⟩ := dayOfMonth_isDate ((year * 12 + month - 1) / 12)
    ((year * 12 + month - 1) % 12 + 1) above (by omega) (by omega) (day + clock / secondsPerDay)
  rw [index] at number
  refine ⟨_, clock % secondsPerDay, isDate, Nat.mod_lt _ (by decide), ?_, ?_⟩
  · rw [number]
    simp only [instant, monthInstant, secondsPerDay, clock]
    omega
  · rw [carried?, ofFields?, if_neg someField, if_neg counted]
    simp only [if_neg inRange]
    rfl

theorem carried?_zero : carried? zero = none := rfl

/-- Fields whose month lies outside the calendar carry to nothing, wherever their instant lies. -/
theorem carried?_of_outside (outside : ¬InCalendar fields.monthInstant)
    : fields.carried? = none := by
  rw [inCalendar_monthInstant_iff] at outside
  rw [carried?, ofFields?]
  split
  · rfl
  · split
    · rfl
    · next counted =>
        have notInRange : (fields.year * 12 + fields.month - 1) / 12 < firstYear
            ∨ lastYear < (fields.year * 12 + fields.month - 1) / 12 := by omega
        simp only [if_pos notInRange]

/-- Fields carry to nothing where they are all zero, and where their month or their instant lies
outside the calendar.
-/
theorem carried?_eq_none_iff
    : fields.carried? = none
      ↔ fields = zero ∨ ¬InCalendar fields.monthInstant ∨ ¬InCalendar fields.instant := by
  by_cases unrecorded : fields = zero
  · subst unrecorded
    exact ⟨fun _ => .inl rfl, fun _ => carried?_zero⟩
  by_cases inside : InCalendar fields.monthInstant
  · obtain ⟨date, seconds, isDate, within, instant_eq, carried⟩ := exists_carried unrecorded inside
    rw [carried, instant_eq, inCalendar_iff isDate within]
    simp only [unrecorded, inside, not_true_eq_false, false_or]
    constructor
    · intro nothing inRange
      rw [if_neg (by omega)] at nothing
      cases nothing
    · intro notInRange
      exact if_pos (by omega)
  · exact ⟨fun _ => .inr (.inl inside), fun _ => carried?_of_outside inside⟩

/-- What fields carry to is a valid time of their own instant. -/
theorem isValid_of_carried (found : fields.carried? = some time)
    : time.IsValid ∧ time.instant = fields.instant := by
  have something : fields.carried? ≠ none := by
    rw [found]
    exact Option.some_ne_none time
  rw [ne_eq, carried?_eq_none_iff, not_or, not_or, Decidable.not_not, Decidable.not_not]
    at something
  obtain ⟨recorded, inside, inCalendar⟩ := something
  obtain ⟨date, seconds, isDate, within, instant_eq, carried⟩ := exists_carried recorded inside
  rw [instant_eq, inCalendar_iff isDate within] at inCalendar
  rw [carried, if_neg (by omega)] at found
  cases found
  refine ⟨isValid_ofDate isDate inCalendar.1 inCalendar.2 within, ?_⟩
  rw [instant_ofDate, instant_eq]

end CivilTime

/-- The instants in the calendar are just those of the valid times. -/
theorem inCalendar_iff_exists_valid {instant : Int}
    : InCalendar instant ↔ ∃ time : CivilTime, time.IsValid ∧ time.instant = instant := by
  constructor
  · intro inside
    -- The seconds of the first day may count up to any instant.
    let fields : CivilTime := ⟨1, 1, 1, 0, 0, instant.toNat⟩
    have first : fields.monthInstant = 0 := by
      change monthStart (12 * (1 : Nat) + (1 : Nat) - 1) * secondsPerDay = 0
      decide
    have notBefore : 0 ≤ instant := inside.1
    have same : fields.instant = instant := by
      rw [CivilTime.instant, first]
      simp only [fields]
      omega
    have recorded : fields ≠ .zero := fun unrecorded => by cases congrArg CivilTime.year unrecorded
    cases carried : fields.carried? with
    | none =>
        rw [CivilTime.carried?_eq_none_iff, first, same] at carried
        rcases carried with unrecorded | outside | outside
        · exact absurd unrecorded recorded
        · exact absurd (by decide) outside
        · exact absurd inside outside
    | some time =>
        obtain ⟨valid, found⟩ := CivilTime.isValid_of_carried carried
        exact ⟨time, valid, found.trans same⟩
  · rintro ⟨time, valid, rfl⟩
    exact valid.inCalendar

end DiscVolume.Calendar
