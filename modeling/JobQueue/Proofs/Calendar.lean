import JobQueue.Calendar.Local

/-! # Days and dates

Every day number has a date, a valid one, and the date has that day number. The year of a day is found
because the days before the years grow by the length of each year; the month, because the days before the
months do.
-/

namespace JobQueue

namespace Date

/-- The days of a year, which a month behind the last one would have before it. -/
def yearLength (leap : Bool) : Nat := daysBeforeMonth leap 13

theorem isLeapYear_iff (year : Int) :
    isLeapYear year = true ↔ year % 4 = 0 ∧ (year % 100 ≠ 0 ∨ year % 400 = 0) := by
  simp only [isLeapYear, Bool.and_eq_true, Bool.or_eq_true, beq_iff_eq, bne_iff_ne]

theorem yearLength_eq (leap : Bool) : yearLength leap = if leap then 366 else 365 := by
  cases leap <;> rfl

theorem daysBeforeYear_succ (year : Int) :
    daysBeforeYear (year + 1) = daysBeforeYear year + yearLength (isLeapYear year) := by
  rw [yearLength_eq]
  simp only [daysBeforeYear, isLeapYear_iff]
  split <;> omega

/-- The years before one, counted in spans of 400, 100, 4 and 1, give the days before it. -/
theorem daysBeforeYear_spans {a b c d : Int} (hundreds : 0 ≤ b ∧ b ≤ 3) (fours : 0 ≤ c ∧ c ≤ 24)
    (ones : 0 ≤ d ∧ d ≤ 3) :
    daysBeforeYear (400 * a + 100 * b + 4 * c + d + 1) = 146097 * a + 36524 * b + 1461 * c + 365 * d := by
  have by4 : (400 * a + 100 * b + 4 * c + d) / 4 = 100 * a + 25 * b + c := by omega
  have by100 : (400 * a + 100 * b + 4 * c + d) / 100 = 4 * a + b := by omega
  have by400 : (400 * a + 100 * b + 4 * c + d) / 400 = a := by omega
  simp only [daysBeforeYear, Int.add_sub_cancel, by4, by100, by400]
  omega

/-- A day lies in its year. -/
theorem yearOf_spec (count : Int) :
    daysBeforeYear (yearOf count) ≤ count ∧ count < daysBeforeYear (yearOf count + 1) := by
  simp only [yearOf]
  generalize spans400 : count / 146097 = a
  generalize left400 : count % 146097 = rest400
  generalize spans100 : min (rest400 / 36524) 3 = b
  generalize left100 : rest400 - 36524 * b = rest100
  generalize spans4 : rest100 / 1461 = c
  generalize left4 : rest100 % 1461 = rest4
  generalize spans1 : min (rest4 / 365) 3 = d
  have whole : count = 146097 * a + rest400 := by omega
  have small400 : 0 ≤ rest400 ∧ rest400 < 146097 := by omega
  have hundreds : 0 ≤ b ∧ b ≤ 3 := by omega
  have small100 : 0 ≤ rest100 ∧ rest100 < 36524 + (if b = 3 then 1 else 0) := by split <;> omega
  have whole100 : rest100 = 1461 * c + rest4 := by omega
  have fours : 0 ≤ c ∧ c ≤ 24 := by split at small100 <;> omega
  have small4 : 0 ≤ rest4 ∧ rest4 < 1461 := by omega
  have ones : 0 ≤ d ∧ d ≤ 3 := by omega
  have days := daysBeforeYear_spans (a := a) hundreds fours ones
  constructor
  · omega
  rw [daysBeforeYear_succ, days, yearLength_eq]
  by_cases last : rest4 = 1460
  · -- the last day of four years is the day that its last year is longer by
    have long : isLeapYear (400 * a + 100 * b + 4 * c + d + 1) = true := by
      rw [isLeapYear_iff]
      split at small100 <;> omega
    rw [if_pos long]
    omega
  · split <;> omega

/-! ## Months -/

/-- A day of the year lies in its month. -/
theorem monthUpTo_spec (leap : Bool) (dayOfYear : Nat) {limit : Nat} (positive : 0 < limit) :
    1 ≤ monthUpTo leap dayOfYear limit ∧ monthUpTo leap dayOfYear limit ≤ limit ∧
      daysBeforeMonth leap (monthUpTo leap dayOfYear limit) ≤ dayOfYear ∧
      (dayOfYear < daysBeforeMonth leap (limit + 1) →
        dayOfYear < daysBeforeMonth leap (monthUpTo leap dayOfYear limit + 1)) := by
  fun_induction monthUpTo leap dayOfYear limit with
  | case1 => contradiction
  | case2 => exact ⟨Nat.le_refl _, Nat.le_refl _, by cases leap <;> exact Nat.zero_le _, id⟩
  | case3 month reached => exact ⟨by omega, Nat.le_refl _, reached, id⟩
  | case4 month before ih =>
    obtain ⟨first, last, reached, within⟩ := ih (Nat.succ_pos month)
    exact ⟨first, Nat.le_succ_of_le last, reached, fun _ => within (Nat.lt_of_not_le before)⟩

theorem daysInMonth_le {year : Int} {month : Nat} (months : month ≤ 12) : daysInMonth year month ≤ 31 := by
  have longest : ∀ leap : Bool, ∀ month ≤ 12,
      daysBeforeMonth leap (month + 1) - daysBeforeMonth leap month ≤ 31 := by decide
  exact longest _ month months

/-- Every day number has a valid date. -/
theorem ofDayNumber_isValid (number : Int) : (ofDayNumber number).IsValid := by
  obtain ⟨since, behind⟩ := yearOf_spec (number + epochShift)
  rw [daysBeforeYear_succ] at behind
  simp only [ofDayNumber]
  generalize yearOf (number + epochShift) = year at since behind ⊢
  have within : (number + epochShift - daysBeforeYear year).toNat < daysBeforeMonth (isLeapYear year) 13 := by
    simp only [yearLength] at behind
    omega
  obtain ⟨first, last, reached, before⟩ := monthUpTo_spec (isLeapYear year)
    (number + epochShift - daysBeforeYear year).toNat (show 0 < 12 by decide)
  have inside := before within
  refine ⟨first, last, Nat.succ_pos _, ?_⟩
  simp only [daysInMonth]
  omega

/-- The date of a day number has that day number. -/
theorem dayNumber_ofDayNumber (number : Int) : (ofDayNumber number).dayNumber = number := by
  obtain ⟨since, -⟩ := yearOf_spec (number + epochShift)
  simp only [ofDayNumber, dayNumber]
  generalize yearOf (number + epochShift) = year at since ⊢
  obtain ⟨-, -, reached, -⟩ := monthUpTo_spec (isLeapYear year)
    (number + epochShift - daysBeforeYear year).toNat (show 0 < 12 by decide)
  omega

end Date

namespace Instant

/-- A fraction below one second, or below two within a leap second. -/
def IsProper (instant : Instant) : Prop :=
  instant.nanos < 1000000000 ∨ instant.nanos < 2000000000 ∧ instant.seconds % 60 = 59

instance (instant : Instant) : Decidable instant.IsProper := inferInstanceAs (Decidable (_ ∨ _))

/-- An instant of the years in use. Any of their seconds may be taken for a leap second. -/
structure InUse (instant : Instant) : Prop where
  years : LocalTime.inYears instant.seconds = true
  fraction : instant.nanos < 2000000000

/-- The year that an instant falls in. -/
def year (instant : Instant) : Int := (Date.ofDayNumber (instant.seconds / 86400)).year

/-- The instant without what is finer than a millisecond. -/
def truncated (instant : Instant) : Instant :=
  { instant with nanos := instant.nanos / 1000000 * 1000000 }

/-- The instant with a whole second of its fraction carried into the next second. The last second of a minute
keeps its fraction, since there is a leap second behind it. -/
def carried (instant : Instant) : Instant :=
  if instant.IsProper then instant
  else { seconds := instant.seconds + 1, nanos := instant.nanos - 1000000000 }

/-- The instant that the canonical text of an instant denotes: a whole second of the fraction is carried, and
what is finer than a millisecond is left out. -/
def readBack (instant : Instant) : Instant := instant.carried.truncated

theorem carried_of_isProper {instant : Instant} (proper : instant.IsProper) : instant.carried = instant :=
  if_pos proper

/-- Only instants in the middle of a minute are changed. -/
theorem InUse.carried_cases {instant : Instant} (inUse : instant.InUse) :
    instant.IsProper ∧ instant.carried = instant ∨
      instant.seconds % 60 ≠ 59 ∧ 1000000000 ≤ instant.nanos ∧
        instant.carried = ⟨instant.seconds + 1, instant.nanos - 1000000000⟩ := by
  by_cases proper : instant.IsProper
  · exact .inl ⟨proper, carried_of_isProper proper⟩
  · have fraction := inUse.fraction
    have carried : instant.carried = ⟨instant.seconds + 1, instant.nanos - 1000000000⟩ := if_neg proper
    simp only [IsProper] at proper
    exact .inr ⟨by omega, by omega, carried⟩

theorem InUse.carried_isProper {instant : Instant} (inUse : instant.InUse) : instant.carried.IsProper := by
  have fraction := inUse.fraction
  rcases inUse.carried_cases with ⟨proper, same⟩ | ⟨-, -, carried⟩
  · rwa [same]
  · rw [carried]
    refine .inl ?_
    change instant.nanos - 1000000000 < 1000000000
    omega

/-- What is carried within a minute stays in the day. -/
theorem InUse.year_carried {instant : Instant} (inUse : instant.InUse) :
    instant.carried.year = instant.year := by
  rcases inUse.carried_cases with ⟨-, same⟩ | ⟨inside, -, carried⟩
  · rw [same]
  · have day : (instant.seconds + 1) / 86400 = instant.seconds / 86400 := by omega
    rw [carried, year, day, year]

/-- The instant some seconds later. -/
def later (instant : Instant) (seconds : Int) : Instant :=
  { instant with seconds := instant.seconds + seconds }

/-- Whole minutes move no instant into a leap second or out of one. -/
theorem IsProper.later {instant : Instant} (proper : instant.IsProper) (minutes : Int) :
    (instant.later (60 * minutes)).IsProper := by
  simp only [IsProper, Instant.later] at proper ⊢
  omega

/-- The years of four digits lie a day within the years of the calendar in use. -/
theorem inYears_of_near {instant : Instant} (from0 : 0 ≤ instant.year) (to9999 : instant.year ≤ 9999)
    {seconds : Int} (since : instant.seconds - 86400 ≤ seconds) (till : seconds ≤ instant.seconds + 86400) :
    LocalTime.inYears seconds = true := by
  obtain ⟨first, last⟩ := Date.yearOf_spec (instant.seconds / 86400 + Date.epochShift)
  change 0 ≤ Date.yearOf (instant.seconds / 86400 + Date.epochShift) at from0
  change Date.yearOf (instant.seconds / 86400 + Date.epochShift) ≤ 9999 at to9999
  simp only [Date.daysBeforeYear, Date.epochShift] at *
  have least : firstSecond = -8334601228800 := by decide
  have bound : endSecond = 8210266876800 := by decide
  rw [LocalTime.inYears, least, bound, Bool.and_eq_true, decide_eq_true_eq, decide_eq_true_eq]
  omega

theorem inYears_of_year {instant : Instant} (from0 : 0 ≤ instant.year) (to9999 : instant.year ≤ 9999) :
    LocalTime.inYears instant.seconds = true :=
  inYears_of_near from0 to9999 (by omega) (by omega)

end Instant

namespace LocalTime

variable {instant : Instant}

/-- A clock without offset shows a time of day that there is, and the leap second as second 60. -/
theorem ofInstant_isValid (proper : instant.IsProper) : (ofInstant instant).IsValid := by
  refine ⟨Date.ofDayNumber_isValid _, ?_⟩
  simp only [Instant.IsProper] at proper
  simp only [ofInstant]
  omega

/-- A clock shows the same whether a whole second of the fraction is carried or not. -/
theorem ofInstant_carried (inUse : instant.InUse) : ofInstant instant.carried = ofInstant instant := by
  have fraction := inUse.fraction
  rcases inUse.carried_cases with ⟨-, same⟩ | ⟨inside, whole, carried⟩
  · rw [same]
  · have day : (instant.seconds + 1) / 86400 = instant.seconds / 86400 := by omega
    have ofDay : ((instant.seconds + 1) % 86400).toNat = (instant.seconds % 86400).toNat + 1 := by omega
    rw [carried]
    simp only [ofInstant, day, ofDay, LocalTime.mk.injEq]
    exact ⟨trivial, by omega, by omega, by omega, by omega⟩

/-- What a clock without offset shows leads back to the second it was read in. -/
theorem clockSeconds_ofInstant (proper : instant.IsProper) :
    (ofInstant instant).clockSeconds = instant.seconds := by
  simp only [Instant.IsProper] at proper
  simp only [clockSeconds, ofInstant, Date.dayNumber_ofDayNumber]
  omega

/-- The time a clock shows, read to the millisecond, denotes the instant to the millisecond. -/
theorem instant?_ofInstant (proper : instant.IsProper) (from0 : 0 ≤ instant.year)
    (to9999 : instant.year ≤ 9999) :
    instant? { ofInstant instant with nanos := (ofInstant instant).nanos / 1000000 * 1000000 } 0 =
      some instant.truncated := by
  have seconds := clockSeconds_ofInstant proper
  have valid : IsValid { ofInstant instant with nanos := (ofInstant instant).nanos / 1000000 * 1000000 } :=
    ofInstant_isValid proper
  change clockSeconds { ofInstant instant with nanos := (ofInstant instant).nanos / 1000000 * 1000000 } =
    instant.seconds at seconds
  have inYears := Instant.inYears_of_year from0 to9999
  have nanos : (if (ofInstant instant).second = 60 then
        1000000000 + (ofInstant instant).nanos / 1000000 * 1000000
      else (ofInstant instant).nanos / 1000000 * 1000000) = instant.nanos / 1000000 * 1000000 := by
    have second : (ofInstant instant).second =
        (instant.seconds % 86400).toNat % 60 + instant.nanos / 1000000000 := rfl
    have fraction : (ofInstant instant).nanos = instant.nanos % 1000000000 := rfl
    simp only [Instant.IsProper] at proper
    split <;> omega
  unfold instant?
  rw [seconds, Int.sub_zero, if_pos ⟨valid, inYears, inYears⟩]
  exact congrArg (fun nanos => some (Instant.mk instant.seconds nanos)) nanos

/-- What a clock some whole minutes east of UTC shows denotes the instant there. -/
theorem instant?_later {minutes : Int} (within : -1440 < minutes ∧ minutes < 1440) (proper : instant.IsProper)
    (from0 : 0 ≤ (instant.later (60 * minutes)).year) (to9999 : (instant.later (60 * minutes)).year ≤ 9999) :
    (ofInstant (instant.later (60 * minutes))).instant? (60 * minutes) = some instant := by
  have shifted : (instant.later (60 * minutes)).seconds = instant.seconds + 60 * minutes := rfl
  have same : (instant.later (60 * minutes)).nanos = instant.nanos := rfl
  have properLater := proper.later minutes
  have back : (ofInstant (instant.later (60 * minutes))).clockSeconds - 60 * minutes = instant.seconds := by
    rw [clockSeconds_ofInstant properLater, shifted]
    omega
  have inYears := Instant.inYears_of_year from0 to9999
  have before : LocalTime.inYears instant.seconds = true :=
    Instant.inYears_of_near from0 to9999 (by omega) (by omega)
  have nanos : (if (ofInstant (instant.later (60 * minutes))).second = 60 then
        1000000000 + (ofInstant (instant.later (60 * minutes))).nanos
      else (ofInstant (instant.later (60 * minutes))).nanos) = instant.nanos := by
    simp only [Instant.IsProper] at proper
    simp only [ofInstant, shifted, same]
    split <;> omega
  unfold instant?
  rw [back, clockSeconds_ofInstant properLater, if_pos ⟨ofInstant_isValid properLater, inYears, before⟩]
  exact congrArg (fun nanos => some (Instant.mk instant.seconds nanos)) nanos

end LocalTime

end JobQueue
