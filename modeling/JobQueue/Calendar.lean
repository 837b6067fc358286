/-! # The proleptic Gregorian calendar

Days are counted from 1970-01-01. A date goes to its day number and back, for every year of the calendar
extended in both directions. An instant is a count of seconds and a fraction, which reaches into a second
second during a leap second.
-/

namespace JobQueue

/-- A date of the calendar. -/
structure Date where
  year : Int
  month : Nat
  day : Nat
deriving DecidableEq, Repr

/-- Seconds since 1970-01-01T00:00:00Z and nanoseconds, from `10 ^ 9` on within a leap second. -/
structure Instant where
  seconds : Int
  nanos : Nat
deriving DecidableEq, Repr

namespace Date

def isLeapYear (year : Int) : Bool :=
  year % 4 == 0 && (year % 100 != 0 || year % 400 == 0)

/-- The days of a year before one of its months, or of the whole year for month 13. -/
def daysBeforeMonth (leap : Bool) (month : Nat) : Nat :=
  let common := match month with
    | 0 | 1 => 0
    | 2 => 31
    | 3 => 59
    | 4 => 90
    | 5 => 120
    | 6 => 151
    | 7 => 181
    | 8 => 212
    | 9 => 243
    | 10 => 273
    | 11 => 304
    | 12 => 334
    | _ => 365
  if leap ∧ 2 < month then common + 1 else common

def daysInMonth (year : Int) (month : Nat) : Nat :=
  daysBeforeMonth (isLeapYear year) (month + 1) - daysBeforeMonth (isLeapYear year) month

/-- The days from 0001-01-01 to the first day of a year. -/
def daysBeforeYear (year : Int) : Int :=
  let past := year - 1
  365 * past + past / 4 - past / 100 + past / 400

/-- The day number of 0001-01-01, negated. -/
def epochShift : Int := 719162

def IsValid (date : Date) : Prop :=
  1 ≤ date.month ∧ date.month ≤ 12 ∧ 1 ≤ date.day ∧ date.day ≤ daysInMonth date.year date.month

instance (date : Date) : Decidable date.IsValid :=
  inferInstanceAs (Decidable (_ ∧ _ ∧ _ ∧ _))

/-- The day number of a date. -/
def dayNumber (date : Date) : Int :=
  daysBeforeYear date.year + daysBeforeMonth (isLeapYear date.year) date.month + date.day - 1 - epochShift

/-- The year that a count of days from 0001-01-01 falls in: whole spans of 400, 100, 4 and 1 years are
taken out, the last day of a span belonging to its last year. -/
def yearOf (count : Int) : Int :=
  let spans400 := count / 146097
  let rest400 := count % 146097
  let spans100 := min (rest400 / 36524) 3
  let rest100 := rest400 - 36524 * spans100
  let spans4 := rest100 / 1461
  let rest4 := rest100 % 1461
  let spans1 := min (rest4 / 365) 3
  400 * spans400 + 100 * spans100 + 4 * spans4 + spans1 + 1

/-- The month, up to a given one, that a day of the year falls in. -/
def monthUpTo (leap : Bool) (dayOfYear : Nat) : Nat → Nat
  | 0 => 0
  | 1 => 1
  | month + 2 =>
    if daysBeforeMonth leap (month + 2) ≤ dayOfYear then month + 2 else monthUpTo leap dayOfYear (month + 1)

/-- The date of a day number. -/
def ofDayNumber (number : Int) : Date :=
  let count := number + epochShift
  let year := yearOf count
  let leap := isLeapYear year
  let dayOfYear := (count - daysBeforeYear year).toNat
  let month := monthUpTo leap dayOfYear 12
  { year, month, day := dayOfYear - daysBeforeMonth leap month + 1 }

end Date

namespace Instant

/-- Earlier instants come first; within one second the fraction decides. -/
def before (a b : Instant) : Bool :=
  a.seconds < b.seconds || (a.seconds == b.seconds && a.nanos < b.nanos)

/-- Whole milliseconds since the epoch; those of a leap second count on past 999. -/
def epochMillis (instant : Instant) : Int := instant.seconds * 1000 + (instant.nanos / 1000000 : Nat)

/-- The first second of the years that instants lie in. -/
def firstSecond : Int := Date.dayNumber ⟨-262143, 1, 1⟩ * 86400

/-- The second behind the years that instants lie in. -/
def endSecond : Int := Date.dayNumber ⟨262143, 1, 1⟩ * 86400

end Instant

end JobQueue
