import JobQueue.Calendar

/-! # Local time

A date and a time of day somewhere, and the instant they denote there. The second 60 is the leap second
behind the second 59.
-/

namespace JobQueue

/-- A date and a time of day, with nanoseconds below one second. -/
structure LocalTime where
  date : Date
  hour : Nat
  minute : Nat
  second : Nat
  nanos : Nat
deriving DecidableEq, Repr

namespace LocalTime

def IsValid (time : LocalTime) : Prop :=
  time.date.IsValid ∧ time.hour ≤ 23 ∧ time.minute ≤ 59 ∧ time.second ≤ 60

instance (time : LocalTime) : Decidable time.IsValid :=
  inferInstanceAs (Decidable (_ ∧ _ ∧ _ ∧ _))

/-- The seconds since the epoch at which a clock without offset shows a time. -/
def clockSeconds (time : LocalTime) : Int :=
  time.date.dayNumber * 86400 + time.hour * 3600 + time.minute * 60 + (min time.second 59 : Nat)

/-- Whether a count of seconds lies in the years of the calendar in use. -/
def inYears (seconds : Int) : Bool :=
  Instant.firstSecond ≤ seconds && seconds < Instant.endSecond

/-- The instant of a local time `offset` seconds east of UTC, if the time is one of a clock and both it
and the instant lie in the years in use. -/
def instant? (time : LocalTime) (offset : Int) : Option Instant :=
  if time.IsValid ∧ inYears time.clockSeconds ∧ inYears (time.clockSeconds - offset) then
    some {
      seconds := time.clockSeconds - offset
      nanos := if time.second = 60 then 1000000000 + time.nanos else time.nanos }
  else none

/-- What a clock without offset shows at an instant. -/
def ofInstant (instant : Instant) : LocalTime :=
  let ofDay := (instant.seconds % 86400).toNat
  { date := Date.ofDayNumber (instant.seconds / 86400)
    hour := ofDay / 3600
    minute := ofDay % 3600 / 60
    second := ofDay % 60 + instant.nanos / 1000000000
    nanos := instant.nanos % 1000000000 }

end LocalTime

end JobQueue
