import JobQueue.DateFormat
import JobQueue.Proofs.Calendar
import JobQueue.Proofs.Text.Digits
import Mathlib.Data.List.TakeWhile

/-! # The canonical date text is read back

The canonical text has every number in all its digits, so each reader of a number takes just the digits
of its own. No other format accepts the canonical text.
-/

namespace JobQueue.DateFormat

theorem not_isBlank_of_isDigit {c : Char} (digit : c.isDigit = true) : Text.isBlank c = false := by
  simp only [Char.isDigit, Bool.and_eq_true, decide_eq_true_eq] at digit
  obtain ⟨low, high⟩ := digit
  have low : 48 ≤ c.toNat := UInt32.le_iff_toNat_le.mp low
  have high : c.toNat ≤ 57 := UInt32.le_iff_toNat_le.mp high
  simp only [Text.isBlank, Bool.or_eq_false_iff, Bool.and_eq_false_iff, decide_eq_false_iff_not,
    beq_eq_false_iff_ne]
  omega

/-- A padded number begins with a digit. -/
theorem padded_cons (width n : Nat) : ∃ c rest, Text.padded width n = c :: rest ∧ c.isDigit = true := by
  have some : Text.padded width n ≠ [] := by
    simp [Text.padded, Nat.toDigits_ne_nil]
  obtain ⟨c, rest, equal⟩ := List.exists_cons_of_ne_nil some
  exact ⟨c, rest, equal, Text.padded_isDigit (by rw [equal]; exact List.mem_cons_self ..)⟩

theorem skipBlanks_padded (width n : Nat) (more : List Char) :
    Text.skipBlanks (Text.padded width n ++ more) = Text.padded width n ++ more := by
  obtain ⟨c, rest, equal, digit⟩ := padded_cons width n
  rw [equal, List.cons_append, Text.skipBlanks, List.dropWhile_cons, not_isBlank_of_isDigit digit]
  rfl

/-- A number padded to the width it is read in is read whole, whatever follows. -/
theorem number_padded {width n : Nat} (positive : 0 < width) (fits : n < 10 ^ width) (more : List Char) :
    number width (Text.padded width n ++ more) = some (n, more) := by
  have length := Text.padded_length positive fits
  have taken : (Text.padded width n ++ more).take width = Text.padded width n := List.take_left' length
  have digits : (Text.padded width n).takeWhile Char.isDigit = Text.padded width n :=
    List.takeWhile_eq_self_iff.mpr fun _ => Text.padded_isDigit
  obtain ⟨c, rest, equal, -⟩ := padded_cons width n
  have some : ¬ (Text.padded width n).isEmpty = true := by simp [equal]
  simp only [number, skipBlanks_padded, taken, digits]
  rw [if_neg some, Text.number_padded, List.drop_left]

/-- A year of four digits. -/
theorem year_padded {n : Nat} (fits : n < 10 ^ 4) (more : List Char) :
    year (Text.padded 4 n ++ more) = some ((n : Int), more) := by
  have read := number_padded (by decide) fits more
  obtain ⟨c, rest, equal, digit⟩ := padded_cons 4 n
  unfold year
  rw [skipBlanks_padded]
  rw [equal, List.cons_append] at read ⊢
  split
  · next minus =>
    cases minus
    contradiction
  · next plus =>
    cases plus
    contradiction
  · rw [read]
    rfl

theorem mark_cons (c : Char) (rest : List Char) : mark c (c :: rest) = some rest := if_pos rfl

theorem mark_ne {c d : Char} (other : d ≠ c) (rest : List Char) : mark c (d :: rest) = none := if_neg other

/-- Hours, minutes and seconds of two digits each. -/
theorem timeOfDay_padded {hour minute second : Nat} (hours : hour ≤ 23) (minutes : minute ≤ 59)
    (seconds : second ≤ 60) (more : List Char) :
    timeOfDay (Text.padded 2 hour ++ ':' :: (Text.padded 2 minute ++ ':' :: (Text.padded 2 second ++ more))) =
      some ((hour, minute, second), more) := by
  have reads {n : Nat} (fits : n < 10 ^ 2) (rest : List Char) :
      number 2 (Text.padded 2 n ++ rest) = some (n, rest) := number_padded (by decide) fits rest
  simp only [timeOfDay, reads (show hour < 10 ^ 2 by omega), reads (show minute < 10 ^ 2 by omega),
    reads (show second < 10 ^ 2 by omega), mark_cons, Option.bind_eq_bind, Option.bind_some, Option.pure_def]

/-- A year, a month and a day of four, two and two digits behind each other. -/
theorem yearMonthDay_padded {y month day : Nat} (years : y ≤ 9999) (months : month ≤ 12) (days : day ≤ 31)
    (separator : Char) (more : List Char) :
    yearMonthDay separator
        (Text.padded 4 y ++ separator :: (Text.padded 2 month ++ separator :: (Text.padded 2 day ++ more))) =
      some (⟨y, month, day⟩, more) := by
  have reads {n : Nat} (fits : n < 10 ^ 2) (rest : List Char) :
      number 2 (Text.padded 2 n ++ rest) = some (n, rest) := number_padded (by decide) fits rest
  simp only [yearMonthDay, year_padded (show y < 10 ^ 4 by omega), reads (show month < 10 ^ 2 by omega),
    reads (show day < 10 ^ 2 by omega), mark_cons, Option.bind_eq_bind, Option.bind_some, Option.pure_def]

/-- Milliseconds in front of an offset. -/
theorem fraction_padded {millis : Nat} (small : millis < 1000) (more : List Char) :
    fraction ('.' :: (Text.padded 3 millis ++ '+' :: more)) = some (millis * 1000000, '+' :: more) := by
  have digits : ∀ c ∈ Text.padded 3 millis, c.isDigit = true := fun _ => Text.padded_isDigit
  have run := Text.digitRun_of_isDigit digits (show ('+' :: more).head?.any Char.isDigit = false from rfl)
  have length : (Text.padded 3 millis).length = 3 := Text.padded_length (by decide) small
  have some : ¬ (Text.padded 3 millis).isEmpty = true := by
    simp [← List.length_eq_zero_iff, length]
  simp only [fraction, run]
  rw [if_neg some, List.take_of_length_le (by omega), length, Text.number_padded]

/-- The text of an instant of UTC: a date, a time, milliseconds and no offset. -/
def utcText (y month day hour minute second millis : Nat) : List Char :=
  Text.padded 4 y ++ '-' :: (Text.padded 2 month ++ '-' :: (Text.padded 2 day ++ 'T' ::
    (Text.padded 2 hour ++ ':' :: (Text.padded 2 minute ++ ':' :: (Text.padded 2 second ++ '.' ::
    (Text.padded 3 millis ++ ['+', '0', '0', '0', '0']))))))

/-- Years of four digits are written without a sign. -/
theorem canonical_toList {instant : Instant} (from0 : 0 ≤ instant.year) (to9999 : instant.year ≤ 9999) :
    (canonical instant).toList =
      let time := LocalTime.ofInstant instant
      utcText instant.year.toNat time.date.month time.date.day time.hour time.minute time.second
        (time.nanos / 1000000) := by
  have yearDigits : yearText instant.year = Text.padded 4 instant.year.toNat := by
    have same : instant.year.natAbs = instant.year.toNat := by omega
    rw [yearText, if_neg (by omega), if_neg (by omega), same]
  exact String.toList_ofList.trans (congrArg (· ++ _) yearDigits)

theorem trim_utcText (y month day hour minute second millis : Nat) :
    Text.trim (utcText y month day hour minute second millis) =
      utcText y month day hour minute second millis := by
  have last : (utcText y month day hour minute second millis).reverse =
      '0' :: (utcText y month day hour minute second millis).reverse.tail := by
    simp [utcText]
  have visible : Text.isBlank '0' = false := by decide
  have front : Text.skipBlanks (utcText y month day hour minute second millis) =
      utcText y month day hour minute second millis := skipBlanks_padded 4 y _
  rw [Text.trim, front, last, List.dropWhile_cons, visible, ← last]
  exact List.reverse_reverse _

/-- The canonical text of an instant is read as the instant, to the millisecond. -/
theorem read_iso_canonical {instant : Instant} (proper : instant.IsProper) (from0 : 0 ≤ instant.year)
    (to9999 : instant.year ≤ 9999) : iso.read (canonical instant) = some instant.truncated := by
  have valid := LocalTime.ofInstant_isValid proper
  obtain ⟨⟨-, months, -, days⟩, hours, minutes, seconds⟩ := valid
  have days := Nat.le_trans days (Date.daysInMonth_le months)
  have whole : ((instant.year.toNat : Nat) : Int) = instant.year := Int.toNat_of_nonneg from0
  have small : (LocalTime.ofInstant instant).nanos / 1000000 < 1000 := by
    simp only [LocalTime.ofInstant]
    omega
  have denotes := LocalTime.instant?_ofInstant proper from0 to9999
  have east : offset ['+', '0', '0', '0', '0'] = some (0, []) := by decide
  unfold read
  rw [canonical_toList from0 to9999, trim_utcText]
  simp only [utcText, readIso, yearMonthDay_padded (show instant.year.toNat ≤ 9999 by omega) months days,
    timeOfDay_padded hours minutes seconds, fraction_padded small, mark_cons, east, whole,
    Option.bind_eq_bind, Option.bind_some]
  exact denotes

/-- A date with a `T` behind it is no plain date, whatever separates its numbers. -/
theorem readPlain_utcText (separator : Char) {y month day : Nat} (years : y ≤ 9999) (months : month ≤ 12)
    (days : day ≤ 31) (hour minute second millis : Nat) :
    readPlain separator (utcText y month day hour minute second millis) = none := by
  by_cases dash : separator = '-'
  · have time (rest : List Char) : timeOfDay ('T' :: rest) = none := rfl
    subst dash
    simp only [utcText, readPlain, yearMonthDay_padded years months days, time, Option.bind_eq_bind,
      Option.bind_some, Option.bind_none]
  · have date : yearMonthDay separator (utcText y month day hour minute second millis) = none := by
      simp only [utcText, yearMonthDay, year_padded (show y < 10 ^ 4 by omega), mark_ne (Ne.symm dash),
        Option.bind_eq_bind, Option.bind_some, Option.bind_none]
    simp only [readPlain, date, Option.bind_eq_bind, Option.bind_none]

/-- A text without blanks is one word, too few for the form that begins with the weekday. -/
theorem readWeekday_utcText (y month day hour minute second millis : Nat) :
    readWeekday (utcText y month day hour minute second millis) = none := by
  have visible : ∀ c ∈ utcText y month day hour minute second millis, Text.isBlank c = false := by
    have digits {width n : Nat} {c : Char} (member : c ∈ Text.padded width n) : Text.isBlank c = false :=
      not_isBlank_of_isDigit (Text.padded_isDigit member)
    intro c member
    simp only [utcText, List.mem_append, List.mem_cons, List.not_mem_nil, or_false] at member
    rcases member with n | rfl | n | rfl | n | rfl | n | rfl | n | rfl | n | rfl | n | rfl | rfl | rfl | rfl | rfl
    all_goals first | exact digits n | decide
  have words : Text.words (utcText y month day hour minute second millis) =
      [utcText y month day hour minute second millis].filter fun word => !word.isEmpty := by
    rw [Text.words, List.splitOnP_eq_singleton visible]
  unfold readWeekday
  rw [words]
  split
  · next six =>
    have few := congrArg List.length six
    have bound := List.length_filter_le (fun word : List Char => !word.isEmpty)
      [utcText y month day hour minute second millis]
    simp only [List.length_cons, List.length_nil] at few bound
    omega
  · rfl

/-- Whatever formats are accepted besides it, the canonical text is read as the canonical one has it. -/
theorem readFirst_canonical {formats : List DateFormat} (accepted : iso ∈ formats) {instant : Instant}
    (proper : instant.IsProper) (from0 : 0 ≤ instant.year) (to9999 : instant.year ≤ 9999) :
    readFirst formats (canonical instant) = some instant.truncated := by
  have valid := LocalTime.ofInstant_isValid proper
  obtain ⟨⟨-, months, -, days⟩, -⟩ := valid
  have days := Nat.le_trans days (Date.daysInMonth_le months)
  have years : instant.year.toNat ≤ 9999 := by omega
  have others (format : DateFormat) (other : format ≠ iso) : format.read (canonical instant) = none := by
    unfold read
    rw [canonical_toList from0 to9999, trim_utcText]
    cases format with
    | iso => exact absurd rfl other
    | weekday => exact readWeekday_utcText ..
    | dashed => exact readPlain_utcText '-' years months days ..
    | slashed => exact readPlain_utcText '/' years months days ..
  induction formats with
  | nil => contradiction
  | cons format formats ih =>
    rw [readFirst, List.findSome?_cons]
    by_cases same : format = iso
    · rw [same, read_iso_canonical proper from0 to9999]
    · rw [others format same]
      exact ih ((List.mem_cons.mp accepted).resolve_left (Ne.symm same))

/-- A second of the fraction that is carried does not show in the text. -/
theorem canonical_carried {instant : Instant} (inUse : instant.InUse) :
    canonical instant.carried = canonical instant := by
  rw [canonical, LocalTime.ofInstant_carried inUse, canonical]

/-- The canonical text of any instant in use is read as what it denotes. -/
theorem readFirst_readBack {formats : List DateFormat} (accepted : iso ∈ formats) {instant : Instant}
    (inUse : instant.InUse) (from0 : 0 ≤ instant.year) (to9999 : instant.year ≤ 9999) :
    readFirst formats (canonical instant) = some instant.readBack := by
  have year := inUse.year_carried
  rw [← canonical_carried inUse, readFirst_canonical accepted inUse.carried_isProper (by omega) (by omega)]
  rfl

end JobQueue.DateFormat
