import JobQueue.Calendar.Local
import JobQueue.Text.Blank
import JobQueue.Text.Digits

/-! # Dates as text

Dates are written in one canonical form and read in four: ISO 8601 with a fraction, a form that begins
with the weekday and names the month and the zone, and two plain forms with dashes and with slashes.
Readers of numbers skip blanks before a number and take a digit fewer if there is none.
-/

namespace JobQueue

/-- A textual form of dates that is accepted. -/
inductive DateFormat where
  | iso
  | weekday
  | dashed
  | slashed
deriving DecidableEq, Repr

namespace DateFormat

/-- A number of one to `width` digits, behind any blanks. -/
def number (width : Nat) (text : List Char) : Option (Nat × List Char) :=
  let text := Text.skipBlanks text
  let digits := (text.take width).takeWhile Char.isDigit
  if digits.isEmpty then none else some (Text.number digits, text.drop digits.length)

/-- A year: up to four digits, or a sign and any number of digits. -/
def year (text : List Char) : Option (Int × List Char) :=
  match Text.skipBlanks text with
  | '-' :: rest =>
    let (digits, rest) := Text.digitRun rest
    if digits.isEmpty then none else some (-(Text.number digits : Int), rest)
  | '+' :: rest =>
    let (digits, rest) := Text.digitRun rest
    if digits.isEmpty then none else some (Text.number digits, rest)
  | text => (number 4 text).map fun (n, rest) => (n, rest)

/-- One given character. -/
def mark (c : Char) : List Char → Option (List Char)
  | d :: rest => if d = c then some rest else none
  | [] => none

/-- An optional fraction of a second, in nanoseconds; digits behind the ninth do not count. -/
def fraction : List Char → Option (Nat × List Char)
  | '.' :: rest =>
    let (digits, rest) := Text.digitRun rest
    if digits.isEmpty then none
    else
      let counted := digits.take 9
      some (Text.number counted * Nat.pow 10 (9 - counted.length), rest)
  | text => some (0, text)

/-- Two digits, the first of them below a limit. -/
def twoDigits (limit : Nat) : List Char → Option (Nat × List Char)
  | a :: b :: rest =>
    if a.isDigit && b.isDigit && Text.digitValue a < limit then some (Text.number [a, b], rest) else none
  | _ => none

/-- An offset in seconds: a sign, two digits for hours, any colons and blanks, two digits for minutes. -/
def offset (text : List Char) : Option (Int × List Char) := do
  let (negative, rest) ← match Text.skipBlanks text with
    | '+' :: rest => some (false, rest)
    | '-' :: rest => some (true, rest)
    | '−' :: rest => some (true, rest)
    | _ => none
  let (hours, rest) ← twoDigits 10 rest
  let (minutes, rest) ← twoDigits 6 (rest.dropWhile fun c => c = ':' || Text.isBlank c)
  if 24 ≤ hours then none
  else
    let size : Int := hours * 3600 + minutes * 60
    some (if negative then -size else size, rest)

/-- Hours, minutes and seconds with colons between them. -/
def timeOfDay (text : List Char) : Option ((Nat × Nat × Nat) × List Char) := do
  let (hour, rest) ← number 2 text
  let (minute, rest) ← number 2 (← mark ':' rest)
  let (second, rest) ← number 2 (← mark ':' rest)
  return ((hour, minute, second), rest)

/-- A year, a month and a day with a separator between them. -/
def yearMonthDay (separator : Char) (text : List Char) : Option (Date × List Char) := do
  let (year, rest) ← year text
  let (month, rest) ← number 2 (← mark separator rest)
  let (day, rest) ← number 2 (← mark separator rest)
  return (⟨year, month, day⟩, rest)

/-- A date, a `T`, a time with an optional fraction, and an offset. -/
def readIso (text : List Char) : Option Instant := do
  let (date, rest) ← yearMonthDay '-' text
  let ((hour, minute, second), rest) ← timeOfDay (← mark 'T' rest)
  let (nanos, rest) ← fraction rest
  let (east, rest) ← offset rest
  if rest.isEmpty then LocalTime.instant? ⟨date, hour, minute, second, nanos⟩ east else none

/-- A date with separators, a time and an offset, with blanks between them. -/
def readPlain (separator : Char) (text : List Char) : Option Instant := do
  let (date, rest) ← yearMonthDay separator text
  let ((hour, minute, second), rest) ← timeOfDay rest
  let (east, rest) ← offset rest
  if rest.isEmpty then LocalTime.instant? ⟨date, hour, minute, second, 0⟩ east else none

/-- The months by their first three letters and the rest of their names. -/
def monthNames : List (String × String) :=
  [("jan", "uary"), ("feb", "ruary"), ("mar", "ch"), ("apr", "il"), ("may", ""), ("jun", "e"),
    ("jul", "y"), ("aug", "ust"), ("sep", "tember"), ("oct", "ober"), ("nov", "ember"), ("dec", "ember")]

/-- Drops a word from the front of a text, whatever the case of its letters. -/
def dropWord (word : String) (text : List Char) : Option (List Char) :=
  let letters := word.toList
  if (text.take letters.length).map Char.toLower = letters then some (text.drop letters.length) else none

/-- A month by its first three letters, and the rest of its name if it follows. -/
def monthName (text : List Char) : Option (Nat × List Char) :=
  monthNames.zipIdx.findSome? fun ((short, long), index) =>
    (dropWord short text).map fun rest => (index + 1, (dropWord long rest).getD rest)

/-- A numeric zone: a sign and, colons aside, one or two digits for hours or four for hours and minutes. -/
def numericZone (zone : List Char) : Option Int := do
  let (sign, rest) ← match zone with
    | '+' :: rest => some ((1 : Int), rest)
    | '-' :: rest => some (-1, rest)
    | _ => none
  let digits := rest.filter (· != ':')
  if !digits.all Char.isDigit then none
  else
    let (hours, minutes) ← match digits.length with
      | 1 | 2 => some (Text.number digits, 0)
      | 4 => some (Text.number (digits.take 2), Text.number (digits.drop 2))
      | _ => none
    if 23 < hours ∨ 59 < minutes then none else some (sign * (hours * 3600 + minutes * 60))

/-- Hours east of UTC of the zones known by name. -/
def zoneNames : List (String × Int) :=
  [("GMT", 0), ("UTC", 0), ("UT", 0), ("Z", 0), ("EST", -5), ("EDT", -4), ("AST", -4), ("CST", -6),
    ("CDT", -5), ("MST", -7), ("MDT", -6), ("PST", -8), ("PDT", -7), ("CET", 1), ("CEST", 2)]

/-- A zone by name, or a numeric one, which may stand behind `GMT` or `UTC`. -/
def zone (text : List Char) : Option Int :=
  match zoneNames.lookup (String.ofList text) with
  | some hours => some (hours * 3600)
  | none => numericZone (match text with
    | 'G' :: 'M' :: 'T' :: rest => rest
    | 'U' :: 'T' :: 'C' :: rest => rest
    | text => text)

/-- The month by name, the day, the year and the time, with blanks between them. -/
def namedMonthTime (text : List Char) : Option LocalTime := do
  let (month, rest) ← monthName text
  let (day, rest) ← number 2 rest
  let (year, rest) ← year rest
  let ((hour, minute, second), rest) ← timeOfDay rest
  if rest.isEmpty then some ⟨⟨year, month, day⟩, hour, minute, second, 0⟩ else none

/-- Six words: the weekday, which does not count, the month, the day, the time, the zone and the year. -/
def readWeekday (text : List Char) : Option Instant :=
  match Text.words text with
  | [_, month, day, time, zoneWord, year] => do
    let east ← zone zoneWord
    let clock ← namedMonthTime (month ++ ' ' :: (day ++ ' ' :: (year ++ ' ' :: time)))
    clock.instant? east
  | _ => none

/-- The instant that a text denotes in a format, blanks around it aside. -/
def read (format : DateFormat) (text : String) : Option Instant :=
  let text := Text.trim text.toList
  match format with
  | iso => readIso text
  | weekday => readWeekday text
  | dashed => readPlain '-' text
  | slashed => readPlain '/' text

/-- How a format is described. -/
def pattern : DateFormat → String
  | iso => "yyyy-MM-dd'T'HH:mm:ss.SSSZ"
  | weekday => "EEE MMM dd HH:mm:ss zzz yyyy"
  | dashed => "yyyy-MM-dd HH:mm:ss Z"
  | slashed => "yyyy/MM/dd HH:mm:ss Z"

/-- Why a text is no date, with the patterns that were tried. -/
def refusal (text tried : String) : String :=
  "unparseable date '" ++ text ++ "', tried formats: " ++ tried

/-- The formats in the order in which they are tried unless another is asked for. -/
def standard : List DateFormat := [iso, weekday, dashed, slashed]

/-- The instant that the first accepting format reads. -/
def readFirst (formats : List DateFormat) (text : String) : Option Instant :=
  formats.findSome? fun format => format.read text

/-- A year in at least four digits, with a sign outside 0 to 9999. -/
def yearText (year : Int) : List Char :=
  if year < 0 then '-' :: Text.padded 4 year.natAbs
  else if 9999 < year then '+' :: Text.padded 4 year.natAbs
  else Text.padded 4 year.natAbs

/-- The canonical text of an instant: UTC, to the millisecond. -/
def canonical (instant : Instant) : String :=
  let time := LocalTime.ofInstant instant
  String.ofList (yearText time.date.year ++ '-' :: (Text.padded 2 time.date.month ++ '-' ::
    (Text.padded 2 time.date.day ++ 'T' :: (Text.padded 2 time.hour ++ ':' ::
    (Text.padded 2 time.minute ++ ':' :: (Text.padded 2 time.second ++ '.' ::
    (Text.padded 3 (time.nanos / 1000000) ++ ['+', '0', '0', '0', '0'])))))))

end DateFormat

end JobQueue
