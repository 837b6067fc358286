import JobQueue.Binary64.Shortest

/-! # Doubles as text

A `NumberLayout` holds the decisions of one textual form of doubles: when digits are laid out around the
point, when an exponent is written and how, and what stands for the values that have no digits.
-/

namespace JobQueue

/-- How the shortest decimal of a double is laid out. -/
structure NumberLayout where
  /-- The positions from which, and up to which, digits are written around a point. -/
  positional : Int → Bool
  /-- Whether a whole number ends in `.0`. -/
  pointZero : Bool
  /-- Whether a positive exponent carries a sign. -/
  plus : Bool
  tie : Tie
  nan : String
  infinity : String
  negativeInfinity : String

namespace NumberLayout

/-- Digits around a point: `0.00d`, `d.d` or `d00`. -/
def point (layout : NumberLayout) (number : Decimal) : List Char :=
  let count : Int := number.digits.length
  if number.position ≤ 0 then
    '0' :: '.' :: (List.replicate (-number.position).toNat '0' ++ number.digits)
  else if count ≤ number.position then
    number.digits ++ List.replicate (number.position - count).toNat '0' ++
      (if layout.pointZero then ['.', '0'] else [])
  else
    number.digits.take number.position.toNat ++ '.' :: number.digits.drop number.position.toNat

/-- One digit before the point, then an exponent: `d.dde-7`. -/
def scientific (layout : NumberLayout) (number : Decimal) : List Char :=
  let exponent := number.position - 1
  let mark := if exponent < 0 then ['-'] else if layout.plus then ['+'] else []
  let mantissa := match number.digits with
    | [] => []
    | [digit] => [digit]
    | digit :: rest => digit :: '.' :: rest
  mantissa ++ 'e' :: (mark ++ Nat.toDigits 10 exponent.natAbs)

/-- The text of a double. -/
def write (layout : NumberLayout) (x : Binary64) : String :=
  if x.isNaN then layout.nan
  else if x.isInfinite then if x.negative then layout.negativeInfinity else layout.infinity
  else
    let number := Binary64.shortest layout.tie x.magnitude
    let body := if layout.positional number.position then layout.point number
      else layout.scientific number
    String.ofList (if x.negative then '-' :: body else body)

/-- For people: never an exponent, and no point in a whole number. -/
def plain : NumberLayout where
  positional := fun _ => true
  pointZero := false
  plus := false
  tie := .up
  nan := "NaN"
  infinity := "inf"
  negativeInfinity := "-inf"

/-- In JSON: sixteen digits before the point at most, four zeros after it at most, and a whole number
keeps `.0`. What has no digits is null. -/
def json : NumberLayout where
  positional := fun position => decide (-5 < position ∧ position ≤ 16)
  pointZero := true
  plus := true
  tie := .even
  nan := "null"
  infinity := "null"
  negativeInfinity := "null"

/-- In a description of a number that was not expected: as in JSON, with names for what has no digits. -/
def found : NumberLayout :=
  { json with nan := "NaN", infinity := "inf", negativeInfinity := "-inf" }

/-- In a score sent to a server: as in JSON, but a positive exponent has no sign. -/
def score : NumberLayout :=
  { json with plus := false, nan := "NaN", infinity := "inf", negativeInfinity := "-inf" }

end NumberLayout

end JobQueue
