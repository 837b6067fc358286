import JobQueue.Binary64
import JobQueue.Text.Digits

/-! # Reading a double

A number is an optional sign, digits with an optional point on either side of them, and an optional
exponent; or `inf`, `infinity` or `nan` in any case. It reads as the nearest double.
-/

namespace JobQueue.Binary64

/-- The double nearest to `significand · 10 ^ exponent`. Exponents far outside the range of doubles
are settled without computing the power. -/
def ofDecimal (negative : Bool) (significand : Nat) (exponent : Int) : Binary64 :=
  let position : Int := (Nat.toDigits 10 significand).length + exponent
  if significand = 0 ∨ position < -400 then zero negative
  else if 400 < position then infinity negative
  else nearest negative (significand * Nat.pow 10 exponent.toNat * one) (Nat.pow 10 (-exponent).toNat)

/-- The exponent at the end of a number: nothing, or a mark, an optional sign and digits. -/
def exponent? : List Char → Option Int
  | [] => some 0
  | mark :: rest =>
    if mark = 'e' ∨ mark = 'E' then
      let (negative, rest) := Text.signed rest
      let (digits, left) := Text.digitRun rest
      if digits.isEmpty || !left.isEmpty then none
      else
        let size : Int := Text.number digits
        some (if negative then -size else size)
    else none

/-- Digits around an optional point, then an optional exponent. -/
def decimal? (negative : Bool) (text : List Char) : Option Binary64 :=
  let (whole, rest) := Text.digitRun text
  let (fraction, rest) := match rest with
    | '.' :: rest => Text.digitRun rest
    | rest => ([], rest)
  if whole.isEmpty && fraction.isEmpty then none
  else (exponent? rest).map fun exponent =>
    ofDecimal negative (Text.number (whole ++ fraction)) (exponent - fraction.length)

/-- Reads a whole text as a double. -/
def ofText? (text : String) : Option Binary64 :=
  let (negative, rest) := Text.signed text.toList
  let name := String.ofList (rest.map Char.toLower)
  if name = "inf" ∨ name = "infinity" then some (infinity negative)
  else if name = "nan" then some (nan negative)
  else decimal? negative rest

end JobQueue.Binary64
