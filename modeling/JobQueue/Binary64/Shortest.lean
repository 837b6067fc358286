import JobQueue.Binary64

/-! # The shortest decimal that reads back

The reals that round to a double form an interval around it, ends included exactly when its magnitude
is even. For one digit, two digits, and so on, the two neighbours of the double on the decimal grid with
that many digits are tried: the first grid with a neighbour inside wins, and of two the nearer one.
If a grid has any point inside the interval then a neighbour is inside, so no shorter decimal reads back.
-/

namespace JobQueue

/-- Digits `d₁ … dₙ` and a position `k`, for the number `0.d₁…dₙ · 10 ^ k`. -/
structure Decimal where
  digits : List Char
  position : Int
deriving DecidableEq, Repr

/-- Which of two equally near neighbours on a grid is taken. -/
inductive Tie where
  | up
  | even
deriving DecidableEq, Repr

namespace Decimal

/-- The decimal for `significand · 10 ^ exponent`, without trailing zeros. -/
def ofScientific (significand : Nat) (exponent : Int) : Decimal :=
  let digits := Nat.toDigits 10 significand
  let kept := (digits.reverse.dropWhile (· == '0')).reverse
  { digits := if kept.isEmpty then ['0'] else kept
    position := if significand = 0 then 1 else digits.length + exponent }

/-- The number of decimal digits of a number, none for zero. -/
def digitCount (n : Nat) : Nat := if n = 0 then 0 else (Nat.toDigits 10 n).length

end Decimal

namespace Binary64

/-- The position `k` with `10 ^ (k - 1) ≤ v < 10 ^ k` for the positive number `v` of so many units. -/
def decimalPosition (units : Nat) : Int :=
  if one ≤ units then Decimal.digitCount (units / one)
  else 1 - (Decimal.digitCount ((one + units - 1) / units - 1) : Int)

/-- Four times the distance, in units, from a double to the middle of the step above it. -/
def halfGapAbove (magnitude : Nat) : Nat := 2 * Nat.pow 2 (magnitude / 0x10000000000000 - 1)

/-- Four times the distance, in units, from a double to the middle of the step below it, which is
shorter at a power of two. -/
def halfGapBelow (magnitude : Nat) : Nat :=
  if magnitude % 0x10000000000000 = 0 ∧ 1 < magnitude / 0x10000000000000 then
    Nat.pow 2 (magnitude / 0x10000000000000 - 1)
  else halfGapAbove magnitude

/-- The multiple of `10 ^ (position - count)` nearest to a positive finite double, if one rounds to it. -/
def onGrid? (tie : Tie) (magnitude : Nat) (position : Int) (count : Nat) : Option Nat :=
  let units := unitsOf magnitude
  let scale := Nat.pow 10 (count - position).toNat
  let step := 4 * one * Nat.pow 10 (position - count).toNat
  let value := 4 * units * scale
  let low := (4 * units - halfGapBelow magnitude) * scale
  let high := (4 * units + halfGapAbove magnitude) * scale
  let inside := fun multiple : Nat =>
    if magnitude % 2 = 0 then decide (low ≤ multiple * step ∧ multiple * step ≤ high)
    else decide (low < multiple * step ∧ multiple * step < high)
  let below := value / step
  let rest := value % step
  match inside below, inside (below + 1) with
  | false, false => none
  | true, false => some below
  | false, true => some (below + 1)
  | true, true =>
    if 2 * rest < step then some below
    else if step < 2 * rest then some (below + 1)
    else match tie with
      | .up => some (below + 1)
      | .even => some (if below % 2 = 0 then below else below + 1)

/-- The shortest decimal that rounds to a finite double of a magnitude, and of those the nearest.
Seventeen digits are always enough. -/
def shortest (tie : Tie) (magnitude : Nat) : Decimal :=
  if magnitude = 0 then Decimal.ofScientific 0 0
  else
    let position := decimalPosition (unitsOf magnitude)
    let found := (List.range 17).findSome? fun fewer =>
      (onGrid? tie magnitude position (fewer + 1)).map fun multiple =>
        Decimal.ofScientific multiple (position - (fewer + 1 : Nat))
    found.getD (Decimal.ofScientific (unitsOf magnitude) 0)

end Binary64

end JobQueue
