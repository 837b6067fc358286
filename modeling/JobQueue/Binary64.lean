/-! # Double-precision numbers as exact integers

A finite double is a whole number of *units* of `2 ^ -1074`, the least positive double. So a number is
kept as its sign and the other 63 bits read as one natural number, the *magnitude*: magnitudes order
like the values they stand for, and every operation rounds an exact quotient of natural numbers once.
No machine arithmetic is involved.
-/

namespace JobQueue

/-- A double: its sign and its exponent and fraction fields read as one number. -/
structure Binary64 where
  negative : Bool
  magnitude : Nat
  magnitude_lt : magnitude < 0x8000000000000000
deriving DecidableEq, Repr

namespace Binary64

/-- The magnitude of the infinities: larger ones are not numbers. -/
def infiniteMagnitude : Nat := 0x7ff0000000000000

/-- How many units the finite number of a magnitude has. -/
def unitsOf (magnitude : Nat) : Nat :=
  let exponent := magnitude / 0x10000000000000
  let fraction := magnitude % 0x10000000000000
  if exponent = 0 then fraction else (0x10000000000000 + fraction) * Nat.pow 2 (exponent - 1)

/-- The number of units in one. -/
def one : Nat := Nat.pow 2 1074

/-- The magnitude nearest to a quotient of units. A tie goes to the even magnitude, and what lies
beyond the finite numbers is infinite. -/
def roundMagnitude (numerator denominator : Nat) : Nat :=
  let shift := (numerator / denominator).log2 - 52
  let step := denominator * Nat.pow 2 shift
  let whole := numerator / step
  let rest := numerator % step
  let roundUp := step < 2 * rest ∨ (2 * rest = step ∧ whole % 2 = 1)
  min (shift * 0x10000000000000 + if roundUp then whole + 1 else whole) infiniteMagnitude

theorem roundMagnitude_le (numerator denominator : Nat) :
    roundMagnitude numerator denominator ≤ infiniteMagnitude :=
  Nat.min_le_right ..

/-- The double nearest to a quotient of units, with a sign. -/
def nearest (negative : Bool) (numerator denominator : Nat) : Binary64 where
  negative := negative
  magnitude := roundMagnitude numerator denominator
  magnitude_lt := Nat.lt_of_le_of_lt (roundMagnitude_le ..) (by decide)

/-- The double nearest to an integer. -/
def ofInt (n : Int) : Binary64 := nearest (n < 0) (n.natAbs * one) 1

/-- The double nearest to a natural number. -/
def ofNat (n : Nat) : Binary64 := nearest false (n * one) 1

/-- Zero, of either sign. -/
def zero (negative : Bool) : Binary64 := ⟨negative, 0, by decide⟩

/-- Infinity, of either sign. -/
def infinity (negative : Bool) : Binary64 := ⟨negative, infiniteMagnitude, by decide⟩

/-- The quiet number-that-is-none, of either sign. -/
def nan (negative : Bool) : Binary64 := ⟨negative, 0x7ff8000000000000, by decide⟩

/-- The double of a 64-bit word. -/
def ofBits (word : UInt64) : Binary64 where
  negative := 0x8000000000000000 ≤ word.toNat
  magnitude := word.toNat % 0x8000000000000000
  magnitude_lt := Nat.mod_lt _ (by decide)

/-- The 64-bit word of a double. -/
def toBits (x : Binary64) : UInt64 :=
  UInt64.ofNat (if x.negative then 0x8000000000000000 + x.magnitude else x.magnitude)

def isNaN (x : Binary64) : Bool := infiniteMagnitude < x.magnitude

def isInfinite (x : Binary64) : Bool := x.magnitude = infiniteMagnitude

def isFinite (x : Binary64) : Bool := x.magnitude < infiniteMagnitude

/-- The signed number of units of a finite double. -/
def units (x : Binary64) : Int :=
  if x.negative then -(unitsOf x.magnitude : Int) else unitsOf x.magnitude

/-- Places the numbers on a line on which the two zeros meet. -/
def place (x : Binary64) : Int :=
  if x.negative then -(x.magnitude : Int) else x.magnitude

/-- Numeric equality: the zeros are equal and a NaN equals nothing. -/
def same (x y : Binary64) : Bool := !x.isNaN && !y.isNaN && x.place == y.place

/-- Numeric order: a NaN compares with nothing. -/
def atMost (x y : Binary64) : Bool := !x.isNaN && !y.isNaN && decide (x.place ≤ y.place)

/-- Places all doubles on a line: negative NaNs, numbers from `-∞` through `-0` and `0` to `∞`, NaNs. -/
def rank (x : Binary64) : Int :=
  if x.negative then -(x.magnitude : Int) - 1 else x.magnitude

/-- Nothing else shares the rank of a double. -/
theorem rank_inj {x y : Binary64} (equal : x.rank = y.rank) : x = y := by
  rcases x with ⟨xn, xm, hx⟩
  rcases y with ⟨yn, ym, hy⟩
  simp only [rank] at equal
  cases xn <;> cases yn <;> simp only [Bool.false_eq_true, if_true, if_false] at equal
  · have : xm = ym := by omega
    subst this; rfl
  · omega
  · omega
  · have : xm = ym := by omega
    subst this; rfl

/-- The sum, rounded once. A NaN operand is kept; opposite infinities have no sum. -/
def add (x y : Binary64) : Binary64 :=
  if x.isNaN then x
  else if y.isNaN then y
  else if x.isInfinite then
    if y.isInfinite && x.negative != y.negative then nan true else x
  else if y.isInfinite then y
  else
    let total := x.units + y.units
    if total = 0 then zero (x.negative && y.negative) else nearest (total < 0) total.natAbs 1

end Binary64

end JobQueue
