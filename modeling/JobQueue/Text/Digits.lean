/-! # Digits

Runs of ASCII digits and the numbers they spell.
-/

namespace JobQueue.Text

/-- The number an ASCII digit stands for. -/
def digitValue (digit : Char) : Nat := digit.toNat - '0'.toNat

/-- The number a hexadecimal digit stands for. -/
def hexDigit? (c : Char) : Option Nat :=
  if c.isDigit then some (digitValue c)
  else if 'a' ≤ c ∧ c ≤ 'f' then some (c.toNat - 'a'.toNat + 10)
  else if 'A' ≤ c ∧ c ≤ 'F' then some (c.toNat - 'A'.toNat + 10)
  else none

/-- The number spelled by a run of digits, continuing a number already begun. -/
def numberFrom (begun : Nat) (digits : List Char) : Nat :=
  digits.foldl (fun number digit => number * 10 + digitValue digit) begun

/-- The number spelled by a run of digits. -/
def number (digits : List Char) : Nat := numberFrom 0 digits

/-- The leading run of ASCII digits and what follows it. -/
def digitRun (text : List Char) : List Char × List Char :=
  (text.takeWhile Char.isDigit, text.dropWhile Char.isDigit)

theorem digitRun_append (text : List Char) : (digitRun text).1 ++ (digitRun text).2 = text :=
  List.takeWhile_append_dropWhile

theorem digitRun_isDigit {text : List Char} {c : Char} (member : c ∈ (digitRun text).1) :
    c.isDigit = true :=
  List.all_eq_true.mp List.all_takeWhile c member

/-- A run ends where the digits end. -/
theorem digitRun_head? {text : List Char} {c : Char} (next : (digitRun text).2.head? = some c) :
    c.isDigit = false := by
  have stop := List.head?_dropWhile_not Char.isDigit text
  rw [digitRun] at next
  rw [next] at stop
  simpa using stop

theorem digitRun_length_le (text : List Char) : (digitRun text).2.length ≤ text.length :=
  (List.dropWhile_sublist _).length_le

theorem numberFrom_append (begun : Nat) (first second : List Char) :
    numberFrom begun (first ++ second) = numberFrom (numberFrom begun first) second :=
  List.foldl_append ..

/-- Splits an optional sign from a text. -/
def signed : List Char → Bool × List Char
  | '-' :: rest => (true, rest)
  | '+' :: rest => (false, rest)
  | text => (false, text)

/-- A whole number of 64 bits: an optional sign and digits. -/
def int64? (text : List Char) : Option Int :=
  let (negative, digits) := signed text
  if digits.isEmpty || !digits.all Char.isDigit then none
  else
    let size : Int := number digits
    let value := if negative then -size else size
    if -0x8000000000000000 ≤ value ∧ value < 0x8000000000000000 then some value else none

/-- The decimal text of an integer. -/
def integer (n : Int) : List Char :=
  if n < 0 then '-' :: Nat.toDigits 10 n.natAbs else Nat.toDigits 10 n.natAbs

/-- Decimal digits of a natural number, padded with zeros to a width. -/
def padded (width n : Nat) : List Char :=
  let digits := Nat.toDigits 10 n
  List.replicate (width - digits.length) '0' ++ digits

end JobQueue.Text
