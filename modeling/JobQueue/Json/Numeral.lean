import JobQueue.Json.Reader

/-! # Reading JSON numbers

A numeral is read as a whole number if it is written as one and fits: up to `2 ^ 64 - 1`, down to
`-2 ^ 63`, and not as a negative zero. Everything else is a double. Its digits are gathered into one
number below `2 ^ 64`; the digits that no longer fit are dropped, those before the point still counting
as places. The number is rounded once, and then once more when it is moved by the power of ten.
-/

namespace JobQueue.Json

open Binary64 (one unitsOf roundMagnitude infiniteMagnitude)

/-- A number as it was written. -/
inductive Numeral where
  | whole (number : Int)
  | float (number : Binary64)
deriving DecidableEq, Repr

/-- Gathers digits while the number they spell stays below `2 ^ 64`; the other digits are left. -/
def keepDigits (begun : Nat) : List Char → Nat × List Char
  | [] => (begun, [])
  | digit :: rest =>
    let next := begun * 10 + Text.digitValue digit
    if next < UInt64.size then keepDigits next rest else (begun, digit :: rest)

/-- The units of the double nearest to a power of ten. -/
def powerOfTen (exponent : Nat) : Nat := unitsOf (roundMagnitude (Nat.pow 10 exponent * one) 1)

/-- Divides a double by a power of ten, in steps of the greatest power that is a double. -/
def shrink (magnitude exponent : Nat) : Nat :=
  if exponent ≤ 308 then roundMagnitude (unitsOf magnitude * one) (powerOfTen exponent)
  else if magnitude = 0 then 0
  else shrink (roundMagnitude (unitsOf magnitude * one) (powerOfTen 308)) (exponent - 308)
termination_by exponent

/-- Multiplies a double by a power of ten, unless the product is out of range. -/
def grow? (magnitude exponent : Nat) : Option Nat :=
  if exponent ≤ 308 then
    let product := roundMagnitude (unitsOf magnitude * powerOfTen exponent) one
    if product = infiniteMagnitude then none else some product
  else if magnitude = 0 then some 0
  else none

theorem shrink_lt (magnitude exponent : Nat) (small : magnitude < 0x8000000000000000) :
    shrink magnitude exponent < 0x8000000000000000 := by
  fun_induction shrink magnitude exponent with
  | case1 magnitude exponent _ => exact Nat.lt_of_le_of_lt (Binary64.roundMagnitude_le ..) (by decide)
  | case2 => decide
  | case3 magnitude exponent _ _ ih =>
    exact ih (Nat.lt_of_le_of_lt (Binary64.roundMagnitude_le ..) (by decide))

theorem grow?_lt {magnitude exponent product : Nat} (found : grow? magnitude exponent = some product) :
    product < 0x8000000000000000 := by
  unfold grow? at found
  split at found
  · simp only at found
    split at found
    · cases found
    · rw [← Option.some.inj found]
      exact Nat.lt_of_le_of_lt (Binary64.roundMagnitude_le ..) (by decide)
  · split at found
    · rw [← Option.some.inj found]
      decide
    · cases found

/-- The double of a sign, a number below `2 ^ 64` and a power of ten. -/
def floatOf? (negative : Bool) (significand : Nat) (exponent : Int) : Option Binary64 :=
  let start := Binary64.ofNat significand
  if 0 ≤ exponent then
    match grown : grow? start.magnitude exponent.toNat with
    | some magnitude => some ⟨negative, magnitude, grow?_lt grown⟩
    | none => none
  else some ⟨negative, shrink start.magnitude (-exponent).toNat, shrink_lt _ _ start.magnitude_lt⟩

/-- A double that has been read to its end. -/
def finishFloat (negative : Bool) (significand : Nat) (exponent : Int) (rest : List Char) :
    Outcome Numeral :=
  match floatOf? negative significand exponent with
  | some number => .ok (.float number, rest)
  | none => .error (faultAt .numberOutOfRange rest)

/-- Digits of an exponent. None is answered, right behind the digit that makes it so, if the exponent
exceeds `2 ^ 31 - 1`. -/
def exponentDigits (begun : Nat) : List Char → Option Nat × List Char
  | [] => (some begun, [])
  | c :: rest =>
    if c.isDigit then
      let next := begun * 10 + Text.digitValue c
      if next < 0x80000000 then exponentDigits next rest else (none, rest)
    else (some begun, c :: rest)

/-- An exponent, behind its mark and sign. -/
def exponentPart (negative : Bool) (significand : Nat) (places : Int) (down : Bool)
    (text : List Char) : Outcome Numeral :=
  match text with
  | [] => .error (faultAt .endInValue [])
  | c :: rest =>
    if !c.isDigit then .error (faultPast .invalidNumber (c :: rest))
    else match exponentDigits 0 (c :: rest) with
      | (some size, left) =>
        finishFloat negative significand (if down then places - size else places + size) left
      | (none, left) =>
        if significand ≠ 0 ∧ !down then .error (faultAt .numberOutOfRange left)
        else .ok (.float (Binary64.zero negative), (Text.digitRun left).2)

/-- The optional exponent behind the digits of a double. -/
def afterDigits (negative : Bool) (significand : Nat) (places : Int) (text : List Char) :
    Outcome Numeral :=
  match text with
  | mark :: rest =>
    if mark = 'e' ∨ mark = 'E' then
      match rest with
      | '+' :: rest => exponentPart negative significand places false rest
      | '-' :: rest => exponentPart negative significand places true rest
      | rest => exponentPart negative significand places false rest
    else finishFloat negative significand places text
  | [] => finishFloat negative significand places []

/-- The digits behind a point, of which there must be one. -/
def fractionPart (negative : Bool) (significand dropped : Nat) (text : List Char) : Outcome Numeral :=
  let (digits, rest) := Text.digitRun text
  if digits.isEmpty then
    .error (faultPast (if rest.isEmpty then .endInValue else .invalidNumber) rest)
  else
    let (kept, left) := keepDigits significand digits
    afterDigits negative kept (dropped - (digits.length - left.length : Nat)) rest

/-- A number without point and exponent whose digits all fit. -/
def wholeNumeral (negative : Bool) (number : Nat) : Numeral :=
  if !negative then .whole number
  else if number = 0 ∨ 0x8000000000000000 < number then .float { Binary64.ofNat number with negative := true }
  else .whole (-number)

/-- What follows the whole digits of a numeral, some of which may have been dropped. -/
def behindDigits (negative : Bool) (kept dropped : Nat) (text : List Char) : Outcome Numeral :=
  match text with
  | [] => if dropped = 0 then .ok (wholeNumeral negative kept, []) else afterDigits negative kept dropped []
  | c :: rest =>
    if c = '.' then fractionPart negative kept dropped rest
    else if dropped = 0 ∧ c ≠ 'e' ∧ c ≠ 'E' then .ok (wholeNumeral negative kept, c :: rest)
    else afterDigits negative kept dropped (c :: rest)

/-- A numeral behind its sign. -/
def numeralBody (negative : Bool) (text : List Char) : Outcome Numeral :=
  match text with
  | [] => .error (faultAt .endInValue [])
  | c :: rest =>
    if !c.isDigit then .error (faultPast .invalidNumber (c :: rest))
    else if c = '0' ∧ rest.head?.any Char.isDigit then .error (faultPast .invalidNumber rest)
    else
      let (digits, rest) := Text.digitRun (c :: rest)
      let (kept, left) := keepDigits 0 digits
      behindDigits negative kept left.length rest

theorem finishFloat_length_le {negative : Bool} {significand : Nat} {exponent : Int}
    {text rest : List Char} {n : Numeral}
    (read : finishFloat negative significand exponent text = .ok (n, rest)) :
    rest.length ≤ text.length := by
  unfold finishFloat at read
  split at read
  · obtain ⟨_, rfl⟩ := Prod.mk.inj (Except.ok.inj read)
    exact Nat.le_refl _
  · cases read

theorem exponentDigits_length_le (begun : Nat) (text : List Char) :
    (exponentDigits begun text).2.length ≤ text.length := by
  fun_induction exponentDigits begun text with
  | case1 => exact Nat.le_refl _
  | case2 begun c rest _ next _ ih => exact Nat.le_succ_of_le ih
  | case3 begun c rest _ next _ => exact Nat.le_succ _
  | case4 => exact Nat.le_refl _

theorem exponentPart_length_le {negative down : Bool} {significand : Nat} {places : Int}
    {text rest : List Char} {n : Numeral}
    (read : exponentPart negative significand places down text = .ok (n, rest)) :
    rest.length ≤ text.length := by
  unfold exponentPart at read
  split at read
  · cases read
  · next c tail =>
    split at read
    · cases read
    · have bound := exponentDigits_length_le 0 (c :: tail)
      split at read
      · next size left scanned =>
        rw [scanned] at bound
        exact Nat.le_trans (finishFloat_length_le read) bound
      · next left scanned =>
        rw [scanned] at bound
        split at read
        · cases read
        · rw [← (Prod.mk.inj (Except.ok.inj read)).2]
          exact Nat.le_trans (Text.digitRun_length_le _) bound

theorem afterDigits_length_le {negative : Bool} {significand : Nat} {places : Int}
    {text rest : List Char} {n : Numeral}
    (read : afterDigits negative significand places text = .ok (n, rest)) :
    rest.length ≤ text.length := by
  unfold afterDigits at read
  split at read
  · split at read
    · split at read
      · have := exponentPart_length_le read
        simp only [List.length_cons]
        omega
      · have := exponentPart_length_le read
        simp only [List.length_cons]
        omega
      · exact Nat.le_succ_of_le (exponentPart_length_le read)
    · exact finishFloat_length_le read
  · exact finishFloat_length_le read

theorem fractionPart_length_le {negative : Bool} {significand dropped : Nat}
    {text rest : List Char} {n : Numeral}
    (read : fractionPart negative significand dropped text = .ok (n, rest)) :
    rest.length ≤ text.length := by
  unfold fractionPart at read
  simp only at read
  split at read
  · cases read
  · exact Nat.le_trans (afterDigits_length_le read) (Text.digitRun_length_le text)

theorem behindDigits_length_le {negative : Bool} {kept dropped : Nat} {text rest : List Char}
    {n : Numeral} (read : behindDigits negative kept dropped text = .ok (n, rest)) :
    rest.length ≤ text.length := by
  unfold behindDigits at read
  split at read
  · split at read
    · obtain ⟨-, rfl⟩ := Prod.mk.inj (Except.ok.inj read)
      exact Nat.le_refl _
    · exact afterDigits_length_le read
  · split at read
    · exact Nat.le_succ_of_le (fractionPart_length_le read)
    · split at read
      · obtain ⟨-, rfl⟩ := Prod.mk.inj (Except.ok.inj read)
        exact Nat.le_refl _
      · exact afterDigits_length_le read

theorem numeralBody_length_lt {negative : Bool} {text rest : List Char} {n : Numeral}
    (read : numeralBody negative text = .ok (n, rest)) : rest.length < text.length := by
  unfold numeralBody at read
  split at read
  · cases read
  · next c tail =>
    split at read
    · cases read
    · next digit =>
      split at read
      · cases read
      · have shorter : (Text.digitRun (c :: tail)).2.length < (c :: tail).length := by
          have isDigit : c.isDigit = true := by simpa using digit
          simp only [Text.digitRun, List.dropWhile_cons, isDigit, if_true, List.length_cons]
          exact Nat.lt_succ_of_le (List.dropWhile_sublist _).length_le
        exact Nat.lt_of_le_of_lt (behindDigits_length_le read) shorter

end JobQueue.Json
