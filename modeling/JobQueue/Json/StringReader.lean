import JobQueue.Json.Reader

/-! # Reading JSON strings

The inside of a string, escape by escape, up to and with its closing quote. A character beyond U+FFFF
may be written as two hexadecimal escapes, the halves of a surrogate pair; no half may stand alone.
-/

namespace JobQueue.Json

/-- The number that four hexadecimal digits spell. -/
def hexNumber? : List Char → Option (Nat × List Char)
  | a :: b :: c :: d :: rest => do
    let number := (((← Text.hexDigit? a) * 16 + (← Text.hexDigit? b)) * 16 + (← Text.hexDigit? c)) * 16
    return (number + (← Text.hexDigit? d), rest)
  | _ => none

theorem hexNumber?_length_lt {text rest : List Char} {n : Nat}
    (read : hexNumber? text = some (n, rest)) : rest.length < text.length := by
  unfold hexNumber? at read
  split at read
  · simp only [bind, Option.bind_eq_some_iff, pure, Option.some.injEq, Prod.mk.injEq] at read
    obtain ⟨_, _, _, _, _, _, _, _, _, rfl⟩ := read
    simp only [List.length_cons]
    omega
  · cases read

/-- The number of the next four bytes, which must be hexadecimal digits. -/
def hexFour (text : List Char) : Outcome Nat :=
  if bytes (text.take 4) < 4 then .error (faultAt .endInString [])
  else match hexNumber? text with
    | some (n, rest) => .ok (n, rest)
    | none => .error ⟨.invalidEscape, bytes text - 4⟩

theorem hexFour_length_lt {text rest : List Char} {n : Nat} (read : hexFour text = .ok (n, rest)) :
    rest.length < text.length := by
  unfold hexFour at read
  split at read
  · cases read
  · split at read
    · next found =>
      cases read
      exact hexNumber?_length_lt found
    · cases read

def isHighSurrogate (n : Nat) : Bool := 0xd800 ≤ n && n ≤ 0xdbff

def isLowSurrogate (n : Nat) : Bool := 0xdc00 ≤ n && n ≤ 0xdfff

/-- The character of a surrogate pair. -/
def ofSurrogates (high low : Nat) : Char :=
  Char.ofNat (0x10000 + (high - 0xd800) * 0x400 + (low - 0xdc00))

/-- The second half of a surrogate pair. -/
def lowHalf (high : Nat) : List Char → Outcome Char
  | '\\' :: 'u' :: rest => (hexFour rest).andThen fun low rest =>
    if isLowSurrogate low then .ok (ofSurrogates high low, rest)
    else .error (faultAt .loneSurrogate rest)
  | [] => .error (faultAt .endInString [])
  | ['\\'] => .error (faultAt .endInString [])
  | '\\' :: rest => .error (faultPast .incompletePair rest)
  | rest => .error (faultPast .incompletePair rest)

theorem lowHalf_length_lt {high : Nat} {text rest : List Char} {c : Char}
    (read : lowHalf high text = .ok (c, rest)) : rest.length < text.length := by
  unfold lowHalf at read
  split at read
  · next hex =>
    obtain ⟨low, left, found, tail⟩ := Outcome.andThen_eq_ok.mp read
    have := hexFour_length_lt found
    split at tail
    · obtain ⟨_, rfl⟩ := Prod.mk.inj (Except.ok.inj tail)
      simp only [List.length_cons]
      omega
    · cases tail
  all_goals cases read

/-- The character of a hexadecimal escape, behind its `u`. -/
def unicodeEscape (text : List Char) : Outcome Char := (hexFour text).andThen fun n rest =>
  if isLowSurrogate n then .error (faultAt .loneSurrogate rest)
  else if isHighSurrogate n then lowHalf n rest
  else .ok (Char.ofNat n, rest)

theorem unicodeEscape_length_lt {text rest : List Char} {c : Char}
    (read : unicodeEscape text = .ok (c, rest)) : rest.length < text.length := by
  obtain ⟨n, left, found, tail⟩ := Outcome.andThen_eq_ok.mp read
  have := hexFour_length_lt found
  split at tail
  · cases tail
  · split at tail
    · exact Nat.lt_trans (lowHalf_length_lt tail) this
    · cases tail
      exact this

/-- The character a letter behind a backslash stands for. -/
def shortEscape? (c : Char) : Option Char :=
  if c = '"' ∨ c = '\\' ∨ c = '/' then some c
  else if c = 'b' then some '\x08'
  else if c = 'f' then some '\x0c'
  else if c = 'n' then some '\n'
  else if c = 'r' then some '\r'
  else if c = 't' then some '\t'
  else none

/-- The character of an escape, behind its backslash. -/
def escapeSequence : List Char → Outcome Char
  | [] => .error (faultAt .endInString [])
  | c :: rest =>
    if c = 'u' then unicodeEscape rest
    else match shortEscape? c with
      | some meant => .ok (meant, rest)
      | none => .error (faultPast .invalidEscape (c :: rest))

theorem escapeSequence_length_lt {text rest : List Char} {c : Char}
    (read : escapeSequence text = .ok (c, rest)) : rest.length < text.length := by
  cases text with
  | nil => cases read
  | cons head text =>
    simp only [escapeSequence] at read
    split at read
    · exact Nat.lt_succ_of_lt (unicodeEscape_length_lt read)
    · split at read
      · cases read
        exact Nat.lt_succ_self _
      · cases read

/-- The next character of a string, or its closing quote. -/
def stringStep : Step Unit Char where
  run _ text := match text with
    | [] => .error (faultAt .endInString [])
    | c :: rest =>
      if c = '"' then .ok (none, rest)
      else if c = '\\' then match escapeSequence rest with
        | .ok (meant, rest) => .ok (some (meant, ()), rest)
        | .error fault => .error fault
      else if c.toNat < 0x20 then .error (faultAt .controlCharacter rest)
      else .ok (some (c, ()), rest)
  shorter {_ text next rest} read := by
    cases text with
    | nil => cases read
    | cons c text =>
      simp only at read
      split at read
      · cases read
        exact Nat.lt_succ_self _
      · split at read
        · split at read
          · next meant left found =>
            cases read
            exact Nat.lt_succ_of_lt (escapeSequence_length_lt found)
          · cases read
        · split at read
          · cases read
          · cases read
            exact Nat.lt_succ_self _

/-- A string behind its opening quote. -/
def stringBody : Reader String := (stringStep.reader ()).map String.ofList

end JobQueue.Json
