import JobQueue.Json.ValueReader

/-! # Skipping a value

A value that nobody wants is checked for its form alone: numbers may have any size, an escape may be half
of a pair, and nesting has no limit. Behind a comma a closing bracket is no special mistake.
-/

namespace JobQueue.Json

/-- Skips an escape behind its backslash. -/
def skipEscape : List Char → Outcome Unit
  | [] => .error (faultAt .endInString [])
  | c :: rest =>
    if c = 'u' then (hexFour rest).andThen fun _ left => .ok ((), left)
    else if (shortEscape? c).isSome then .ok ((), rest)
    else .error (faultPast .invalidEscape (c :: rest))

theorem skipEscape_length_lt {text rest : List Char} {mark : Unit}
    (read : skipEscape text = .ok (mark, rest)) : rest.length < text.length := by
  cases text with
  | nil => cases read
  | cons c text =>
    simp only [skipEscape] at read
    split at read
    · obtain ⟨n, left, found, equal⟩ := Outcome.andThen_eq_ok.mp read
      cases equal
      exact Nat.lt_succ_of_lt (hexFour_length_lt found)
    · split at read
      · cases read
        exact Nat.lt_succ_self _
      · cases read

/-- Skips a character of a string, or its closing quote. -/
def skippedChar : Step Unit Unit where
  run _ text := match text with
    | [] => .error (faultAt .endInString [])
    | c :: rest =>
      if c = '"' then .ok (none, rest)
      else if c = '\\' then (skipEscape rest).andThen fun _ left => .ok (some ((), ()), left)
      else if c.toNat < 0x20 then .error (faultAt .controlCharacter (c :: rest))
      else .ok (some ((), ()), rest)
  shorter {_ text next rest} read := by
    cases text with
    | nil => cases read
    | cons c text =>
      simp only at read
      split at read
      · cases read
        exact Nat.lt_succ_self _
      · split at read
        · obtain ⟨_, left, found, equal⟩ := Outcome.andThen_eq_ok.mp read
          cases equal
          exact Nat.lt_succ_of_lt (skipEscape_length_lt found)
        · split at read
          · cases read
          · cases read
            exact Nat.lt_succ_self _

/-- A repetition of which nothing is kept. -/
def skipAll {σ : Type} (step : Step σ Unit) (state : σ) : Reader Unit := (step.reader state).map fun _ => ()

/-- Skips a string behind its opening quote. -/
def skipString : Reader Unit := skipAll skippedChar ()

/-- The text without a sign in front. -/
def dropSign : List Char → List Char
  | [] => []
  | c :: rest => if c = '+' ∨ c = '-' then rest else c :: rest

theorem dropSign_length_le (text : List Char) : (dropSign text).length ≤ text.length := by
  cases text with
  | nil => exact Nat.le_refl _
  | cons c text =>
    simp only [dropSign]
    split
    · exact Nat.le_succ _
    · exact Nat.le_refl _

/-- Skips the digits of an exponent and their sign. -/
def skipExponentDigits (text : List Char) : Outcome Unit :=
  match dropSign text with
  | [] => .error (faultPast .invalidNumber [])
  | c :: rest =>
    if c.isDigit then .ok ((), (Text.digitRun rest).2) else .error (faultPast .invalidNumber (c :: rest))

/-- Skips an exponent, if there is one. -/
def skipExponent : List Char → Outcome Unit
  | [] => .ok ((), [])
  | c :: rest => if c = 'e' ∨ c = 'E' then skipExponentDigits rest else .ok ((), c :: rest)

/-- Skips what follows the whole digits of a number. -/
def skipBehindWhole : List Char → Outcome Unit
  | [] => .ok ((), [])
  | c :: rest =>
    if c = '.' then
      let (digits, left) := Text.digitRun rest
      if digits.isEmpty then .error (faultPast .invalidNumber left) else skipExponent left
    else skipExponent (c :: rest)

/-- Skips a number behind its sign. -/
def skipNumeral : List Char → Outcome Unit
  | [] => .error (faultPast .invalidNumber [])
  | c :: rest =>
    if c = '0' then
      if (rest.head?.map Char.isDigit).getD false then .error (faultPast .invalidNumber rest)
      else skipBehindWhole rest
    else if c.isDigit then skipBehindWhole (Text.digitRun rest).2
    else .error (faultPast .invalidNumber (c :: rest))

theorem skipExponentDigits_length_le {text rest : List Char} {mark : Unit}
    (read : skipExponentDigits text = .ok (mark, rest)) : rest.length ≤ text.length := by
  unfold skipExponentDigits at read
  have bound := dropSign_length_le text
  split at read
  · cases read
  · next c digits found =>
    rw [found, List.length_cons] at bound
    split at read
    · rw [← (Prod.mk.inj (Except.ok.inj read)).2]
      have := Text.digitRun_length_le digits
      omega
    · cases read

theorem skipExponent_length_le {text rest : List Char} {mark : Unit}
    (read : skipExponent text = .ok (mark, rest)) : rest.length ≤ text.length := by
  cases text with
  | nil =>
    obtain ⟨_, rfl⟩ := Prod.mk.inj (Except.ok.inj read)
    exact Nat.le_refl _
  | cons c text =>
    simp only [skipExponent] at read
    split at read
    · exact Nat.le_succ_of_le (skipExponentDigits_length_le read)
    · obtain ⟨_, rfl⟩ := Prod.mk.inj (Except.ok.inj read)
      exact Nat.le_refl _

theorem skipBehindWhole_length_le {text rest : List Char} {mark : Unit}
    (read : skipBehindWhole text = .ok (mark, rest)) : rest.length ≤ text.length := by
  cases text with
  | nil =>
    obtain ⟨_, rfl⟩ := Prod.mk.inj (Except.ok.inj read)
    exact Nat.le_refl _
  | cons c text =>
    simp only [skipBehindWhole] at read
    split at read
    · split at read
      · cases read
      · exact Nat.le_succ_of_le (Nat.le_trans (skipExponent_length_le read) (Text.digitRun_length_le _))
    · exact skipExponent_length_le read

theorem skipNumeral_length_lt {text rest : List Char} {mark : Unit}
    (read : skipNumeral text = .ok (mark, rest)) : rest.length < text.length := by
  cases text with
  | nil => cases read
  | cons c text =>
    simp only [skipNumeral] at read
    split at read
    · split at read
      · cases read
      · exact Nat.lt_succ_of_le (skipBehindWhole_length_le read)
    · split at read
      · exact Nat.lt_succ_of_le (Nat.le_trans (skipBehindWhole_length_le read) (Text.digitRun_length_le _))
      · cases read

/-- Skips the next item of an array, or its closing bracket. -/
def skipElement (item : Reader Unit) (first : Bool) (text : List Char) : Outcome (Option (Unit × Bool)) :=
  match skipSpace text with
  | [] => .error (faultPast .endInList [])
  | c :: rest =>
    if c = ']' then .ok (none, rest)
    else if first then (item.run (c :: rest)).andThen fun _ left => .ok (some ((), false), left)
    else if c = ',' then (item.run rest).andThen fun _ left => .ok (some ((), false), left)
    else .error (faultPast .expectedListEnd (c :: rest))

theorem skipElement_length_lt {item : Reader Unit} {first : Bool} {text rest : List Char}
    {next : Option (Unit × Bool)} (read : skipElement item first text = .ok (next, rest)) :
    rest.length < text.length := by
  unfold skipElement at read
  have bound := skipSpace_length_le text
  split at read
  · cases read
  · next c tail found =>
    rw [found, List.length_cons] at bound
    split at read
    · cases read
      omega
    · split at read
      · obtain ⟨_, left, taken, equal⟩ := Outcome.andThen_eq_ok.mp read
        cases equal
        have := item.shorter taken
        simp only [List.length_cons] at this
        omega
      · split at read
        · obtain ⟨_, left, taken, equal⟩ := Outcome.andThen_eq_ok.mp read
          cases equal
          have := item.shorter taken
          omega
        · cases read

/-- Skips the items of an array, one at a time. -/
def skippedElement (item : Reader Unit) : Step Bool Unit where
  run := skipElement item
  shorter := skipElement_length_lt

/-- Skips a name, its colon and its value. -/
def skipNamed (item : Reader Unit) : Reader Unit :=
  .start (fun c rest =>
      if c = '"' then (skipString.run rest).andThen fun _ left => behindColon item left
      else .error (faultPast .keyNotString (c :: rest)))
    .endInObject fun {_ _ _ _} read => by
      split at read
      · obtain ⟨_, left, taken, tail⟩ := Outcome.andThen_eq_ok.mp read
        exact Nat.le_of_lt (Nat.lt_trans (behindColon_length_lt tail) (skipString.shorter taken))
      · cases read

/-- Skips the next member of an object, or its closing brace. -/
def skipMember (item : Reader Unit) (first : Bool) (text : List Char) : Outcome (Option (Unit × Bool)) :=
  match skipSpace text with
  | [] => .error (faultPast .endInObject [])
  | c :: rest =>
    if c = '}' then .ok (none, rest)
    else if first then
      ((skipNamed item).run (c :: rest)).andThen fun _ left => .ok (some ((), false), left)
    else if c = ',' then ((skipNamed item).run rest).andThen fun _ left => .ok (some ((), false), left)
    else .error (faultPast .expectedObjectEnd (c :: rest))

theorem skipMember_length_lt {item : Reader Unit} {first : Bool} {text rest : List Char}
    {next : Option (Unit × Bool)} (read : skipMember item first text = .ok (next, rest)) :
    rest.length < text.length := by
  unfold skipMember at read
  have bound := skipSpace_length_le text
  split at read
  · cases read
  · next c tail found =>
    rw [found, List.length_cons] at bound
    split at read
    · cases read
      omega
    · split at read
      · obtain ⟨_, left, taken, equal⟩ := Outcome.andThen_eq_ok.mp read
        cases equal
        have := (skipNamed item).shorter taken
        simp only [List.length_cons] at this
        omega
      · split at read
        · obtain ⟨_, left, taken, equal⟩ := Outcome.andThen_eq_ok.mp read
          cases equal
          have := (skipNamed item).shorter taken
          omega
        · cases read

/-- Skips the members of an object, one at a time. -/
def skippedMember (item : Reader Unit) : Step Bool Unit where
  run := skipMember item
  shorter := skipMember_length_lt

/-- Skips a value that begins with a given character. -/
def skipFrom (nested? : Option (Reader Unit)) (c : Char) (rest : List Char) : Outcome Unit :=
  if c = 'n' then word () ['u', 'l', 'l'] rest
  else if c = 't' then word () ['r', 'u', 'e'] rest
  else if c = 'f' then word () ['a', 'l', 's', 'e'] rest
  else if c = '-' then skipNumeral rest
  else if c = '"' then skipString.run rest
  else if c = '[' then match nested? with
    | none => .error (faultPast .tooDeep (c :: rest))
    | some item => (skipAll (skippedElement item) true).run rest
  else if c = '{' then match nested? with
    | none => .error (faultPast .tooDeep (c :: rest))
    | some item => (skipAll (skippedMember item) true).run rest
  else if c.isDigit then skipNumeral (c :: rest)
  else .error (faultPast .expectedValue (c :: rest))

theorem skipFrom_length_le {nested? : Option (Reader Unit)} {c : Char} {text rest : List Char}
    {mark : Unit} (read : skipFrom nested? c text = .ok (mark, rest)) : rest.length ≤ text.length := by
  unfold skipFrom at read
  split at read
  · exact word_length_le read
  split at read
  · exact word_length_le read
  split at read
  · exact word_length_le read
  split at read
  · exact Nat.le_of_lt (skipNumeral_length_lt read)
  split at read
  · exact Nat.le_of_lt (skipString.shorter read)
  split at read
  · split at read
    · cases read
    · exact Nat.le_of_lt ((skipAll _ _).shorter read)
  split at read
  · split at read
    · cases read
    · exact Nat.le_of_lt ((skipAll _ _).shorter read)
  split at read
  · have := skipNumeral_length_lt read
    simp only [List.length_cons] at this
    omega
  · cases read

/-- Skips a value that nests at most `depth` arrays and objects. -/
def skipWithin : Nat → Reader Unit
  | 0 => .start (skipFrom none) .endInValue skipFrom_length_le
  | depth + 1 => .start (skipFrom (some (skipWithin depth))) .endInValue skipFrom_length_le

/-- Skips a value. It cannot nest deeper than it is long. -/
def skip : Reader Unit where
  run text := (skipWithin text.length).run text
  shorter read := (skipWithin _).shorter read

end JobQueue.Json
