import JobQueue.Json.ValueReader

/-! # Reading JSON of one kind

A typed reader accepts values of its kind and describes any other value it finds. A scalar of another kind
is read to its end first, so its own faults come before the disagreement; a bracket is left where it is.
-/

namespace JobQueue.Json

/-- How a numeral is described. -/
def Numeral.found : Numeral → Found
  | whole number => .integer number
  | float number => .float number

/-- Reports what was read in place of the expected value. -/
def wrongKind {α : Type} (expected : String) (describe : α → Found) (read : Outcome α) : Fault :=
  match read with
  | .ok (a, rest) => faultAt (.invalidType (describe a) expected) rest
  | .error fault => fault

/-- The fault of a value that begins with a given character where another kind was expected. -/
def mismatch (expected : String) (c : Char) (rest : List Char) : Fault :=
  if c = 'n' then wrongKind expected (fun _ => .null) (word () ['u', 'l', 'l'] rest)
  else if c = 't' then wrongKind expected .bool (word true ['r', 'u', 'e'] rest)
  else if c = 'f' then wrongKind expected .bool (word false ['a', 'l', 's', 'e'] rest)
  else if c = '-' then wrongKind expected Numeral.found (numeralBody true rest)
  else if c.isDigit then wrongKind expected Numeral.found (numeralBody false (c :: rest))
  else if c = '"' then wrongKind expected .string (stringBody.run rest)
  else if c = '[' then faultAt (.invalidType .sequence expected) (c :: rest)
  else if c = '{' then faultAt (.invalidType .map expected) (c :: rest)
  else faultPast .expectedValue (c :: rest)

/-- A string. -/
def string (expected : String) : Reader String :=
  .start (fun c rest => if c = '"' then stringBody.run rest else .error (mismatch expected c rest))
    .endInValue fun {_ _ _ _} read => by
      split at read
      · exact Nat.le_of_lt (stringBody.shorter read)
      · cases read

/-- A truth value. -/
def bool (expected : String) : Reader Bool :=
  .start (fun c rest =>
      if c = 't' then word true ['r', 'u', 'e'] rest
      else if c = 'f' then word false ['a', 'l', 's', 'e'] rest
      else .error (mismatch expected c rest))
    .endInValue fun {_ _ _ _} read => by
      split at read
      · exact word_length_le read
      split at read
      · exact word_length_le read
      · cases read

/-- A whole number from zero up to and without a limit. -/
def natural (expected : String) (limit : Nat) : Reader Nat :=
  let judged (read : Outcome Numeral) : Outcome Nat := read.andThen fun number left =>
    match number with
    | .whole size =>
      if 0 ≤ size ∧ size < limit then .ok (size.toNat, left)
      else .error (faultAt (.integerOutOfRange size expected) left)
    | .float size => .error (faultAt (.invalidType (.float size) expected) left)
  have bound {read : Outcome Numeral} {n : Nat} {left : List Char}
      (ok : judged read = .ok (n, left)) : ∃ number, read = .ok (number, left) := by
    obtain ⟨number, behind, found, tail⟩ := Outcome.andThen_eq_ok.mp ok
    cases number with
    | whole size =>
      simp only at tail
      split at tail
      · rw [← (Prod.mk.inj (Except.ok.inj tail)).2]
        exact ⟨_, found⟩
      · cases tail
    | float size => cases tail
  .start (fun c rest =>
      if c = '-' then judged (numeralBody true rest)
      else if c.isDigit then judged (numeralBody false (c :: rest))
      else .error (mismatch expected c rest))
    .endInValue fun {_ _ _ _} read => by
      split at read
      · obtain ⟨number, found⟩ := bound read
        exact Nat.le_of_lt (numeralBody_length_lt found)
      split at read
      · obtain ⟨number, found⟩ := bound read
        have := numeralBody_length_lt found
        simp only [List.length_cons] at this
        omega
      · cases read

/-- An array of items, which nest `depth` levels less. -/
def list {α : Type} (expected : String) (item : Nat → Reader α) (depth : Nat) : Reader (List α) :=
  .start (fun c rest =>
      if c = '[' then match depth with
        | 0 => .error (faultPast .tooDeep (c :: rest))
        | depth + 1 => (elements (item depth)).run rest
      else .error (mismatch expected c rest))
    .endInValue fun {_ _ _ _} read => by
      split at read
      · split at read
        · cases read
        · exact Nat.le_of_lt ((elements _).shorter read)
      · cases read

/-- An object of values, which nest `depth` levels less. -/
def dict (expected : String) (depth : Nat) : Reader (Dict Value) :=
  .start (fun c rest =>
      if c = '{' then match depth with
        | 0 => .error (faultPast .tooDeep (c :: rest))
        | depth + 1 => ((members (value depth)).run rest).andThen fun entries left =>
          .ok (Dict.ofEntries entries, left)
      else .error (mismatch expected c rest))
    .endInValue fun {_ _ _ _} read => by
      split at read
      · split at read
        · cases read
        · obtain ⟨entries, left, found, equal⟩ := Outcome.andThen_eq_ok.mp read
          cases equal
          exact Nat.le_of_lt ((members _).shorter found)
      · cases read

/-- Null, or what another reader reads. -/
def optional {α : Type} (item : Reader α) : Reader (Option α) where
  run text := match skipSpace text with
    | 'n' :: rest => word none ['u', 'l', 'l'] rest
    | rest => (item.run rest).andThen fun a left => .ok (some a, left)
  shorter {text a rest} read := by
    have bound := skipSpace_length_le text
    split at read
    · next left found =>
      rw [found, List.length_cons] at bound
      have := word_length_le read
      omega
    · obtain ⟨a, left, found, equal⟩ := Outcome.andThen_eq_ok.mp read
      cases equal
      have := item.shorter found
      omega

/-- An array of values. -/
def values (depth : Nat) : Reader (List Value) := list "an array" value depth

end JobQueue.Json
