import JobQueue.Json.Numeral
import JobQueue.Json.StringReader
import JobQueue.Value

/-! # Reading JSON values

Arrays and objects are repetitions of their items between commas. A value may nest to a given depth and
no deeper. Of a name that occurs twice in an object the first place and the last value are kept.
-/

namespace JobQueue.Json

/-- The next item of an array, or its closing bracket. -/
def nextElement {α : Type} (item : Reader α) (first : Bool) (text : List Char) :
    Outcome (Option (α × Bool)) :=
  match skipSpace text with
  | [] => .error (faultPast .endInList [])
  | c :: rest =>
    if c = ']' then .ok (none, rest)
    else if first then (item.run (c :: rest)).andThen fun a left => .ok (some (a, false), left)
    else if c = ',' then match skipSpace rest with
      | [] => .error (faultPast .endInValue [])
      | d :: others =>
        if d = ']' then .error (faultPast .trailingComma (d :: others))
        else (item.run (d :: others)).andThen fun a left => .ok (some (a, false), left)
    else .error (faultPast .expectedListEnd (c :: rest))

theorem nextElement_length_lt {α : Type} {item : Reader α} {first : Bool} {text rest : List Char}
    {next : Option (α × Bool)} (read : nextElement item first text = .ok (next, rest)) :
    rest.length < text.length := by
  unfold nextElement at read
  have bound := skipSpace_length_le text
  split at read
  · cases read
  · next c tail found =>
    rw [found, List.length_cons] at bound
    split at read
    · cases read
      omega
    · split at read
      · obtain ⟨a, left, taken, equal⟩ := Outcome.andThen_eq_ok.mp read
        cases equal
        have := item.shorter taken
        simp only [List.length_cons] at this
        omega
      · split at read
        · have inner := skipSpace_length_le tail
          split at read
          · cases read
          · next d others behind =>
            rw [behind] at inner
            split at read
            · cases read
            · obtain ⟨a, left, taken, equal⟩ := Outcome.andThen_eq_ok.mp read
              cases equal
              have := item.shorter taken
              omega
        · cases read

/-- The items of an array, one at a time. -/
def elementStep {α : Type} (item : Reader α) : Step Bool α where
  run := nextElement item
  shorter := nextElement_length_lt

/-- The items of an array behind its opening bracket. -/
def elements {α : Type} (item : Reader α) : Reader (List α) := (elementStep item).reader true

/-- The next name of an object, or its closing brace. -/
def nextName (first : Bool) (text : List Char) : Outcome (Option String) :=
  match skipSpace text with
  | [] => .error (faultPast .endInObject [])
  | c :: rest =>
    if c = '}' then .ok (none, rest)
    else if first then
      if c = '"' then (stringBody.run rest).andThen fun name left => .ok (some name, left)
      else .error (faultPast .keyNotString (c :: rest))
    else if c = ',' then match skipSpace rest with
      | [] => .error (faultPast .endInValue [])
      | d :: others =>
        if d = '"' then (stringBody.run others).andThen fun name left => .ok (some name, left)
        else .error (faultPast (if d = '}' then .trailingComma else .keyNotString) (d :: others))
    else .error (faultPast .expectedObjectEnd (c :: rest))

theorem nextName_length_lt {first : Bool} {text rest : List Char} {name : Option String}
    (read : nextName first text = .ok (name, rest)) : rest.length < text.length := by
  unfold nextName at read
  have bound := skipSpace_length_le text
  split at read
  · cases read
  · next c tail found =>
    rw [found, List.length_cons] at bound
    split at read
    · cases read
      omega
    · split at read
      · split at read
        · obtain ⟨key, left, taken, equal⟩ := Outcome.andThen_eq_ok.mp read
          cases equal
          have := stringBody.shorter taken
          omega
        · cases read
      · split at read
        · have inner := skipSpace_length_le tail
          split at read
          · cases read
          · next d others behind =>
            rw [behind, List.length_cons] at inner
            split at read
            · obtain ⟨key, left, taken, equal⟩ := Outcome.andThen_eq_ok.mp read
              cases equal
              have := stringBody.shorter taken
              omega
            · cases read
        · cases read

/-- The colon between a name and its value. -/
def colon (text : List Char) : Outcome Unit :=
  match skipSpace text with
  | [] => .error (faultPast .endInObject [])
  | c :: rest => if c = ':' then .ok ((), rest) else .error (faultPast .expectedColon (c :: rest))

theorem colon_length_le {text rest : List Char} {mark : Unit} (read : colon text = .ok (mark, rest)) :
    rest.length ≤ text.length := by
  unfold colon at read
  have bound := skipSpace_length_le text
  split at read
  · cases read
  · next c tail found =>
    rw [found, List.length_cons] at bound
    split at read
    · cases read
      omega
    · cases read

/-- A colon and what a reader reads behind it. -/
def behindColon {α : Type} (item : Reader α) (text : List Char) : Outcome α :=
  (colon text).andThen fun _ rest => item.run rest

theorem behindColon_length_lt {α : Type} {item : Reader α} {text rest : List Char} {a : α}
    (read : behindColon item text = .ok (a, rest)) : rest.length < text.length := by
  obtain ⟨_, left, found, taken⟩ := Outcome.andThen_eq_ok.mp read
  exact Nat.lt_of_lt_of_le (item.shorter taken) (colon_length_le found)

/-- The next member of an object, or its closing brace. -/
def memberStep {α : Type} (item : Reader α) : Step Bool (String × α) where
  run first text := (nextName first text).andThen fun name? rest => match name? with
    | none => .ok (none, rest)
    | some name => (behindColon item rest).andThen fun a left => .ok (some ((name, a), false), left)
  shorter {first text next rest} read := by
    obtain ⟨name?, left, found, tail⟩ := Outcome.andThen_eq_ok.mp read
    have bound := nextName_length_lt found
    cases name? with
    | none =>
      cases tail
      exact bound
    | some name =>
      obtain ⟨a, behind, taken, equal⟩ := Outcome.andThen_eq_ok.mp tail
      cases equal
      exact Nat.lt_trans (behindColon_length_lt taken) bound

/-- The members of an object behind its opening brace. -/
def members {α : Type} (item : Reader α) : Reader (List (String × α)) := (memberStep item).reader true

/-- The value of a numeral: a whole number if it fits 64 signed bits. -/
def Numeral.value : Numeral → Value
  | whole number =>
    if number < 0x8000000000000000 then .int (Int64.ofInt number) else .float (Binary64.ofInt number)
  | float number => .float number

/-- A value that begins with a given character; what it nests is read by `nested?`, if it may nest. -/
def valueFrom (nested? : Option (Reader Value)) (c : Char) (rest : List Char) : Outcome Value :=
  if c = 'n' then word .null ['u', 'l', 'l'] rest
  else if c = 't' then word (.bool true) ['r', 'u', 'e'] rest
  else if c = 'f' then word (.bool false) ['a', 'l', 's', 'e'] rest
  else if c = '-' then (numeralBody true rest).andThen fun number left => .ok (number.value, left)
  else if c = '"' then (stringBody.run rest).andThen fun text left => .ok (.string text, left)
  else if c = '[' then match nested? with
    | none => .error (faultPast .tooDeep (c :: rest))
    | some item => ((elements item).run rest).andThen fun items left => .ok (.array items, left)
  else if c = '{' then match nested? with
    | none => .error (faultPast .tooDeep (c :: rest))
    | some item => ((members item).run rest).andThen fun entries left =>
      .ok (.object (Dict.ofEntries entries), left)
  else if c.isDigit then
    (numeralBody false (c :: rest)).andThen fun number left => .ok (number.value, left)
  else .error (faultPast .expectedValue (c :: rest))

theorem valueFrom_length_le {nested? : Option (Reader Value)} {c : Char} {text rest : List Char}
    {value : Value} (read : valueFrom nested? c text = .ok (value, rest)) :
    rest.length ≤ text.length := by
  unfold valueFrom at read
  split at read
  · exact word_length_le read
  split at read
  · exact word_length_le read
  split at read
  · exact word_length_le read
  split at read
  · obtain ⟨number, left, found, equal⟩ := Outcome.andThen_eq_ok.mp read
    cases equal
    exact Nat.le_of_lt (numeralBody_length_lt found)
  split at read
  · obtain ⟨inner, left, found, equal⟩ := Outcome.andThen_eq_ok.mp read
    cases equal
    exact Nat.le_of_lt (stringBody.shorter found)
  split at read
  · split at read
    · cases read
    · next item =>
      obtain ⟨items, left, found, equal⟩ := Outcome.andThen_eq_ok.mp read
      cases equal
      exact Nat.le_of_lt ((elements item).shorter found)
  split at read
  · split at read
    · cases read
    · next item =>
      obtain ⟨entries, left, found, equal⟩ := Outcome.andThen_eq_ok.mp read
      cases equal
      exact Nat.le_of_lt ((members item).shorter found)
  split at read
  · obtain ⟨number, left, found, equal⟩ := Outcome.andThen_eq_ok.mp read
    cases equal
    have := numeralBody_length_lt found
    simp only [List.length_cons] at this
    omega
  · cases read

/-- A value that nests at most `depth` arrays and objects. -/
def value : Nat → Reader Value
  | 0 => .start (valueFrom none) .endInValue valueFrom_length_le
  | depth + 1 => .start (valueFrom (some (value depth))) .endInValue valueFrom_length_le

/-- How many arrays and objects a text may nest. -/
def depthLimit : Nat := 127

/-- Reads a text as a whole: nothing may stand behind it but spaces. -/
def readAll {α : Type} (reader : Reader α) (text : List Char) : Except Fault α :=
  match reader.run text with
  | .error fault => .error fault
  | .ok (a, rest) => match requireEnd rest with
    | .error fault => .error fault
    | .ok () => .ok a

end JobQueue.Json
