import JobQueue.Binary64.Text
import JobQueue.Text.Digits
import JobQueue.Text.Quoted

/-! # What can be wrong with a JSON text, and where

A fault is a cause and the number of bytes of the text that lie behind its place. Counting from the end
makes a fault independent of what was read before; line and column are computed when it is shown.
-/

namespace JobQueue.Json

/-- The kind of value found where another was expected. -/
inductive Found where
  | null
  | bool (flag : Bool)
  | integer (number : Int)
  | float (number : Binary64)
  | string (text : String)
  | sequence
  | map
deriving DecidableEq, Repr

/-- Why a text is refused. -/
inductive Cause where
  | endInValue
  | endInList
  | endInObject
  | endInString
  | expectedIdentifier
  | expectedValue
  | expectedColon
  | expectedListEnd
  | expectedObjectEnd
  | trailingComma
  | trailingCharacters
  | keyNotString
  | invalidNumber
  | numberOutOfRange
  | invalidEscape
  | controlCharacter
  | loneSurrogate
  | incompletePair
  | tooDeep
  | invalidType (found : Found) (expected : String)
  | integerOutOfRange (number : Int) (expected : String)
  | unknownField (name : String) (fields : List String)
  | missingField (name : String)
  | duplicateField (name : String)
  | refused (reason : String)
deriving DecidableEq, Repr

/-- A cause, and the number of bytes behind the place it is reported at. -/
structure Fault where
  cause : Cause
  left : Nat
deriving DecidableEq, Repr

/-- The UTF-8 size of a text. -/
def bytes (text : List Char) : Nat := text.foldl (fun size c => size + c.utf8Size) 0

/-- A fault at the beginning of the rest of a text. -/
def faultAt (cause : Cause) (rest : List Char) : Fault := ⟨cause, bytes rest⟩

/-- A fault behind the next byte of the rest of a text, if there is one. -/
def faultPast (cause : Cause) (rest : List Char) : Fault := ⟨cause, bytes rest - 1⟩

/-- A name between grave accents. -/
def ticked (name : String) : String := "`" ++ name ++ "`"

namespace Found

/-- How a found value is described. -/
def describe : Found → String
  | null => "null"
  | bool flag => "boolean " ++ ticked (if flag then "true" else "false")
  | integer number => "integer " ++ ticked (String.ofList (Text.integer number))
  | float number => "floating point " ++ ticked (NumberLayout.found.write number)
  | string text => "string " ++ Text.quoted text
  | sequence => "sequence"
  | map => "map"

end Found

/-- How the known fields of a record are listed. -/
def oneOf : List String → String
  | [] => "there are no fields"
  | [name] => "expected " ++ ticked name
  | [first, second] => "expected " ++ ticked first ++ " or " ++ ticked second
  | names => "expected one of " ++ ", ".intercalate (names.map ticked)

namespace Cause

/-- The wording of a cause. -/
def message : Cause → String
  | endInValue => "EOF while parsing a value"
  | endInList => "EOF while parsing a list"
  | endInObject => "EOF while parsing an object"
  | endInString => "EOF while parsing a string"
  | expectedIdentifier => "expected ident"
  | expectedValue => "expected value"
  | expectedColon => "expected `:`"
  | expectedListEnd => "expected `,` or `]`"
  | expectedObjectEnd => "expected `,` or `\x7d`"
  | trailingComma => "trailing comma"
  | trailingCharacters => "trailing characters"
  | keyNotString => "key must be a string"
  | invalidNumber => "invalid number"
  | numberOutOfRange => "number out of range"
  | invalidEscape => "invalid escape"
  | controlCharacter => "control character (\\u0000-\\u001F) found while parsing a string"
  | loneSurrogate => "lone leading surrogate in hex escape"
  | incompletePair => "unexpected end of hex escape"
  | tooDeep => "recursion limit exceeded"
  | invalidType found expected => "invalid type: " ++ found.describe ++ ", expected " ++ expected
  | integerOutOfRange number expected =>
    "invalid value: integer " ++ ticked (String.ofList (Text.integer number)) ++ ", expected " ++ expected
  | unknownField name fields => "unknown field " ++ ticked name ++ ", " ++ oneOf fields
  | missingField name => "missing field " ++ ticked name
  | duplicateField name => "duplicate field " ++ ticked name
  | refused reason => reason

end Cause

/-- The line, from one, and the byte column behind `count` bytes of a text. -/
def lineColumn (text : List Char) (count : Nat) : Nat × Nat :=
  go text count 1 0
where
  /-- Walks the characters that end within the count, keeping the line and the bytes since its start. -/
  go : List Char → Nat → Nat → Nat → Nat × Nat
    | [], count, line, column => (line, column + count)
    | c :: rest, count, line, column =>
      if count < c.utf8Size then (line, column + count)
      else if c = '\n' then go rest (count - 1) (line + 1) 0
      else go rest (count - c.utf8Size) line (column + c.utf8Size)

namespace Fault

/-- The cause and its place in a text. -/
def message (fault : Fault) (text : List Char) : String :=
  let (line, column) := lineColumn text (bytes text - fault.left)
  fault.cause.message ++ " at line " ++ String.ofList (Text.integer line) ++
    " column " ++ String.ofList (Text.integer column)

end Fault

end JobQueue.Json
