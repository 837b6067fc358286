import JobQueue.Value

/-! # JSON text, written

No spaces are written. A string escapes its quotes, its backslashes and the control characters below
U+0020, and nothing else. Object members come in the order given.
-/

namespace JobQueue.Json

/-- One character inside a string. -/
def escapeChar (c : Char) : List Char :=
  if c = '"' then ['\\', '"']
  else if c = '\\' then ['\\', '\\']
  else if c = '\x08' then ['\\', 'b']
  else if c = '\x0c' then ['\\', 'f']
  else if c = '\n' then ['\\', 'n']
  else if c = '\r' then ['\\', 'r']
  else if c = '\t' then ['\\', 't']
  else if c.toNat < 0x20 then
    ['\\', 'u', '0', '0', Nat.digitChar (c.toNat / 16), Nat.digitChar (c.toNat % 16)]
  else [c]

/-- A string in quotes. -/
def writeString (s : String) : List Char := '"' :: (s.toList.flatMap escapeChar ++ ['"'])

/-- Texts with commas between them. -/
def separated : List (List Char) → List Char
  | [] => []
  | [text] => text
  | text :: rest => text ++ ',' :: separated rest

/-- An array of written items. -/
def writeArray (items : List (List Char)) : List Char := '[' :: (separated items ++ [']'])

/-- A name with its written value. -/
def writeMember (name : String) (written : List Char) : List Char := writeString name ++ ':' :: written

/-- An object of written members. -/
def writeObject (members : List (String × List Char)) : List Char :=
  '{' :: (separated (members.map fun (name, written) => writeMember name written) ++ ['}'])

def writeNull : List Char := ['n', 'u', 'l', 'l']

def writeBool (flag : Bool) : List Char :=
  if flag then ['t', 'r', 'u', 'e'] else ['f', 'a', 'l', 's', 'e']

/-- A double: the shortest decimal that reads back, or null if it has no digits. -/
def writeFloat (x : Binary64) : List Char := (NumberLayout.json.write x).toList

mutual

/-- The JSON text of a value. -/
def writeValue : Value → List Char
  | .null => writeNull
  | .bool flag => writeBool flag
  | .int number => Text.integer number.toInt
  | .float number => writeFloat number
  | .string text => writeString text
  | .array items => writeArray (writeItems items)
  | .object members => writeObject (writeMembers members)

/-- Each item written. -/
def writeItems : List Value → List (List Char)
  | [] => []
  | item :: rest => writeValue item :: writeItems rest

/-- Each member with its value written. -/
def writeMembers : List (String × Value) → List (String × List Char)
  | [] => []
  | (name, member) :: rest => (name, writeValue member) :: writeMembers rest

end

end JobQueue.Json
