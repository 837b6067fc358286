import JobQueue.Text.Glyph

/-! # Quoted text for people

A string between double quotes in which what cannot be seen is spelled out: `\0`, `\t`, `\r`, `\n`, an
escaped quote or backslash, and the code point in hexadecimal for anything without a glyph of its own.
-/

namespace JobQueue.Text

/-- Lower-case hexadecimal digits of a number. -/
def hexDigits (n : Nat) : List Char := Nat.toDigits 16 n

/-- How one character is shown between quotes. -/
def shownChar (c : Char) : List Char :=
  if c = '\x00' then ['\\', '0']
  else if c = '\t' then ['\\', 't']
  else if c = '\r' then ['\\', 'r']
  else if c = '\n' then ['\\', 'n']
  else if c = '"' ∨ c = '\\' then ['\\', c]
  else if isPrintable c && !isExtender c then [c]
  else '\\' :: 'u' :: '{' :: (hexDigits c.toNat ++ ['}'])

/-- A string in double quotes with its invisible characters spelled out. -/
def quoted (s : String) : String :=
  String.ofList ('"' :: (s.toList.flatMap shownChar ++ ['"']))

end JobQueue.Text
