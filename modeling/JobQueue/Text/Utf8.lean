/-! # Bytes as text

Bytes are read as characters of one to four bytes. What is no character is replaced: each longest beginning
of a character that does not go on, and each byte that begins none.
-/

namespace JobQueue.Text

/-- How many bytes go on with a character of a first byte, and between what bounds the next of them is. -/
def followers (first : UInt8) : Nat × UInt8 × UInt8 :=
  if first < 0xC2 then (0, 0x80, 0xBF)
  else if first < 0xE0 then (1, 0x80, 0xBF)
  else if first = 0xE0 then (2, 0xA0, 0xBF)
  else if first = 0xED then (2, 0x80, 0x9F)
  else if first < 0xF0 then (2, 0x80, 0xBF)
  else if first = 0xF0 then (3, 0x90, 0xBF)
  else if first < 0xF4 then (3, 0x80, 0xBF)
  else if first = 0xF4 then (3, 0x80, 0x8F)
  else (0, 0x80, 0xBF)

/-- The bytes that go on with a character, as many as fit. -/
def following (first : UInt8) : List UInt8 → List UInt8
  | [] => []
  | next :: rest =>
    let (count, low, high) := followers first
    if count != 0 && low ≤ next && next ≤ high then
      next :: (rest.take (count - 1)).takeWhile fun byte => 0x80 ≤ byte && byte ≤ 0xBF
    else []

/-- The character of a first byte and all that go on with it. -/
def character (first : UInt8) (more : List UInt8) : Char :=
  let bits := match more.length with
    | 0 => first.toNat
    | 1 => first.toNat % 0x20
    | 2 => first.toNat % 0x10
    | _ => first.toNat % 0x08
  Char.ofNat (more.foldl (fun number byte => number * 0x40 + byte.toNat % 0x40) bits)

theorem drop_length_lt_cons (first : UInt8) (rest : List UInt8) (count : Nat) :
    (rest.drop count).length < (first :: rest).length := by
  rw [List.length_drop, List.length_cons]
  exact Nat.lt_succ_of_le (Nat.sub_le ..)

/-- The text of some bytes. -/
def ofBytes : List UInt8 → List Char
  | [] => []
  | first :: rest =>
    let more := following first rest
    if first < 0x80 || more.length != 0 && more.length = (followers first).1 then
      character first more :: ofBytes (rest.drop more.length)
    else '\ufffd' :: ofBytes (rest.drop more.length)
termination_by bytes => bytes.length
decreasing_by all_goals exact drop_length_lt_cons ..

end JobQueue.Text
