import JobQueue.Text.Digits
import JobQueue.Text.Utf8

/-! # The parts of a URL

A URL is a scheme, an authority behind two slashes, a path, a query and a fragment. The authority is a
host, perhaps with the number of a service on it, behind an optional user and password. Tabs and line
breaks do not count, nor do blanks and control characters at either end.
-/

namespace JobQueue.Url

/-- The texts before and behind the first `://`. -/
def splitScheme? : List Char → Option (List Char × List Char)
  | ':' :: '/' :: '/' :: rest => some ([], rest)
  | c :: rest => (splitScheme? rest).map fun (scheme, rest) => (c :: scheme, rest)
  | [] => none

/-- The texts before and behind the first character of a kind; there may be none. -/
def cut (isMark : Char → Bool) (text : List Char) : List Char × Option (List Char) :=
  match text.dropWhile fun c => !isMark c with
  | [] => (text, none)
  | _ :: rest => (text.takeWhile fun c => !isMark c, some rest)

/-- The texts before and behind the last character of a kind; there may be none. -/
def cutLast (isMark : Char → Bool) (text : List Char) : Option (List Char) × List Char :=
  match cut isMark text.reverse with
  | (_, none) => (none, text)
  | (behind, some before) => (some before.reverse, behind.reverse)

/-- The text without blanks and control characters at its ends and without tabs and line breaks. -/
def clean (text : List Char) : List Char :=
  let outer (c : Char) : Bool := c ≤ ' '
  ((text.dropWhile outer).reverse.dropWhile outer).reverse.filter fun c =>
    !(c = '\t' || c = '\n' || c = '\r')

/-- The scheme in small letters and the text behind its colon. -/
def scheme? (text : List Char) : Option (String × List Char) :=
  match cut (· = ':') text with
  | (name, some rest) =>
    if (name.head?.map Char.isAlpha).getD false &&
        name.all fun c => c.isAlphanum || c = '+' || c = '-' || c = '.' then
      some (String.ofList (name.map Char.toLower), rest)
    else none
  | (_, none) => none

/-- The bytes of a text in which `%` and two digits stand for a byte. -/
def decodedBytes : List Char → List UInt8
  | '%' :: a :: b :: rest => match Text.hexDigit? a, Text.hexDigit? b with
    | some high, some low => UInt8.ofNat (high * 16 + low) :: decodedBytes rest
    | _, _ => 0x25 :: decodedBytes (a :: b :: rest)
  | c :: rest => (String.singleton c).toUTF8.toList ++ decodedBytes rest
  | [] => []

/-- The text that a percent-encoded one stands for, if its bytes make one. -/
def decode? (text : List Char) : Option String := String.fromUTF8? (decodedBytes text).toByteArray

/-- Four numbers up to 255 with points between them and without leading zeros. -/
def isIpv4 (text : List Char) : Bool :=
  let parts := text.splitOn '.'
  parts.length = 4 && parts.all fun part =>
    !part.isEmpty && part.all Char.isDigit && (part.length = 1 || part.head? != some '0') &&
      part.length ≤ 3 && Text.number part ≤ 255

/-- The pieces of an IPv6 address, of which some are read and a run of zeros may have been left out. -/
def isIpv6From (count : Nat) (compressed : Bool) (text : List Char) : Bool :=
  match text with
  | [] => compressed || count = 8
  | c :: tail =>
    if count = 8 then false
    else if c = ':' then !compressed && isIpv6From (count + 1) true tail
    else
      let digits := ((c :: tail).take 4).takeWhile fun c => (Text.hexDigit? c).isSome
      match behind : (c :: tail).drop digits.length with
      | [] => compressed || count = 7
      | mark :: rest =>
        if mark = '.' then
          !digits.isEmpty && count ≤ 6 && isIpv4 (c :: tail) && (compressed || count = 6)
        else if mark = ':' then !rest.isEmpty && isIpv6From (count + 1) compressed rest
        else false
termination_by text.length
decreasing_by
  · simp
  · have := congrArg List.length behind
    simp only [List.length_drop, List.length_cons] at this
    simp only [List.length_cons]
    omega

/-- An IPv6 address: eight pieces, one run of zeros among which may be left out. -/
def isIpv6 : List Char → Bool
  | ':' :: ':' :: rest => isIpv6From 1 true rest
  | ':' :: _ => false
  | text => 2 ≤ text.length && isIpv6From 0 false text

/-- A character that no host name has. -/
def isForbidden (c : Char) : Bool :=
  c ∈ ['\x00', '\t', '\n', '\r', ' ', '#', '/', ':', '<', '>', '?', '@', '[', '\\', ']', '^', '|']

/-- A host: an IPv6 address in brackets, or a name, which may be empty. -/
def host? (text : List Char) : Option String :=
  match text with
  | '[' :: rest =>
    let inner := rest.dropLast
    if rest.getLast? = some ']' && isIpv6 inner then some (String.ofList inner) else none
  | text => if text.any isForbidden then none else some (String.ofList text)

/-- The texts before and behind the first colon outside brackets; there may be none. -/
def cutService : Bool → List Char → List Char × Option (List Char)
  | _, [] => ([], none)
  | inside, c :: rest =>
    if c = ':' && !inside then ([], some rest)
    else
      let (host, service) := cutService (if c = '[' then true else if c = ']' then false else inside) rest
      (c :: host, service)

/-- The number of a service, which is not given if there are no digits, and the beginning of a path that a
backslash keeps from being part of it. -/
def service? (text : List Char) : Option (Option Nat × List Char) :=
  let digits := text.takeWhile (· != '\\')
  let rest := text.dropWhile (· != '\\')
  let path := if rest.isEmpty then [] else '/' :: rest
  if !digits.all Char.isDigit then none
  else if digits.isEmpty then some (none, path)
  else if Text.number digits < UInt16.size then some (some (Text.number digits), path)
  else none

/-- A host, the number of a service on it, and a user and password in front. -/
structure Authority where
  host : String
  service : Option Nat
  user : List Char
  password : List Char
deriving DecidableEq, Repr

/-- Reads what stands between two slashes and the rest of a URL, and what of it belongs to the path. A user
or a service needs a host, and so does an empty login, unless the URL ends with it. -/
def Authority.ofText? (text : List Char) (isLast : Bool) : Option (Authority × List Char) := do
  let (login?, server) := cutLast (· = '@') text
  let (user, password?) := cut (· = ':') (login?.getD [])
  let password := password?.getD []
  if login? = some [] && server.isEmpty && !isLast then none
  else
    let (name, serviceText?) := cutService false server
    let host ← host? name
    let (service, rest) ← match serviceText? with
      | none => some (none, [])
      | some serviceText => service? serviceText
    if host = "" && (serviceText?.isSome || !user.isEmpty || !password.isEmpty) then none
    else some ({ host, service, user, password }, rest)

/-- Whether a part of a path names a drive: a letter and a colon or a bar, and nothing else or a backslash. -/
def isDrive : List Char → Bool
  | letter :: mark :: rest =>
    letter.isAlpha && (mark = ':' || mark = '|') && (rest.isEmpty || rest.head? = some '\\')
  | _ => false

/-- Resolves the parts of a path that stand for itself and for the part before. There is no way out of a
drive. -/
def resolve (parts : List (List Char)) : List (List Char) :=
  let isDot (part : String) : Bool := part.toLower = "." || part.toLower = "%2e"
  let isDots (part : String) : Bool := part.toLower ∈ ["..", ".%2e", "%2e.", "%2e%2e"]
  parts.foldl (fun done part =>
    let text := String.ofList part
    if isDots text then if (done.getLast?.map isDrive).getD false then done else done.dropLast
    else if isDot text then done
    else done ++ [part]) []

/-- The path behind the authority, the query and the path's own text kept apart. -/
structure Tail where
  path : List Char
  query : List Char
deriving DecidableEq, Repr

/-- Splits a path, a query and a fragment; the fragment does not count. -/
def Tail.ofText (text : List Char) : Tail :=
  let (text, _) := cut (· = '#') text
  let (path, query?) := cut (· = '?') text
  ⟨path, query?.getD []⟩

/-- What a query binds a name to, the last of several. A plus sign stands for a blank. -/
def Tail.parameter? (tail : Tail) (name : String) : Option String :=
  let plain (text : List Char) : String :=
    String.ofList (Text.ofBytes (decodedBytes (text.map fun c => if c = '+' then ' ' else c)))
  (tail.query.splitOn '&').reverse.findSome? fun part =>
    let (key, value?) := cut (· = '=') part
    if plain key = name then some (plain (value?.getD [])) else none

end JobQueue.Url
