import JobQueue.Text.Digits
import JobQueue.Text.Quoted

/-! # Replies of a server

A server answers a command with a reply, or signals an error. A reply is read as a text, a number or a
truth value; what does not fit is refused with a reason and a description of the reply.
-/

namespace JobQueue

/-- A reply of a server. -/
inductive Reply where
  | nil
  | int (number : Int)
  | bulk (text : String)
  | array (items : List Reply)
  | status (text : String)
deriving Repr

namespace Reply

mutual

/-- A reply as it is described in an error. -/
def shown : Reply → String
  | nil => "nil"
  | int number => "int(" ++ String.ofList (Text.integer number) ++ ")"
  | bulk text => "string-data('" ++ Text.quoted text ++ "')"
  | array items => "bulk(" ++ shownItems items ++ ")"
  | status text => if text = "OK" then "ok" else "status(" ++ Text.quoted text ++ ")"

/-- Replies with commas between them. -/
def shownItems : List Reply → String
  | [] => ""
  | [item] => shown item
  | item :: rest => shown item ++ ", " ++ shownItems rest

end

/-- Whether a reply is the status that all went well. -/
def isOk : Reply → Bool
  | status text => text = "OK"
  | _ => false

end Reply

/-- Why a reply does not fit. -/
inductive Misfit where
  | noText
  | noNumber
  | textNoNumber
  | noFlag
  | statusNoFlag
deriving DecidableEq, Repr

def Misfit.message : Misfit → String
  | noText => "Response type not string compatible."
  | noNumber => "Response type not convertible to numeric."
  | textNoNumber => "Could not convert from string."
  | noFlag => "Response type not bool compatible."
  | statusNoFlag => "Response status not valid boolean"

/-- Why a command fails. -/
inductive ServerError where
  /-- The server signals an error, by a code and a text. -/
  | signalled (code : String) (detail : Option String)
  /-- The reply, as it is described, is not what the command is answered with. -/
  | unfit (reason : Misfit) (found : String)
  /-- A transaction is answered with something that is no list of replies. -/
  | noTransaction
deriving DecidableEq, Repr

namespace ServerError

/-- The kind of the codes that are known. -/
def codeKind? (code : String) : Option String :=
  [("ERR", "ResponseError"), ("EXECABORT", "ExecAbortError"), ("LOADING", "BusyLoadingError"),
    ("NOSCRIPT", "NoScriptError"), ("READONLY", "ReadOnly")].lookup code

/-- An error as the server writes it: a code, a space and a text. -/
def ofLine (line : String) : ServerError :=
  let text := line.toList
  let code := text.takeWhile (· != ' ')
  match text.dropWhile (· != ' ') with
  | [] => .signalled (String.ofList code) none
  | _ :: detail => .signalled (String.ofList code) (some (String.ofList detail))

def message : ServerError → String
  | signalled code detail => match codeKind? code, detail with
    | some kind, some detail => "An error was signalled by the server - " ++ kind ++ ": " ++ detail
    | some kind, none => "An error was signalled by the server- " ++ kind
    | none, some detail => code ++ ": " ++ detail
    | none, none => code ++ ": Unknown extension error encountered"
  | unfit reason found => "Response was of incompatible type - TypeError: " ++ Text.quoted reason.message ++
      " (response was " ++ found ++ ")"
  | noTransaction => "Invalid response when parsing multi response- ResponseError"

/-- Whether the server does not know the script it was asked to run. -/
def isUnknownScript : ServerError → Bool
  | signalled code _ => code = "NOSCRIPT"
  | _ => false

end ServerError

namespace Reply

/-- Refuses a reply. -/
def refuse {α : Type} (reply : Reply) (reason : Misfit) : Except ServerError α :=
  .error (.unfit reason reply.shown)

/-- A reply as a text. -/
def text : Reply → Except ServerError String
  | bulk text | status text => .ok text
  | reply => reply.refuse .noText

/-- A reply as a text, or nil as none. -/
def text? : Reply → Except ServerError (Option String)
  | nil => .ok none
  | reply => reply.text.map some

/-- A reply as a whole number of 64 bits. -/
def number : Reply → Except ServerError Int
  | int number => .ok number
  | status text =>
    if text = "OK" then refuse (status text) .noNumber
    else match Text.int64? text.toList with
      | some number => .ok number
      | none => refuse (status text) .textNoNumber
  | bulk text => match Text.int64? text.toList with
    | some number => .ok number
    | none => refuse (bulk text) .textNoNumber
  | reply => reply.refuse .noNumber

/-- A count written as text: an optional plus sign and digits. -/
def countOfText? (text : String) : Option Nat :=
  let digits := match text.toList with
    | '+' :: rest => rest
    | rest => rest
  if digits.isEmpty || !digits.all Char.isDigit then none
  else if Text.number digits < UInt64.size then some (Text.number digits)
  else none

/-- A reply as a count of 64 bits; a negative number wraps around. -/
def count : Reply → Except ServerError Nat
  | int number => .ok (number % UInt64.size).toNat
  | status text =>
    if text = "OK" then refuse (status text) .noNumber
    else match countOfText? text with
      | some count => .ok count
      | none => refuse (status text) .textNoNumber
  | bulk text => match countOfText? text with
    | some count => .ok count
    | none => refuse (bulk text) .textNoNumber
  | reply => reply.refuse .noNumber

/-- A reply as a truth value. -/
def flag : Reply → Except ServerError Bool
  | nil => .ok false
  | int number => .ok (number != 0)
  | status text =>
    if text = "OK" ∨ text = "1" then .ok true
    else if text = "0" then .ok false
    else refuse (status text) .statusNoFlag
  | bulk text =>
    if text = "1" then .ok true
    else if text = "0" then .ok false
    else refuse (bulk text) .noFlag
  | reply => reply.refuse .noFlag

end Reply

end JobQueue
