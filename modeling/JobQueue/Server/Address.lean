import JobQueue.Config.ConnectionUrl
import JobQueue.Url

/-! # Addresses of servers

Where a server listens and how to log in, as a connection URL says. The path of a URL is the number of
a database, or the path of a socket.
-/

namespace JobQueue

/-- Where a server listens. -/
inductive Endpoint where
  | tcp (host : String) (service : Nat)
  | socket (path : String)
deriving DecidableEq, Repr

/-- Where a server listens and how to log in. -/
structure Address where
  endpoint : Endpoint
  user : Option String := none
  password : Option String := none
  database : Int := 0
deriving DecidableEq, Repr

/-- Why a URL is no address. -/
inductive AddressFault where
  | unreadable
  | missingHost
  | missingPath
  | encryption
  | database
  | user
  | password
deriving DecidableEq, Repr

namespace AddressFault

def message : AddressFault → String
  | unreadable => "Redis URL did not parse"
  | missingHost => "Missing hostname"
  | missingPath => "Missing path"
  | encryption => "can't connect with TLS, the feature is not enabled"
  | database => "Invalid database number"
  | user => "Username is not valid UTF-8 string"
  | password => "Password is not valid UTF-8 string"

end AddressFault

namespace Address

/-- The service that is meant if none is written. -/
def usualService : Nat := 6379

/-- The text of a path, its dots resolved, without the slashes at its ends. -/
def pathText (path : List Char) : List Char :=
  let joined := ['/'].intercalate (Url.resolve (path.splitOn '/'))
  ((joined.dropWhile (· = '/')).reverse.dropWhile (· = '/')).reverse

/-- The number of a database; it is the first, if none is written. -/
def database? (text? : Option (List Char)) : Except AddressFault Int :=
  match text? with
  | none => .ok 0
  | some text => match Text.int64? text with
    | some number => .ok number
    | none => .error .database

/-- A name or password, if there is one. -/
def login? (fault : AddressFault) (text : List Char) : Except AddressFault (Option String) :=
  if text.isEmpty then .ok none
  else match Url.decode? text with
    | some decoded => .ok (some decoded)
    | none => .error fault

/-- The address of a server on a host. -/
def ofHost? (encrypted : Bool) (authority : Url.Authority) (tail : Url.Tail) :
    Except AddressFault Address := do
  if authority.host = "" then .error .missingHost
  else if encrypted then .error .encryption
  else
    let text := pathText tail.path
    let database ← database? (if text.isEmpty then none else some text)
    let user ← login? .user authority.user
    let password ← login? .password authority.password
    return { endpoint := .tcp authority.host (authority.service.getD usualService), user, password, database }

/-- The address of a server that listens on a socket of this host. -/
def ofSocket? (host : String) (tail : Url.Tail) : Except AddressFault Address := do
  if (host = "" ∨ host = "localhost") ∧ tail.path.head? = some '/' then
    let database ← database? ((tail.parameter? "db").map String.toList)
    return {
      endpoint := .socket ((Url.decode? tail.path).getD (String.ofList tail.path))
      user := tail.parameter? "user"
      password := tail.parameter? "pass"
      database }
  else .error .missingPath

/-- The address that a URL says. -/
def ofUrl (url : String) : Except AddressFault Address :=
  match Url.scheme? (Url.clean url.toList) with
  | none => .error .unreadable
  | some (scheme, rest) =>
    let isHost := scheme = "redis" || scheme = "rediss"
    let isSocket := scheme = "unix" || scheme = "redis+unix"
    let found (authority : Url.Authority) (rest : List Char) : Except AddressFault Address :=
      let tail := Url.Tail.ofText rest
      if isHost then ofHost? (scheme = "rediss") authority tail else ofSocket? authority.host tail
    if !isHost && !isSocket then .error .unreadable
    else match rest with
      | '/' :: '/' :: rest =>
        let isEnd (c : Char) : Bool := c = '/' || c = '?' || c = '#'
        let server := rest.takeWhile fun c => !isEnd c
        let behind := rest.dropWhile fun c => !isEnd c
        match Url.Authority.ofText? server behind.isEmpty with
        | some (authority, more) => found authority (more ++ behind)
        | none => .error .unreadable
      | rest => found ⟨"", none, [], []⟩ rest

end Address

end JobQueue
