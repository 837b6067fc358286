import JobQueue.Client
import JobQueue.Server.Address
import JobQueue.Server.Dialogue

/-! # Connecting

A connection needs an address, a server that can be reached in time, and a login that the server accepts.
A client looks at its configuration before it connects.
-/

namespace JobQueue

/-- Why there is no connection. -/
inductive DialError where
  | address (fault : AddressFault)
  /-- The network says why the server cannot be reached. -/
  | network (reason : String)
  | timedOut (seconds : Nat) (url : String)
  | loginRefused
  | databaseRefused
deriving DecidableEq, Repr

namespace DialError

def kind (_ : DialError) : ErrorKind := .transport

def message : DialError → String
  | address fault => "Redis error: " ++ fault.message ++ "- InvalidClientConfig"
  | network reason => "Redis error: " ++ reason
  | timedOut seconds url =>
    "Connection error: timed out after " ++ toString seconds ++ "s connecting to " ++ url
  | loginRefused => "Redis error: Password authentication failed- AuthenticationFailed"
  | databaseRefused => "Redis error: Redis server refused to switch database- ResponseError"

end DialError

/-- Why an endpoint cannot be reached, if it cannot. -/
abbrev Network := Endpoint → Option String

/-- The address of a server that can be reached. No time is no time for anyone. -/
def ServerConfig.reach (config : ServerConfig) (network : Network) : Except DialError Address :=
  match Address.ofUrl config.connectionUrl with
  | .error fault => .error (.address fault)
  | .ok address =>
    if config.connectTimeout = 0 then .error (.timedOut config.connectTimeout config.url)
    else match network address.endpoint with
      | some reason => .error (.network reason)
      | none => .ok address

namespace Address

/-- Chooses the database, unless it is the first. -/
def choose (address : Address) : Dialogue DialError Unit :=
  if address.database = 0 then .done (.ok ())
  else .send ["SELECT", toString address.database] fun
    | .ok reply => .done (if reply.isOk then .ok () else .error .databaseRefused)
    | .error _ => .done (.error .databaseRefused)

/-- Whether a server of an older kind complains that it knows passwords only. -/
def isOldLogin : ServerError → Bool
  | .signalled _ (some detail) =>
    (detail.splitOn "wrong number of arguments for 'auth' command").length != 1
  | _ => false

/-- Logs in with a password, and chooses the database. -/
def logIn (address : Address) : Dialogue DialError Unit :=
  match address.password with
  | none => address.choose
  | some password => .send ("AUTH" :: (address.user.toList ++ [password])) fun
    | .ok reply => if reply.isOk then address.choose else .done (.error .loginRefused)
    | .error error =>
      if isOldLogin error then .send ["AUTH", password] fun
        | .ok reply => if reply.isOk then address.choose else .done (.error .loginRefused)
        | .error _ => .done (.error .loginRefused)
      else .done (.error .loginRefused)

end Address

/-- Why a client does not connect. -/
inductive ConnectError where
  | config (fault : ConfigFault)
  | dial (cause : DialError)
deriving DecidableEq, Repr

namespace ConnectError

def kind : ConnectError → ErrorKind
  | config _ => .configuration
  | dial cause => cause.kind

def isRetryable (error : ConnectError) : Bool := error.kind.isRetryable

def message : ConnectError → String
  | config fault => "Configuration error: " ++ fault.message
  | dial cause => cause.message

end ConnectError

/-- The client that a configuration asks for, and the address of its server. -/
def Client.connect (config : Config) (network : Network) : Except ConnectError (Client × Address) :=
  match config.fault? with
  | some fault => .error (.config fault)
  | none => match config.server.reach network with
    | .error cause => .error (.dial cause)
    | .ok address => .ok ({ space := ⟨config.keyspace⟩, checkConnection := config.checkConnection }, address)

end JobQueue
