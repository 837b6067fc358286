/-! # Configuration

The settings of clients and listeners with their defaults. Settings are checked in a fixed order, and the
first that is wrong is reported.
-/

namespace JobQueue

/-- Where the server is and how to get in. -/
structure ServerConfig where
  url : String := "redis://localhost:6379"
  database : Nat := 0
  password : Option String := none
  /-- Seconds. -/
  connectTimeout : Nat := 5
deriving DecidableEq, Repr

/-- What is logged and how. -/
structure LogConfig where
  level : String := "info"
  json : Bool := false
deriving DecidableEq, Repr

/-- All settings. -/
structure Config where
  server : ServerConfig := {}
  /-- The name that all keys begin with. -/
  keyspace : String := "resque"
  adminChannel : String := "admin"
  /-- Whether clients ask for a sign of life before each operation. -/
  checkConnection : Bool := false
  log : LogConfig := {}
deriving DecidableEq, Repr

/-- What is wrong with settings. -/
inductive ConfigFault where
  | emptyKeyspace
  | emptyAdminChannel
  | missingUrl
  | urlScheme (url : String)
  | zeroTimeout
  | logLevel (level : String)
deriving DecidableEq, Repr

namespace Config

/-- For development: connections are checked and more is logged. -/
def development : Config := { checkConnection := true, log := { level := "debug" } }

def logLevels : List String := ["trace", "debug", "info", "warn", "error"]

/-- The first fault. -/
def fault? (config : Config) : Option ConfigFault :=
  let url := config.server.url
  if config.keyspace = "" then some .emptyKeyspace
  else if config.adminChannel = "" then some .emptyAdminChannel
  else if url = "" then some .missingUrl
  else if !("redis://".toList.isPrefixOf url.toList || "rediss://".toList.isPrefixOf url.toList) then
    some (.urlScheme url)
  else if config.server.connectTimeout = 0 then some .zeroTimeout
  else if config.log.level ∉ logLevels then some (.logLevel config.log.level)
  else none

/-- The time to connect in milliseconds. -/
def timeoutMillis (config : Config) : Nat := config.server.connectTimeout * 1000

end Config

/-- The wording of a fault. -/
def ConfigFault.message : ConfigFault → String
  | emptyKeyspace => "Namespace must not be empty"
  | emptyAdminChannel => "Admin channel must not be empty"
  | missingUrl => "Redis URL is required"
  | urlScheme url => "Redis URL '" ++ url ++ "' must start with redis:// or rediss://"
  | zeroTimeout => "Redis connect timeout must be greater than 0"
  | logLevel level => "Invalid log level '" ++ level ++ "'. Must be one of: " ++
      ", ".intercalate Config.logLevels

end JobQueue
