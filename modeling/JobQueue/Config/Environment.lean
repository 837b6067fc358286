import JobQueue.Config
import JobQueue.Config.SettingTree

/-! # Configuration from environment variables

A variable whose name begins with `RESQUE__`, in any case, is a setting. Two underscores separate the
parts of its path, and an index in brackets behind a part means a place in a row: `RESQUE__REDIS[1]` is the
second of the server settings.
-/

namespace JobQueue

namespace Environment

/-- A name in small letters, as far as that concerns the names of settings. -/
def lowerName (name : List Char) : List Char :=
  name.map fun c => if c = '\u212a' then 'k' else c.toLower

/-- The rest of a text behind a word. -/
def behind? : List Char → List Char → Option (List Char)
  | [], text => some text
  | letter :: letters, c :: text => if c = letter then behind? letters text else none
  | _ :: _, [] => none

/-- Two underscores become a separator, from left to right. -/
def separate : List Char → List Char
  | '_' :: '_' :: rest => '.' :: separate rest
  | c :: rest => c :: separate rest
  | [] => []

/-- Whether a text is a name: letters, digits, blanks, underscores and dashes. -/
def isName (text : List Char) : Bool :=
  !text.isEmpty && text.all fun c => c.isAlphanum || c = ' ' || c = '_' || c = '-'

/-- The index that stands between an opening bracket and the closing one at the end. -/
def index? (text : List Char) : Option Int :=
  let isBlank (c : Char) : Bool := c = ' ' || c = '\t'
  let inner := ((text.dropLast.dropWhile isBlank).reverse.dropWhile isBlank).reverse
  if text.getLast? = some ']' && inner.head? != some '+' then Text.int64? inner else none

/-- The steps of a part of a path: a name and the indices behind it. -/
def steps? (part : List Char) : Option (List SettingStep) :=
  match part.splitOn '[' with
  | [] => none
  | name :: indices =>
    if isName name then
      (indices.mapM index?).map fun indices => .name (String.ofList name) :: indices.map .place
    else none

/-- The path of a variable, if it is a setting. -/
def path? (name : String) : Option (List SettingStep) := do
  let rest ← behind? "resque__".toList (lowerName name.toList)
  let parts ← ((separate rest).splitOn '.').mapM steps?
  return parts.flatten

/-- The settings among some variables. Of two for one setting the later counts. -/
def settings (bindings : List (String × String)) : SettingTree :=
  bindings.foldl (fun tree (name, value) => match path? name with
    | some path => tree.insert (Scalar.ofText value) path
    | none => tree) (.branch [])

/-- What is wrong with the variables. -/
inductive Fault where
  /-- A value is not what its setting needs. -/
  | unreadable
  | config (fault : ConfigFault)
deriving DecidableEq, Repr

def Fault.message : Fault → String
  | unreadable => "Failed to deserialize configuration"
  | config fault => fault.message

/-- The server settings of a group. -/
def server? (tree : SettingTree) : Option ServerConfig := do
  let found ← tree.group?
  let default : ServerConfig := {}
  let url ← readSetting (found "url" 0) SettingTree.text? default.url
  let database ← readSetting (found "database" 1) (SettingTree.natural? UInt32.size) default.database
  let password ← readSetting (found "password" 2) SettingTree.optionalText? default.password
  let connectTimeout ← readSetting (found "connect_timeout_secs" 3) (SettingTree.natural? UInt64.size)
    default.connectTimeout
  return { url, database, password, connectTimeout }

/-- The log settings of a group. -/
def log? (tree : SettingTree) : Option LogConfig := do
  let found ← tree.group?
  let default : LogConfig := {}
  let level ← readSetting (found "log_level" 0) SettingTree.text? default.level
  let json ← readSetting (found "json_logging" 1) SettingTree.flag? default.json
  return { level, json }

/-- All settings of a group. -/
def config? (tree : SettingTree) : Option Config := do
  let found ← tree.group?
  let default : Config := {}
  let server ← readSetting (found "redis" 0) server? default.server
  let keyspace ← readSetting (found "namespace" 1) SettingTree.text? default.keyspace
  let adminChannel ← readSetting (found "admin_channel" 2) SettingTree.text? default.adminChannel
  let checkConnection ← readSetting (found "check_connection" 3) SettingTree.flag? default.checkConnection
  let log ← readSetting (found "telemetry" 4) log? default.log
  return { server, keyspace, adminChannel, checkConnection, log }

/-- The configuration that some variables make, if nothing is wrong with it. -/
def load (bindings : List (String × String)) : Except Fault Config :=
  match config? (settings bindings) with
  | none => .error .unreadable
  | some config => match config.fault? with
    | some fault => .error (.config fault)
    | none => .ok config

end Environment

end JobQueue
