import JobQueue.Config
import JobQueue.Json.Lenient
import JobQueue.Json.Write

/-! # Configuration as JSON

Every setting is written, in a fixed order. Settings are read leniently: what is missing has its default
and what is unknown is skipped.
-/

namespace JobQueue

open Json

namespace ServerConfig

def fields : List (Setting ServerConfig) := [
  .of "url" (string "a string") fun url config => { config with url },
  .of "database" (natural "u32" UInt32.size) fun database config => { config with database },
  .of "password" (optional (string "a string")) fun password config => { config with password },
  .of "connect_timeout_secs" (natural "u64" UInt64.size)
    fun connectTimeout config => { config with connectTimeout }]

def reader : Reader ServerConfig := Setting.settings "struct RedisConfig" fields {}

def write (config : ServerConfig) : List Char :=
  writeObject [("url", writeString config.url), ("database", Text.integer config.database),
    ("password", (config.password.map writeString).getD writeNull),
    ("connect_timeout_secs", Text.integer config.connectTimeout)]

end ServerConfig

namespace LogConfig

def fields : List (Setting LogConfig) := [
  .of "log_level" (string "a string") fun level config => { config with level },
  .of "json_logging" (bool "a boolean") fun json config => { config with json }]

def reader : Reader LogConfig := Setting.settings "struct TelemetryConfig" fields {}

def write (config : LogConfig) : List Char :=
  writeObject [("log_level", writeString config.level), ("json_logging", writeBool config.json)]

end LogConfig

namespace Config

def fields : List (Setting Config) := [
  .of "redis" ServerConfig.reader fun server config => { config with server },
  .of "namespace" (string "a string") fun keyspace config => { config with keyspace },
  .of "admin_channel" (string "a string") fun adminChannel config => { config with adminChannel },
  .of "check_connection" (bool "a boolean") fun checkConnection config => { config with checkConnection },
  .of "telemetry" LogConfig.reader fun log config => { config with log }]

def reader : Reader Config := Setting.settings "struct ResqueConfig" fields {}

/-- Reads all settings from a text. -/
def ofJson (text : String) : Except Fault Config := readAll reader text.toList

/-- Writes all settings. -/
def toJson (config : Config) : String :=
  String.ofList (writeObject [("redis", config.server.write), ("namespace", writeString config.keyspace),
    ("admin_channel", writeString config.adminChannel),
    ("check_connection", writeBool config.checkConnection), ("telemetry", config.log.write)])

end Config

end JobQueue
