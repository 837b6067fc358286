import JobQueue.Config
import JobQueue.Url

/-! # Connection URLs

The password and the number of the database are folded into the URL, unless it has its own. A URL is its
scheme, the part up to the next slash, which names the server, and a path.
-/

namespace JobQueue

namespace ServerConfig

/-- The server, with the password in front if no name or password is there. -/
def authority (config : ServerConfig) (server : List Char) : List Char :=
  match config.password with
  | some password => if '@' ∈ server then server else ':' :: (password.toList ++ '@' :: server)
  | none => server

/-- The path, or the number of the database if it has no path and is not the first. -/
def path (config : ServerConfig) (path : List Char) : List Char :=
  if path.isEmpty && config.database != 0 then Text.integer config.database else path

/-- The URL by which the server is reached. What begins with no scheme has the usual one. -/
def connectionUrl (config : ServerConfig) : String :=
  let (scheme, rest) := (Url.splitScheme? config.url.toList).getD ("redis".toList, config.url.toList)
  let (server, tail?) := Url.cut (· = '/') rest
  let path := config.path (tail?.getD [])
  let begun := scheme ++ "://".toList ++ config.authority server
  String.ofList (if path.isEmpty then begun else begun ++ '/' :: path)

end ServerConfig

end JobQueue
