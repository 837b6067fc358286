import JobQueue.Server.Dialogue
import JobQueue.Task

/-! # Recorded servers

A server that gives the replies of a list, one to each command, whatever the command is. What was said
to it is kept. It says how conversations and programs of requests run against any server.
-/

namespace JobQueue

/-- The replies that are left, and the commands that were sent, the latest first. -/
structure Recorded where
  replies : List (Except ServerError Reply) := []
  sent : List (List String) := []

namespace Recorded

/-- The commands in the order in which they were sent. -/
def log (server : Recorded) : List (List String) := server.sent.reverse

/-- The reply to a command; a server with no replies left says nil. -/
def answer (server : Recorded) (command : List String) : Except ServerError Reply × Recorded :=
  match server.replies with
  | [] => (.ok .nil, { server with sent := command :: server.sent })
  | reply :: replies => (reply, { replies, sent := command :: server.sent })

end Recorded

/-- Holds a conversation. -/
def Dialogue.hold {ε α : Type} : Dialogue ε α → Recorded → Except ε α × Recorded
  | done answer, server => (answer, server)
  | send command next, server =>
    let (reply, server) := server.answer command
    (next reply).hold server

/-- Runs a program, a conversation for each request. Time passes unseen. -/
def Task.hold {ε α : Type} : Task ε α → Recorded → Except ε α × Recorded
  | done a, server => (.ok a, server)
  | fail error, server => (.error error, server)
  | call request next, server =>
    let (answer, server) := request.dialogue.hold server
    (next answer).hold server
  | sleep _ next, server => next.hold server

end JobQueue
