import JobQueue.Job

/-! # Admin commands

Commands are data. Which worker one acts on is decided where it runs.
-/

namespace JobQueue

/-- A command for every worker that listens. -/
inductive AdminCommand where
  /-- Stop taking jobs, or take them again. -/
  | pause (paused : Bool)
  /-- Stop for good, at once or after the job at hand. -/
  | shutdown (now : Bool)
deriving DecidableEq, Repr

namespace AdminCommand

def pauseName : String := "PauseCommand"

def shutdownName : String := "ShutdownCommand"

/-- The name a command goes by. -/
def name : AdminCommand → String
  | pause _ => pauseName
  | shutdown _ => shutdownName

/-- The one flag of a command. -/
def flag : AdminCommand → Bool
  | pause paused => paused
  | shutdown now => now

/-- The arguments of a command. -/
def args (command : AdminCommand) : List Value := [.bool command.flag]

/-- The job-shaped form in which a command travels. -/
def descriptor (command : AdminCommand) : Job := { className := command.name, args := command.args }

/-- A command as a call, for people. -/
def shown (command : AdminCommand) : String :=
  command.name ++ "(" ++ (if command.flag then "true" else "false") ++ ")"

end AdminCommand

end JobQueue
