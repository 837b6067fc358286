import JobQueue.AdminCommand

/-! # Workers

A worker as its commands see it: it can be paused and resumed, and it can be stopped. It keeps a record
of what it was told.
-/

namespace JobQueue

/-- What a worker was told. -/
inductive WorkerEvent where
  | pause (paused : Bool)
  | stop (now : Bool)
deriving DecidableEq, Repr

/-- A worker and its record, the first event first. -/
structure Worker where
  name : String
  paused : Bool := false
  stopped : Bool := false
  events : List WorkerEvent := []
deriving DecidableEq, Repr

namespace Worker

/-- Does what a command says, and records it. -/
def obey (worker : Worker) : AdminCommand → Worker
  | .pause paused => { worker with paused, events := worker.events ++ [.pause paused] }
  | .shutdown now => { worker with stopped := true, events := worker.events ++ [.stop now] }

end Worker

end JobQueue
