import JobQueue.Codec
import JobQueue.Lock

/-! # Clients

A client puts jobs into queues and takes locks until it is ended. It looks at its arguments in a fixed
order before anything is asked of the store; that it has been ended is found last. A client that checks
its connection asks for a sign of life before each operation.
-/

namespace JobQueue

/-- An argument that no client accepts. -/
inductive ClientArgument where
  | emptyQueue
  | noJob
  | pastReadyTime (instant : Instant)
  | pastFirstFire (instant : Instant)
  | zeroFrequency
deriving DecidableEq, Repr

def ClientArgument.message : ClientArgument → String
  | emptyQueue => "queue name must not be empty"
  | noJob => "job is required"
  | pastReadyTime instant => "ready time " ++ DateFormat.canonical instant ++ " is not in the future"
  | pastFirstFire instant => "first fire time " ++ DateFormat.canonical instant ++ " is not in the future"
  | zeroFrequency => "recurring frequency must be at least one millisecond"

/-- Why an operation of a client fails. -/
inductive ClientError where
  | argument (cause : ClientArgument)
  /-- The job names no class. -/
  | invalidJob (job : Job)
  | closed
  | queue (cause : QueueError)
deriving Repr

namespace ClientError

def kind : ClientError → ErrorKind
  | argument _ => .argument
  | invalidJob _ | closed => .state
  | queue cause => cause.kind

def isRetryable (error : ClientError) : Bool := error.kind.isRetryable

def message : ClientError → String
  | argument cause => "Invalid argument: " ++ cause.message
  | invalidJob job => "Invalid job: job class name is empty: " ++ job.shown
  | closed => "Client has been ended"
  | queue cause => cause.message

end ClientError

/-- A client of one keyspace. -/
structure Client where
  space : Keyspace
  checkConnection : Bool := false
  closed : Bool := false
deriving DecidableEq, Repr

namespace Client

/-- Ends the client, for good. -/
def close (client : Client) : Client := { client with closed := true }

/-- Milliseconds of a count of seconds and nanoseconds, as far as 64 bits reach. -/
def frequencyMillis (seconds nanos : Nat) : Nat := min (seconds * 1000 + nanos / 1000000) (UInt64.size - 1)

def demand (holds : Bool) (cause : ClientArgument) : Except ClientError Unit :=
  if holds then .ok () else .error (.argument cause)

/-- The payload of a job that names a class. -/
def encode (job : Job) : Except ClientError String :=
  if job.isValid then .ok (Codec.encodeJob job) else .error (.invalidJob job)

/-- The payload of a job for a queue. -/
def payload (queue : String) (job? : Option Job) : Except ClientError String :=
  match demand (queue != "") .emptyQueue, job? with
  | .error error, _ => .error error
  | .ok (), none => .error (.argument .noJob)
  | .ok (), some job => encode job

/-- The payloads of jobs, up to the first that names no class. -/
def encodeAll : List Job → Except ClientError (List String)
  | [] => .ok []
  | job :: rest => match encode job with
    | .error error => .error error
    | .ok payload => match encodeAll rest with
      | .error error => .error error
      | .ok payloads => .ok (payload :: payloads)

/-- Runs an operation of the store, if the client has not been ended and the store answers. -/
def ready {α : Type} (client : Client) (operation : Task QueueError α) : Task ClientError α :=
  if client.closed then .fail .closed
  else (if client.checkConnection then Queue.ping.bind fun _ => operation else operation).mapError .queue

/-- Puts a job at the end of a simple queue. -/
def enqueue (client : Client) (queue : String) (job? : Option Job) : Task ClientError Unit := do
  let payload ← Task.ofExcept (payload queue job?)
  client.ready (Queue.enqueue client.space queue payload)

/-- Puts a job at the head of a simple queue. -/
def enqueueFirst (client : Client) (queue : String) (job? : Option Job) : Task ClientError Unit := do
  let payload ← Task.ofExcept (payload queue job?)
  client.ready (Queue.enqueueFirst client.space queue payload)

/-- Puts jobs at the end of a simple queue, all at once. No jobs are no reason to ask the store. -/
def enqueueAll (client : Client) (queue : String) (jobs : List Job) : Task ClientError Unit := do
  Task.ofExcept (demand (queue != "") .emptyQueue)
  let payloads ← Task.ofExcept (encodeAll jobs)
  if payloads.isEmpty then .done () else client.ready (Queue.enqueueAll client.space queue payloads)

/-- Schedules a job to be ready at a time after now. -/
def enqueueDelayed (client : Client) (now : Instant) (queue : String) (job? : Option Job)
    (readyAt : Instant) : Task ClientError Unit := do
  let payload ← Task.ofExcept (payload queue job?)
  Task.ofExcept (demand (now.before readyAt) (.pastReadyTime readyAt))
  client.ready (Queue.enqueueDelayed client.space queue payload readyAt.epochMillis)

/-- Takes a scheduled job out, if it is there. -/
def removeDelayed (client : Client) (queue : String) (job? : Option Job) : Task ClientError Unit := do
  let payload ← Task.ofExcept (payload queue job?)
  client.ready (Queue.removeDelayed client.space queue payload)

/-- Schedules a job to fire at a time after now, and again at a distance of `frequency` milliseconds. -/
def enqueueRecurring (client : Client) (now : Instant) (queue : String) (job? : Option Job)
    (firstFire : Instant) (frequency : Nat) : Task ClientError Unit := do
  let payload ← Task.ofExcept (payload queue job?)
  Task.ofExcept (demand (now.before firstFire) (.pastFirstFire firstFire))
  Task.ofExcept (demand (frequency != 0) .zeroFrequency)
  client.ready (Queue.enqueueRecurring client.space queue payload firstFire.epochMillis frequency)

/-- Stops a recurring job. -/
def removeRecurring (client : Client) (queue : String) (job? : Option Job) : Task ClientError Unit := do
  let payload ← Task.ofExcept (payload queue job?)
  client.ready (Queue.removeRecurring client.space queue payload)

/-- Takes or extends a lock. -/
def acquireLock (client : Client) (lock holder : String) (seconds : Nat) : Task ClientError Bool :=
  client.ready (Lock.acquire client.space lock holder seconds)

/-- Releases a lock. -/
def releaseLock (client : Client) (lock holder : String) : Task ClientError Bool :=
  client.ready (Lock.release client.space lock holder)

end Client

end JobQueue
