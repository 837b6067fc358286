import JobQueue.Keyspace
import JobQueue.Task
import JobQueue.Text.Digits

/-! # Queues

A queue is simple, a list of payloads; delayed, a sorted set of payloads by time of readiness; or
recurring, a delayed queue with the frequencies of its payloads at a companion key. Its kind follows from
the types of its keys, which every write looks at first. A write is one transaction, which also enters
the queue into the set of queue names; so a queue that has run empty is free to take any kind.
-/

namespace JobQueue

/-- The types found at the keys of a queue. -/
inductive FoundTypes where
  | alone (queue : KeyType)
  | withCompanion (queue companion : KeyType)
deriving DecidableEq, Repr

def FoundTypes.shown : FoundTypes → String
  | alone queue => queue.name
  | withCompanion queue companion => queue.name ++ " with companion " ++ companion.name

/-- An argument that no queue, lock or channel accepts. -/
inductive BadArgument where
  | emptyQueue
  | zeroFrequency
  | emptyLock
  | emptyHolder
  | zeroLifetime
  | emptyChannel
deriving DecidableEq, Repr

def BadArgument.message : BadArgument → String
  | emptyQueue => "queue must not be empty"
  | zeroFrequency => "frequency must be at least 1 ms"
  | emptyLock => "lock name must not be empty"
  | emptyHolder => "lock holder must not be empty"
  | zeroLifetime => "lock ttl must be at least 1 second"
  | emptyChannel => "channel must not be empty"

/-- Why an operation on a queue, a lock or a channel fails. -/
inductive QueueError where
  | argument (cause : BadArgument)
  /-- The queue is of another kind. -/
  | wrongKind (queue : String) (expected : QueueKind) (found : FoundTypes)
  | store (cause : StoreError)
deriving DecidableEq, Repr

namespace QueueError

def kind : QueueError → ErrorKind
  | argument _ => .argument
  | wrongKind .. => .state
  | store cause => cause.kind

def message : QueueError → String
  | argument cause => "Invalid argument: " ++ cause.message
  | wrongKind queue expected found => "Queue '" ++ queue ++ "' cannot be used as a " ++ expected.name ++
      " queue: found " ++ found.shown
  | store cause => cause.message

end QueueError

namespace Queue

/-- Asks one request. -/
def ask (request : Request) : Task QueueError request.Reply := (Task.ask request).mapError .store

/-- Demands something of the arguments before anything is asked. -/
def demand (holds : Bool) (cause : BadArgument) : Task QueueError Unit :=
  if holds then .done () else .fail (.argument cause)

def demandName (queue : String) : Task QueueError Unit := demand (queue != "") .emptyQueue

/-- A simple queue is a list or nothing. -/
def requireSimple (space : Keyspace) (queue : String) : Task QueueError Unit := do
  let found ← ask (.keyType (space.queue queue))
  if found = .absent ∨ found = .list then .done () else .fail (.wrongKind queue .simple (.alone found))

/-- A delayed queue is a sorted set or nothing. -/
def requireDelayed (space : Keyspace) (queue : String) : Task QueueError Unit := do
  let found ← ask (.keyType (space.queue queue))
  if found = .absent ∨ found = .sortedSet then .done () else .fail (.wrongKind queue .delayed (.alone found))

/-- A recurring queue is a sorted set with a hash, or nothing at all. -/
def requireRecurring (space : Keyspace) (queue : String) : Task QueueError Unit := do
  let found ← ask (.keyType (space.queue queue))
  let companion ← ask (.keyType (space.recurring queue))
  if (found = .absent ∧ companion = .absent) ∨ (found = .sortedSet ∧ companion = .hash) then .done ()
  else .fail (.wrongKind queue .recurring (.withCompanion found companion))

/-- Writes that enter the queue into the set of queue names first. -/
def registering (space : Keyspace) (queue : String) (writes : List Write) : List Write :=
  .addMember space.queues queue :: writes

/-- Makes all of some writes or none. -/
def commit (writes : List Write) : Task QueueError Unit := ask (.transaction writes)

/-- Puts a payload at the end of a simple queue. -/
def enqueue (space : Keyspace) (queue payload : String) : Task QueueError Unit := do
  demandName queue
  requireSimple space queue
  commit (registering space queue [.append (space.queue queue) payload])

/-- Puts a payload at the head of a simple queue. -/
def enqueueFirst (space : Keyspace) (queue payload : String) : Task QueueError Unit := do
  demandName queue
  requireSimple space queue
  commit (registering space queue [.prepend (space.queue queue) payload])

/-- Puts payloads at the end of a simple queue, all at once. No payloads leave the store alone. -/
def enqueueAll (space : Keyspace) (queue : String) (payloads : List String) : Task QueueError Unit := do
  demandName queue
  if payloads.isEmpty then .done ()
  else do
    requireSimple space queue
    commit (registering space queue (payloads.map (.append (space.queue queue))))

/-- Schedules a payload to be ready at a time. -/
def enqueueDelayed (space : Keyspace) (queue payload : String) (readyAt : Int) : Task QueueError Unit := do
  demandName queue
  requireDelayed space queue
  commit (registering space queue [.schedule (space.queue queue) (Binary64.ofInt readyAt) payload])

/-- Takes a scheduled payload out, if it is there. -/
def removeDelayed (space : Keyspace) (queue payload : String) : Task QueueError Unit := do
  demandName queue
  requireDelayed space queue
  commit [.unschedule (space.queue queue) payload]

/-- Schedules a payload to fire at a time and again at a distance of `frequency` milliseconds. -/
def enqueueRecurring (space : Keyspace) (queue payload : String) (nextFire : Int) (frequency : Nat) :
    Task QueueError Unit := do
  demandName queue
  demand (frequency != 0) .zeroFrequency
  requireRecurring space queue
  commit (registering space queue [
    .schedule (space.queue queue) (Binary64.ofInt nextFire) payload,
    .setField (space.recurring queue) payload (String.ofList (Text.integer frequency))])

/-- Stops a recurring payload. -/
def removeRecurring (space : Keyspace) (queue payload : String) : Task QueueError Unit := do
  demandName queue
  requireRecurring space queue
  commit [.dropField (space.recurring queue) payload, .unschedule (space.queue queue) payload]

/-- The way between a queue and the jobs that a worker has in flight. -/
def route (space : Keyspace) (worker queue : String) : Route where
  queue := space.queue queue
  recurring := space.recurring queue
  inflight := space.inflight worker queue

/-- Moves a payload that is ready into flight. -/
def dequeue (space : Keyspace) (worker queue : String) (now : Int) : Task QueueError (Option String) := do
  demandName queue
  ask (.popToInflight (route space worker queue) now)

/-- Forgets the latest payload in flight, once its job is done. -/
def removeInflight (space : Keyspace) (worker queue : String) : Task QueueError (Option String) :=
  ask (.popInflight (space.inflight worker queue))

/-- Brings the latest payload in flight back to its queue. -/
def restoreInflight (space : Keyspace) (worker queue : String) (now : Int) :
    Task QueueError (Option String) :=
  ask (.restoreInflight (route space worker queue) now)

/-- Whether the store answers. -/
def ping : Task QueueError Unit := ask .ping

/-- Sends a message on a channel, and tells how many received it. -/
def publish (channel message : String) : Task QueueError Nat := do
  demand (channel != "") .emptyChannel
  ask (.publish channel message)

end Queue

end JobQueue
