import JobQueue.Queue

/-! # Locks

A lock is a string, the name of its holder, with a time to live. It is created and then given its time
to live; a holder that stops between the two leaves a lock that would never expire. Such a lock is given
a grace period to receive one, and is then taken over. To be refused is an answer and not an error.
-/

namespace JobQueue.Lock

open Queue (ask demand)

/-- How long a lock without a time to live is waited for, in milliseconds. -/
def gracePeriod : Nat := 2000

/-- Locks and holders have names. -/
def demandNames (lock holder : String) : Task QueueError Unit := do
  demand (lock != "") .emptyLock
  demand (holder != "") .emptyHolder

/-- Whether the lock is in the name of a holder. -/
def holds (key holder : String) : Task QueueError Bool := do
  let value? ← ask (.get key)
  return value? = some holder

/-- Gives the lock its time to live, and looks whose it is. -/
def extend (key holder : String) (seconds : Nat) : Task QueueError Bool := do
  if ← ask (.expire key seconds) then holds key holder else return false

/-- Creates the lock, unless there is one. -/
def create (key holder : String) (seconds : Nat) : Task QueueError Bool := do
  if ← ask (.setIfAbsent key holder) then extend key holder seconds else return false

/-- Takes over a lock that received no time to live, and then creates it. -/
def reclaim (key holder : String) (seconds : Nat) : Task QueueError Bool := do
  match ← ask (.get key) with
  | some current =>
    if current = holder then do
      if ← extend key holder seconds then return true else create key holder seconds
    else do
      let _ ← ask (.compareAndDelete key current)
      create key holder seconds
  | none => create key holder seconds

/-- Creates the lock; one that is there and will not expire is first given the grace period. -/
def contend (key holder : String) (seconds : Nat) : Task QueueError Bool := do
  match ← ask (.timeToLive key) with
  | .persistent =>
    Task.wait gracePeriod
    match ← ask (.timeToLive key) with
    | .persistent => reclaim key holder seconds
    | .expires _ => return false
    | .missing => create key holder seconds
  | _ => create key holder seconds

/-- Takes a lock for a holder and some seconds, or extends it if it is the holder's already. -/
def acquire (space : Keyspace) (lock holder : String) (seconds : Nat) : Task QueueError Bool := do
  demandNames lock holder
  demand (seconds != 0) .zeroLifetime
  let key := space.lock lock
  if ← holds key holder then
    if ← extend key holder seconds then return true else contend key holder seconds
  else contend key holder seconds

/-- Releases a lock, if it is the holder's. -/
def release (space : Keyspace) (lock holder : String) : Task QueueError Bool := do
  demandNames lock holder
  ask (.compareAndDelete (space.lock lock) holder)

end JobQueue.Lock
