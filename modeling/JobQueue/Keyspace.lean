/-! # The keys of one namespace

Every key is the namespace and some parts, joined by colons. A queue lives at its queue key, with the
frequencies of recurring jobs at the companion of that key; a worker's jobs in flight and every lock and
channel have keys of their own, and one key holds the names of all queues.
-/

namespace JobQueue

/-- A name that all keys of one application begin with. -/
structure Keyspace where
  name : String
deriving DecidableEq, Repr

namespace Keyspace

/-- A name and parts with colons between them. -/
def join (name : String) (parts : List String) : String := ":".intercalate (name :: parts)

/-- The key of the frequencies that belong to a queue key. -/
def companion (queueKey : String) : String := queueKey ++ ":recurring"

def key (space : Keyspace) (parts : List String) : String := join space.name parts

/-- The key of the set of queue names. -/
def queues (space : Keyspace) : String := space.key ["queues"]

def queue (space : Keyspace) (name : String) : String := space.key ["queue", name]

/-- The key of the frequencies of a queue. -/
def recurring (space : Keyspace) (name : String) : String := companion (space.queue name)

/-- The key of the jobs that a worker took from a queue. -/
def inflight (space : Keyspace) (worker queue : String) : String := space.key ["inflight", worker, queue]

def lock (space : Keyspace) (name : String) : String := space.key [name]

def channel (space : Keyspace) (name : String) : String := space.key [name]

end Keyspace

end JobQueue
