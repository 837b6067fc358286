import JobQueue.Binary64
import JobQueue.ErrorKind
import JobQueue.Server.Reply

/-! # What a store is asked

Queues, locks and channels live in a key-value store and reach it only through the requests of this
module. Each request is answered at one moment; a transaction and the three moves between a queue and the
jobs in flight are single requests for that reason.
-/

namespace JobQueue

/-- The type of what a key holds. -/
inductive KeyType where
  | absent
  | string
  | list
  | set
  | sortedSet
  | hash
  | other
deriving DecidableEq, Repr

namespace KeyType

/-- The word for a type. -/
def name : KeyType → String
  | absent => "none"
  | string => "string"
  | list => "list"
  | set => "set"
  | sortedSet => "zset"
  | hash => "hash"
  | other => "other"

/-- The type a word stands for; every word that stands for none means a type that is not used here. -/
def ofName (word : String) : KeyType :=
  ([absent, string, list, set, sortedSet, hash].find? fun type => type.name = word).getD other

end KeyType

/-- How long a key has to live. -/
inductive TimeToLive where
  | missing
  | persistent
  | expires (seconds : Nat)
deriving DecidableEq, Repr

/-- The time to live as a number: seconds, `-1` for ever, any other negative number for no such key. -/
def TimeToLive.ofNumber (number : Int) : TimeToLive :=
  if number = -1 then persistent else if number < 0 then missing else expires number.toNat

/-- A write of a transaction. -/
inductive Write where
  /-- Adds a member to a set. -/
  | addMember (key member : String)
  /-- Puts a value at the end of a list. -/
  | append (key value : String)
  /-- Puts a value at the head of a list. -/
  | prepend (key value : String)
  /-- Gives a member of a sorted set its score. -/
  | schedule (key : String) (score : Binary64) (member : String)
  /-- Takes a member out of a sorted set. -/
  | unschedule (key member : String)
  /-- Binds a field of a hash. -/
  | setField (key field value : String)
  /-- Drops a field of a hash. -/
  | dropField (key field : String)
deriving DecidableEq, Repr

/-- The key that a write changes. -/
def Write.key : Write → String
  | addMember key _ | append key _ | prepend key _ | schedule key _ _ | unschedule key _
  | setField key _ _ | dropField key _ => key

/-- The keys between which jobs move: a queue, its frequencies, and a worker's jobs in flight. -/
structure Route where
  queue : String
  recurring : String
  inflight : String
deriving DecidableEq, Repr

/-- A request to a store. -/
inductive Request where
  | ping
  | keyType (key : String)
  | get (key : String)
  /-- Creates a string that does not expire, unless the key exists. -/
  | setIfAbsent (key value : String)
  | expire (key : String) (seconds : Nat)
  | timeToLive (key : String)
  | delete (key : String)
  /-- Deletes a key if it holds the expected string. -/
  | compareAndDelete (key expected : String)
  /-- Makes all of the writes or none. -/
  | transaction (writes : List Write)
  /-- Moves one job that is ready at a time into flight. A list gives its head. A sorted set gives the
  member with the least score; a member that has a frequency is put off by it, any other is taken out. -/
  | popToInflight (route : Route) (now : Int)
  /-- Takes the head of a list of jobs in flight. -/
  | popInflight (key : String)
  /-- Moves the head of the jobs in flight back: into a sorted set at a time, or to the head of a list.
  A member that has a frequency is still scheduled and is dropped. -/
  | restoreInflight (route : Route) (now : Int)
  /-- Sends a message; the reply says to how many. -/
  | publish (channel message : String)
deriving DecidableEq, Repr

/-- What a request is answered with when it succeeds. -/
abbrev Request.Reply : Request → Type
  | ping => Unit
  | keyType _ => KeyType
  | get _ => Option String
  | setIfAbsent _ _ => Bool
  | expire _ _ => Bool
  | timeToLive _ => TimeToLive
  | delete _ => Bool
  | compareAndDelete _ _ => Bool
  | transaction _ => Unit
  | popToInflight _ _ => Option String
  | popInflight _ => Option String
  | restoreInflight _ _ => Option String
  | publish _ _ => Nat

/-- Why a request fails. -/
inductive StoreError where
  /-- The key holds something of another type. -/
  | wrongType (key : String)
  /-- The store cannot be reached. -/
  | refused
  /-- The transaction was discarded, and nothing was written. -/
  | discarded
  /-- The server discarded a transaction of so many writes. -/
  | discardedWrites (count : Nat)
  /-- The server signals an error or answers with something else. -/
  | server (error : ServerError)
  /-- The server's sign of life is not the expected one. -/
  | oddPong (text : String)
deriving DecidableEq, Repr

namespace StoreError

def kind : StoreError → ErrorKind
  | discarded | discardedWrites _ => .transaction
  | wrongType _ | refused | server _ | oddPong _ => .transport

def message : StoreError → String
  | wrongType key => "Redis error: WRONGTYPE Operation against a key holding the wrong kind of value" ++
      " - TypeError: " ++ key
  | refused => "Redis error: Connection refused- IoError"
  | discarded => "Transaction aborted: EXEC discarded the transaction"
  | discardedWrites count => "Transaction aborted: EXEC discarded " ++ toString count ++ " queued writes"
  | server error => "Redis error: " ++ error.message
  | oddPong text => "Connection error: Unexpected PING response: " ++ text

end StoreError

end JobQueue
