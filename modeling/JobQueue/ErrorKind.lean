/-! # Kinds of errors, kinds of queues

Every error belongs to one kind, and its kind alone says whether trying again may help.
-/

namespace JobQueue

/-- The kind of an error. -/
inductive ErrorKind where
  /-- An argument is missing, empty or out of range. -/
  | argument
  /-- Something stored or running is not in the state an operation needs. -/
  | state
  /-- A transaction was discarded. -/
  | transaction
  /-- A record, a date or a command could not be read. -/
  | decode
  /-- The store cannot be reached, or refuses. -/
  | transport
  /-- The configuration is wrong. -/
  | configuration
deriving DecidableEq, Repr

namespace ErrorKind

/-- The kinds in order. -/
def all : List ErrorKind := [argument, state, transaction, decode, transport, configuration]

/-- A stable code. -/
def code : ErrorKind → String
  | argument => "ARGUMENT_ERROR"
  | state => "STATE_ERROR"
  | transaction => "TRANSACTION_ERROR"
  | decode => "DECODE_ERROR"
  | transport => "TRANSPORT_ERROR"
  | configuration => "CONFIGURATION_ERROR"

/-- Only a discarded transaction or a failing store may do better the next time. -/
def isRetryable : ErrorKind → Bool
  | transaction | transport => true
  | _ => false

end ErrorKind

/-- The kind of a queue, which follows from the types of its keys and is stored nowhere. -/
inductive QueueKind where
  /-- First in, first out, with insertion at the head. -/
  | simple
  /-- By time of readiness. -/
  | delayed
  /-- By time of the next firing, again and again. -/
  | recurring
deriving DecidableEq, Repr

namespace QueueKind

/-- The kinds in order. -/
def all : List QueueKind := [simple, delayed, recurring]

def name : QueueKind → String
  | simple => "simple"
  | delayed => "delayed"
  | recurring => "recurring"

end QueueKind

end JobQueue
