import JobQueue.Calendar
import JobQueue.Value

/-! # Jobs and what is recorded about them

A job names the class that performs it and carries its arguments. Failures record a job that went wrong,
statuses what a worker is doing now.
-/

namespace JobQueue

/-- A unit of work: the class that performs it, positional arguments, and named variables if any. -/
structure Job where
  className : String := ""
  args : List Value := []
  vars : Option (Dict Value) := none
deriving Repr, Inhabited

namespace Job

/-- Appends a positional argument. -/
def withArg (job : Job) (value : Value) : Job := { job with args := job.args ++ [value] }

/-- Binds one named variable. -/
def withVar (job : Job) (name : String) (value : Value) : Job :=
  { job with vars := some (Dict.insert (job.vars.getD []) name value) }

/-- Replaces the named variables. -/
def withVars (job : Job) (vars : Dict Value) : Job := { job with vars := some vars }

/-- A job can be performed only if it names a class. -/
def isValid (job : Job) : Bool := job.className != ""

/-- A job as a call, for people. -/
def shown (job : Job) : String :=
  job.className ++ "(" ++ ", ".intercalate (job.args.map Value.shown) ++ ")"

/-- Equality of jobs, value by value. -/
def same (a b : Job) : Bool :=
  a.className == b.className && Value.sameItems a.args b.args &&
    match a.vars, b.vars with
    | none, none => true
    | some x, some y => Value.same (.object x) (.object y)
    | _, _ => false

end Job

/-- A job that failed: the worker and queue it ran on, what was raised, and when. -/
structure JobFailure where
  worker : String
  queue : Option String := none
  payload : Job
  exception : String
  error : String
  backtrace : List String := []
  failedAt : Instant
  retriedAt : Option Instant := none
deriving Repr

namespace JobFailure

/-- Equality of failures, their jobs compared as jobs. -/
def same (a b : JobFailure) : Bool :=
  a.worker == b.worker && a.queue == b.queue && a.payload.same b.payload && a.exception == b.exception &&
    a.error == b.error && a.backtrace == b.backtrace && a.failedAt == b.failedAt &&
    a.retriedAt == b.retriedAt

end JobFailure

/-- What a worker is doing: the job it runs, since when, and whether it is paused. -/
structure WorkerStatus where
  runAt : Instant
  queue : String
  payload : Job
  paused : Bool := false
deriving Repr

namespace WorkerStatus

/-- Equality of statuses, their jobs compared as jobs. -/
def same (a b : WorkerStatus) : Bool :=
  a.runAt == b.runAt && a.queue == b.queue && a.payload.same b.payload && a.paused == b.paused

end WorkerStatus

end JobQueue
