import JobQueue.AdminCommand
import JobQueue.DateFormat
import JobQueue.Json.Schema
import JobQueue.Json.Write

/-! # Records as JSON

Jobs, failures, statuses and command descriptors are written as objects with their fields in a fixed
order, optional fields only if they are set, and are read by their schemas. Dates are written in the
canonical form and read in any of the given formats.
-/

namespace JobQueue.Record

open Json

/-- A date as a JSON string. -/
def writeDate (instant : Instant) : List Char := writeString (DateFormat.canonical instant)

/-- Why a date is refused: the text and the patterns that were tried. -/
def dateRefusal (formats : List DateFormat) (text : String) : String :=
  DateFormat.refusal text (", ".intercalate (formats.map DateFormat.pattern))

/-- A date in any of some formats. -/
def date (formats : List DateFormat) : Reader Instant :=
  (string "a date string").judge fun text =>
    match DateFormat.readFirst formats text with
    | some instant => .ok instant
    | none => .error (.refused (dateRefusal formats text))

/-- How a record of named fields is called where another kind of value is found. -/
def expectedObject (fields : List String) : String :=
  "an object with fields [" ++ ", ".intercalate (fields.map Text.quoted) ++ "]"

/-! ## Jobs -/

inductive JobField where
  | className
  | args
  | vars
deriving DecidableEq, Repr

def JobField.name : JobField → String
  | className => "class"
  | args => "args"
  | vars => "vars"

def JobField.Content : JobField → Type
  | className => String
  | args => List Value
  | vars => Option (Dict Value)

def JobField.read : (field : JobField) → Nat → Reader field.Content
  | className, _ => string "a string"
  | args, depth => values depth
  | vars, depth => optional (dict "an object" depth)

def jobSchema : Schema where
  Field := JobField
  decideField := inferInstance
  fields := [.className, .args, .vars]
  name := JobField.name
  Content := JobField.Content
  read := JobField.read

/-- A job needs its class and its arguments. -/
def buildJob (entries : List jobSchema.Entry) : Except Cause Job := do
  let className ← jobSchema.require .className entries
  let args ← jobSchema.require .args entries
  return { className, args, vars := (jobSchema.content? .vars entries).join }

def job (depth : Nat) : Reader Job :=
  jobSchema.record (expectedObject (jobSchema.fields.map jobSchema.name)) buildJob depth

def writeJob (job : Job) : List Char :=
  writeObject (
    [(JobField.className.name, writeString job.className),
      (JobField.args.name, writeArray (writeItems job.args))] ++
    (job.vars.map fun vars => (JobField.vars.name, writeObject (writeMembers vars))).toList)

/-! ## Command descriptors -/

inductive CommandField where
  | className
  | args
deriving DecidableEq, Repr

def CommandField.name : CommandField → String
  | className => "class"
  | args => "args"

def CommandField.Content : CommandField → Type
  | className => String
  | args => List Value

def CommandField.read : (field : CommandField) → Nat → Reader field.Content
  | className, _ => string "a string"
  | args, depth => values depth

def commandSchema : Schema where
  Field := CommandField
  decideField := inferInstance
  fields := [.className, .args]
  name := CommandField.name
  Content := CommandField.Content
  read := CommandField.read

/-- A descriptor is a job without variables. -/
def buildDescriptor (entries : List commandSchema.Entry) : Except Cause Job := do
  let className ← commandSchema.require .className entries
  let args ← commandSchema.require .args entries
  return { className, args }

def descriptor (depth : Nat) : Reader Job :=
  commandSchema.record (expectedObject (commandSchema.fields.map commandSchema.name)) buildDescriptor depth

def writeDescriptor (descriptor : Job) : List Char :=
  writeObject [(CommandField.className.name, writeString descriptor.className),
    (CommandField.args.name, writeArray (writeItems descriptor.args))]

/-! ## Failures -/

inductive FailureField where
  | worker
  | queue
  | payload
  | exception
  | error
  | backtrace
  | failedAt
  | retriedAt
deriving DecidableEq, Repr

def FailureField.name : FailureField → String
  | worker => "worker"
  | queue => "queue"
  | payload => "payload"
  | exception => "exception"
  | error => "error"
  | backtrace => "backtrace"
  | failedAt => "failed_at"
  | retriedAt => "retried_at"

def FailureField.Content : FailureField → Type
  | worker => String
  | queue => Option String
  | payload => Job
  | exception => Option String
  | error => Option String
  | backtrace => Option (List String)
  | failedAt => Instant
  | retriedAt => Option Instant

def FailureField.read (formats : List DateFormat) :
    (field : FailureField) → Nat → Reader field.Content
  | worker, _ => string "a string"
  | queue, _ => optional (string "a string")
  | payload, depth => job depth
  | exception, _ => optional (string "a string")
  | error, _ => optional (string "a string")
  | backtrace, depth => optional (list "a sequence" (fun _ => string "a string") depth)
  | failedAt, _ => date formats
  | retriedAt, _ => optional (date formats)

def failureSchema (formats : List DateFormat) : Schema where
  Field := FailureField
  decideField := inferInstance
  fields := [.worker, .queue, .payload, .exception, .error, .backtrace, .failedAt, .retriedAt]
  name := FailureField.name
  Content := FailureField.Content
  read := FailureField.read formats

/-- A failure needs its worker, its job and its time; texts that are missing are empty. -/
def buildFailure (formats : List DateFormat) (entries : List (failureSchema formats).Entry) :
    Except Cause JobFailure := do
  let schema := failureSchema formats
  let worker ← schema.require .worker entries
  let payload ← schema.require .payload entries
  let failedAt ← schema.require .failedAt entries
  return {
    worker, payload, failedAt
    queue := (schema.content? .queue entries).join
    exception := (schema.content? .exception entries).join.getD ""
    error := (schema.content? .error entries).join.getD ""
    backtrace := (schema.content? .backtrace entries).join.getD []
    retriedAt := (schema.content? .retriedAt entries).join }

def failure (formats : List DateFormat) (depth : Nat) : Reader JobFailure :=
  (failureSchema formats).record "a job failure object" (buildFailure formats) depth

def writeFailure (failure : JobFailure) : List Char :=
  writeObject (
    [(FailureField.worker.name, writeString failure.worker)] ++
    (failure.queue.map fun queue => (FailureField.queue.name, writeString queue)).toList ++
    [(FailureField.payload.name, writeJob failure.payload),
      (FailureField.exception.name, writeString failure.exception),
      (FailureField.error.name, writeString failure.error),
      (FailureField.backtrace.name, writeArray (failure.backtrace.map writeString)),
      (FailureField.failedAt.name, writeDate failure.failedAt)] ++
    (failure.retriedAt.map fun instant => (FailureField.retriedAt.name, writeDate instant)).toList)

/-! ## Worker statuses -/

inductive StatusField where
  | runAt
  | queue
  | payload
  | paused
deriving DecidableEq, Repr

def StatusField.name : StatusField → String
  | runAt => "run_at"
  | queue => "queue"
  | payload => "payload"
  | paused => "paused"

def StatusField.Content : StatusField → Type
  | runAt => Instant
  | queue => String
  | payload => Job
  | paused => Option Bool

def StatusField.read (formats : List DateFormat) :
    (field : StatusField) → Nat → Reader field.Content
  | runAt, _ => date formats
  | queue, _ => string "a string"
  | payload, depth => job depth
  | paused, _ => optional (bool "a boolean")

def statusSchema (formats : List DateFormat) : Schema where
  Field := StatusField
  decideField := inferInstance
  fields := [.runAt, .queue, .payload, .paused]
  name := StatusField.name
  Content := StatusField.Content
  read := StatusField.read formats

/-- A status needs its time, its queue and its job; a worker not said to be paused is not. -/
def buildStatus (formats : List DateFormat) (entries : List (statusSchema formats).Entry) :
    Except Cause WorkerStatus := do
  let schema := statusSchema formats
  let runAt ← schema.require .runAt entries
  let queue ← schema.require .queue entries
  let payload ← schema.require .payload entries
  return { runAt, queue, payload, paused := (schema.content? .paused entries).join.getD false }

def status (formats : List DateFormat) (depth : Nat) : Reader WorkerStatus :=
  (statusSchema formats).record "a worker status object" (buildStatus formats) depth

def writeStatus (status : WorkerStatus) : List Char :=
  writeObject [(StatusField.runAt.name, writeDate status.runAt),
    (StatusField.queue.name, writeString status.queue),
    (StatusField.payload.name, writeJob status.payload),
    (StatusField.paused.name, writeBool status.paused)]

end JobQueue.Record
