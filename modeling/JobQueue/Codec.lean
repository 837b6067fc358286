import JobQueue.CommandTable
import JobQueue.ErrorKind
import JobQueue.Record

/-! # Records and commands to JSON and back

A codec fixes the date formats that are accepted and the commands that are known. Whatever is encoded has
a text; a text that is decoded must be one record and nothing else.
-/

namespace JobQueue

/-- The kinds of records. -/
inductive RecordKind where
  | job
  | command
  | failure
  | status
deriving DecidableEq, Repr

/-- What a kind of record is called in an error. -/
def RecordKind.name : RecordKind → String
  | job => "job"
  | command => "admin command"
  | failure => "job failure"
  | status => "worker status"

/-- Why a text is no record, a descriptor no command, or a text no date. -/
inductive CodecError where
  | decode (record : RecordKind) (fault : Json.Fault) (text : List Char)
  | date (formats : List DateFormat) (text : String)
  | resolve (cause : ResolveError)
deriving Repr

namespace CodecError

def message : CodecError → String
  | decode record fault text => "failed to decode " ++ record.name ++ ": " ++ fault.message text
  | date formats text => Record.dateRefusal formats text
  | resolve cause => cause.message

def kind (_ : CodecError) : ErrorKind := .decode

/-- Whether a command's name is bound to nothing. -/
def isLookup : CodecError → Bool
  | resolve (.unknownCommand _) => true
  | _ => false

end CodecError

/-- The accepted date formats, in the order in which they are tried, and the known commands. -/
structure Codec where
  formats : List DateFormat := DateFormat.standard
  commands : CommandTable := CommandTable.standard

namespace Codec

def encodeJob (job : Job) : String := String.ofList (Record.writeJob job)

def encodeFailure (failure : JobFailure) : String := String.ofList (Record.writeFailure failure)

def encodeStatus (status : WorkerStatus) : String := String.ofList (Record.writeStatus status)

/-- A command is encoded as its descriptor. -/
def encodeCommand (command : AdminCommand) : String :=
  String.ofList (Record.writeDescriptor command.descriptor)

/-- Reads a text as one record. -/
def decodeWith {α : Type} (record : RecordKind) (reader : Nat → Json.Reader α) (text : String) :
    Except CodecError α :=
  match Json.readAll (reader Json.depthLimit) text.toList with
  | .ok a => .ok a
  | .error fault => .error (.decode record fault text.toList)

def decodeJob (text : String) : Except CodecError Job := decodeWith .job Record.job text

def decodeDescriptor (text : String) : Except CodecError Job := decodeWith .command Record.descriptor text

def decodeFailure (codec : Codec) (text : String) : Except CodecError JobFailure :=
  decodeWith .failure (Record.failure codec.formats) text

def decodeStatus (codec : Codec) (text : String) : Except CodecError WorkerStatus :=
  decodeWith .status (Record.status codec.formats) text

/-- Reads a descriptor and resolves it. -/
def decodeCommand (codec : Codec) (text : String) : Except CodecError AdminCommand :=
  match decodeDescriptor text with
  | .error error => .error error
  | .ok descriptor => match codec.commands.resolve descriptor with
    | .ok command => .ok command
    | .error cause => .error (.resolve cause)

/-- Reads a date in any of the accepted formats. -/
def readDate (codec : Codec) (text : String) : Except CodecError Instant :=
  match DateFormat.readFirst codec.formats text with
  | some instant => .ok instant
  | none => .error (.date codec.formats text)

end Codec

end JobQueue
