import JobQueue.AdminCommand
import JobQueue.DateFormat

/-! # The table of admin commands

A table binds names to commands: how many arguments a name takes and how they make a command. It is put
together by registrations, the last of which decides for a name. An alias takes what its target is
bound to at that moment, so a later registration of the target does not change it.
-/

namespace JobQueue

/-- Why a descriptor is no command. A maker may refuse for any of these reasons, also for a record or a date
that it comes upon; of those only the wording is kept. -/
inductive ResolveError where
  | unknownCommand (name : String)
  | arity (name : String) (expected found : Nat)
  | argumentType (name : String) (index : Nat) (expected found : String)
  | encode (record cause : String)
  | decode (record cause : String)
  | date (text tried : String)
deriving DecidableEq, Repr

namespace ResolveError

/-- The wording of a refusal. -/
def message : ResolveError → String
  | unknownCommand name => "unknown admin command '" ++ name ++ "'"
  | arity name expected found =>
    "admin command '" ++ name ++ "' expects " ++ toString expected ++ " argument(s), got " ++ toString found
  | argumentType name index expected found =>
    "admin command '" ++ name ++ "' argument " ++ toString index ++ " must be " ++ expected ++ ", got " ++ found
  | encode record cause => "failed to encode " ++ record ++ ": " ++ cause
  | decode record cause => "failed to decode " ++ record ++ ": " ++ cause
  | date text tried => DateFormat.refusal text tried

end ResolveError

/-- Makes a command from the name it was called by and its arguments, or refuses for whatever reason. -/
abbrev CommandMaker := String → List Value → Except ResolveError AdminCommand

/-- The argument at a position, which must be a flag. -/
def flagArgument (name : String) (args : List Value) (index : Nat) : Except ResolveError Bool :=
  match args[index]?.bind Value.asBool? with
  | some flag => .ok flag
  | none => .error (.argumentType name index "boolean" ((args[index]?.map Value.typeName).getD "missing"))

namespace CommandMaker

/-- Pauses or resumes as the argument at a position says. -/
def pause (index : Nat) : CommandMaker := fun name args => (flagArgument name args index).map .pause

/-- Shuts down at once or not as the argument at a position says. -/
def shutdown (index : Nat) : CommandMaker := fun name args => (flagArgument name args index).map .shutdown

end CommandMaker

/-- What a name is bound to. -/
structure CommandEntry where
  arity : Nat
  make : CommandMaker

/-- Names and what they are bound to. -/
abbrev CommandTable := Dict CommandEntry

namespace CommandTable

def empty : CommandTable := []

/-- Binds a name, in place of what it was bound to. -/
def register (table : CommandTable) (name : String) (entry : CommandEntry) : CommandTable :=
  Dict.insert table name entry

/-- Binds the two commands by their own names. -/
def registerDefaults (table : CommandTable) : CommandTable :=
  (table.register AdminCommand.pauseName ⟨1, .pause 0⟩).register AdminCommand.shutdownName ⟨1, .shutdown 0⟩

/-- Binds a name to what another is bound to now. -/
def alias? (table : CommandTable) (name target : String) : Except ResolveError CommandTable :=
  match Dict.get? table target with
  | some entry => .ok (table.register name entry)
  | none => .error (.unknownCommand target)

/-- The two commands and nothing else. -/
def standard : CommandTable := empty.registerDefaults

def contains (table : CommandTable) (name : String) : Bool := (Dict.get? table name).isSome

/-- The bound names in order. -/
def names (table : CommandTable) : List String :=
  (Dict.keys table).mergeSort fun a b => decide (a ≤ b)

/-- The command that a descriptor asks for. -/
def resolve (table : CommandTable) (descriptor : Job) : Except ResolveError AdminCommand :=
  match Dict.get? table descriptor.className with
  | none => .error (.unknownCommand descriptor.className)
  | some entry =>
    if descriptor.args.length = entry.arity then entry.make descriptor.className descriptor.args
    else .error (.arity descriptor.className entry.arity descriptor.args.length)

end CommandTable

/-- One step of putting a table together. -/
inductive Registration where
  | defaults
  | register (name : String) (entry : CommandEntry)
  | alias (name target : String)

namespace CommandTable

/-- Takes one step. -/
def apply (table : CommandTable) : Registration → Except ResolveError CommandTable
  | .defaults => .ok table.registerDefaults
  | .register name entry => .ok (table.register name entry)
  | .alias name target => table.alias? name target

/-- Takes steps in order, from an empty table, up to the first alias without a target. -/
def ofRegistrations (steps : List Registration) : Except ResolveError CommandTable :=
  steps.foldlM apply empty

end CommandTable

end JobQueue
