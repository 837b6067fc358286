import JobQueue.Codec
import JobQueue.Queue
import JobQueue.Worker

/-! # The admin channel

Commands are sent on a channel as job-shaped descriptors. A listener on the channel reads each message
and has its worker obey the command; what it cannot read it drops, so that it keeps listening.
-/

namespace JobQueue

/-- Why a command is not sent or not carried out. -/
inductive AdminError where
  /-- There is no worker to obey the command. -/
  | unbound (command : AdminCommand)
  | codec (cause : CodecError)
  | queue (cause : QueueError)
deriving Repr

namespace AdminError

def kind : AdminError → ErrorKind
  | unbound _ => .state
  | codec cause => cause.kind
  | queue cause => cause.kind

def message : AdminError → String
  | unbound command => "Admin command " ++ command.shown ++ " has no worker bound"
  | codec cause => cause.message
  | queue cause => cause.message

end AdminError

/-- A command and the worker it acts on, if it is bound to one. -/
structure Invocation where
  command : AdminCommand
  worker : Option Worker := none

namespace Invocation

def bind (invocation : Invocation) (worker : Worker) : Invocation := { invocation with worker := some worker }

def isBound (invocation : Invocation) : Bool := invocation.worker.isSome

/-- The worker after it obeyed. -/
def run (invocation : Invocation) : Except AdminError Worker :=
  match invocation.worker with
  | some worker => .ok (worker.obey invocation.command)
  | none => .error (.unbound invocation.command)

end Invocation

/-- The channel on which commands are sent. -/
structure AdminChannel where
  name : String
deriving DecidableEq, Repr

namespace AdminChannel

/-- A channel of a keyspace. -/
def ofKeyspace (space : Keyspace) (channel : String) : AdminChannel := ⟨space.channel channel⟩

/-- Sends a command to all who listen, and tells how many received it. -/
def publish (channel : AdminChannel) (command : AdminCommand) : Task AdminError Nat :=
  (Queue.publish channel.name (Codec.encodeCommand command)).mapError .queue

end AdminChannel

/-- One who listens on a channel. -/
structure Listener where
  codec : Codec
  channel : String

namespace Listener

/-- Reads a message, and has a worker obey the command in it. -/
def handle (listener : Listener) (worker : Worker) (message : String) :
    Except AdminError (AdminCommand × Worker) := do
  let command ← (listener.codec.decodeCommand message).mapError .codec
  let worker ← ({ command : Invocation }.bind worker).run
  return (command, worker)

/-- The worker after a message on any channel. -/
def receive (listener : Listener) (worker : Worker) (channel message : String) : Worker :=
  if channel = listener.channel then match listener.handle worker message with
    | .ok (_, worker) => worker
    | .error _ => worker
  else worker

end Listener

end JobQueue
