import JobQueue.AdminChannel
import JobQueue.Proofs.Codec
import JobQueue.Proofs.Record.Strict
import JobQueue.Proofs.Task
import JobQueue.Task.Run

/-! # Admin commands run as they are sent

A listener hears a command in a message if the message came on its channel and can be read. Its worker is
told just the commands that are heard, in order, and every message of the channel is heard as the command
that was sent.
-/

namespace JobQueue

/-- What a worker is told by a command. -/
def AdminCommand.event : AdminCommand → WorkerEvent
  | pause paused => .pause paused
  | shutdown now => .stop now

/-- A table that binds the two commands by their own names, whatever else it binds. -/
structure CommandTable.Standard (table : CommandTable) : Prop where
  pause : Dict.get? table AdminCommand.pauseName = some ⟨1, .pause 0⟩
  shutdown : Dict.get? table AdminCommand.shutdownName = some ⟨1, .shutdown 0⟩

namespace CommandTable

variable {table : CommandTable}

theorem standard_registerDefaults (table : CommandTable) : table.registerDefaults.Standard := by
  constructor <;> simp [registerDefaults, register, Dict.get?_insert, AdminCommand.pauseName,
    AdminCommand.shutdownName]

/-- Other names may be bound to anything. -/
theorem Standard.register (standard : table.Standard) {name : String} (entry : CommandEntry)
    (pause : name ≠ AdminCommand.pauseName) (shutdown : name ≠ AdminCommand.shutdownName) :
    (table.register name entry).Standard where
  pause := by
    rw [CommandTable.register, Dict.get?_insert, if_neg pause]
    exact standard.pause
  shutdown := by
    rw [CommandTable.register, Dict.get?_insert, if_neg shutdown]
    exact standard.shutdown

/-- A descriptor of a command is resolved to the command. -/
theorem Standard.resolve_descriptor (standard : table.Standard) (command : AdminCommand) :
    table.resolve command.descriptor = .ok command := by
  cases command with
  | pause paused =>
    change table.resolve { className := AdminCommand.pauseName, args := [.bool paused] } = _
    simp only [resolve, standard.pause]
    rfl
  | shutdown now =>
    change table.resolve { className := AdminCommand.shutdownName, args := [.bool now] } = _
    simp only [resolve, standard.shutdown]
    rfl

end CommandTable

/-! ## Commands as texts -/

namespace Record

open Json

/-- A descriptor is written as a job without variables. -/
theorem writeDescriptor_eq (className : String) (args : List Value) :
    writeDescriptor { className, args } = writeJob { className, args } := rfl

theorem commandName_settles (className : String) (depth : Nat) :
    Settles (commandSchema.read .className depth) (writeString className) (depth < 0) className :=
  flat (string_settles "a string" className) depth

/-- The fields of a descriptor. -/
def descriptorPieces (className : String) (args : List Value) (faithful : Value.FaithfulItems args) :
    List commandSchema.Piece :=
  [{ field := .className, content := className, text := writeString className, nesting := 0
     settles := commandName_settles className },
    { field := .args, content := args, text := writeArray (writeItems args)
      nesting := Value.nestingItems args + 1, settles := values_settle faithful }]

theorem descriptor_settles (className : String) {args : List Value} (faithful : Value.FaithfulItems args)
    (depth : Nat) :
    Settles (descriptor depth) (writeDescriptor { className, args })
      (depth < (jobDocument { className, args }).nesting) { className, args } := by
  have built : buildDescriptor ((descriptorPieces className args faithful).map Schema.Piece.entry) =
      .ok { className, args } := rfl
  exact commandSchema_wellNamed.record_settles (descriptorPieces className args faithful)
    (List.Sublist.refl _) built depth

end Record

namespace Codec

/-- A command is read back from its text. -/
theorem decodeCommand_encodeCommand {codec : Codec} (standard : codec.commands.Standard)
    (command : AdminCommand) : codec.decodeCommand (encodeCommand command) = .ok command := by
  have faithful : Value.FaithfulItems command.args := ⟨trivial, trivial⟩
  have settled := Record.descriptor_settles command.name faithful
  have written := (Record.writeValue_jobDocument command.descriptor).trans
    (Record.writeDescriptor_eq command.name command.args).symm
  have shallow : (Record.jobDocument command.descriptor).nesting ≤ Json.depthLimit :=
    (by decide : 2 ≤ Json.depthLimit)
  have decodes : DecodesTo .command decodeDescriptor (encodeCommand command)
      (Record.jobDocument command.descriptor) command.descriptor := decodesTo_of_settles written settled
  have read := decodes.decoded shallow
  rw [decodeCommand, read]
  dsimp only
  rw [standard.resolve_descriptor]

end Codec

/-! ## What a worker is told -/

namespace Listener

/-- What the listener's worker is told by a message on a channel. -/
def hears? (listener : Listener) (delivery : String × String) : Option WorkerEvent :=
  if delivery.1 = listener.channel then
    (listener.codec.decodeCommand delivery.2).toOption.map AdminCommand.event
  else none

/-- The worker behind some messages, one after the other, each with its channel. -/
def receiveAll (listener : Listener) (worker : Worker) (deliveries : List (String × String)) : Worker :=
  deliveries.foldl (fun worker delivery => listener.receive worker delivery.1 delivery.2) worker

end Listener

/-- The flag of an event, if it pauses or resumes. -/
def WorkerEvent.pause? : WorkerEvent → Option Bool
  | pause paused => some paused
  | stop _ => none

namespace Worker

/-- Whether the latest of some events that pauses or resumes pauses; with none the worker is not paused. -/
def pausedBy (events : List WorkerEvent) : Bool := (events.filterMap WorkerEvent.pause?).getLast?.getD false

/-- A worker is what its record says. -/
structure Consistent (worker : Worker) : Prop where
  paused : worker.paused = pausedBy worker.events
  stopped : worker.stopped = true ↔ ∃ now, .stop now ∈ worker.events

variable {worker : Worker}

theorem consistent_new (name : String) : Consistent { name } := ⟨rfl, by simp⟩

theorem events_obey (worker : Worker) (command : AdminCommand) :
    (worker.obey command).events = worker.events ++ [command.event] := by
  cases command <;> rfl

theorem Consistent.obey (consistent : worker.Consistent) (command : AdminCommand) :
    (worker.obey command).Consistent := by
  cases command with
  | pause paused =>
    refine ⟨?_, consistent.stopped.trans ?_⟩
    · simp [Worker.obey, pausedBy, WorkerEvent.pause?]
    · simp [Worker.obey]
  | shutdown now =>
    refine ⟨consistent.paused.trans ?_, iff_of_true rfl ⟨now, ?_⟩⟩
    · simp [Worker.obey, pausedBy, WorkerEvent.pause?]
    · exact List.mem_append_right _ (List.mem_singleton_self _)

end Worker

namespace Listener

variable {listener : Listener} {worker : Worker}

/-- A message is either a command that the worker obeys, or nothing to it. -/
theorem receive_cases (listener : Listener) (worker : Worker) (delivery : String × String) :
    (listener.hears? delivery = none ∧ listener.receive worker delivery.1 delivery.2 = worker) ∨
      ∃ command, listener.hears? delivery = some command.event ∧
        listener.receive worker delivery.1 delivery.2 = worker.obey command := by
  unfold hears? receive
  split
  · cases decoded : listener.codec.decodeCommand delivery.2 with
    | error cause =>
      refine .inl ⟨rfl, ?_⟩
      simp only [handle, decoded]
      rfl
    | ok command =>
      refine .inr ⟨command, rfl, ?_⟩
      simp only [handle, decoded]
      rfl
  · exact .inl ⟨rfl, rfl⟩

theorem events_receive (listener : Listener) (worker : Worker) (delivery : String × String) :
    (listener.receive worker delivery.1 delivery.2).events =
      worker.events ++ (listener.hears? delivery).toList := by
  rcases listener.receive_cases worker delivery with ⟨silent, same⟩ | ⟨command, heard, obeys⟩
  · rw [silent, same, Option.toList_none, List.append_nil]
  · rw [heard, obeys, Worker.events_obey, Option.toList_some]

theorem consistent_receive (consistent : worker.Consistent) (delivery : String × String) :
    (listener.receive worker delivery.1 delivery.2).Consistent := by
  rcases listener.receive_cases worker delivery with ⟨-, same⟩ | ⟨command, -, obeys⟩
  · rwa [same]
  · rw [obeys]
    exact consistent.obey command

/-- The record grows by what is heard, in order. -/
theorem events_receiveAll (listener : Listener) (worker : Worker) (deliveries : List (String × String)) :
    (listener.receiveAll worker deliveries).events =
      worker.events ++ deliveries.filterMap listener.hears? := by
  induction deliveries generalizing worker with
  | nil => exact (List.append_nil _).symm
  | cons delivery rest ih =>
    refine (ih _).trans ?_
    rw [events_receive, List.append_assoc, List.filterMap_cons]
    cases listener.hears? delivery <;> rfl

theorem consistent_receiveAll (consistent : worker.Consistent) (deliveries : List (String × String)) :
    (listener.receiveAll worker deliveries).Consistent := by
  induction deliveries generalizing worker with
  | nil => exact consistent
  | cons delivery rest ih => exact ih (consistent_receive consistent delivery)

/-- What is sent on a listener's channel is heard as it was sent. -/
theorem hears?_encodeCommand {codec : Codec} (standard : codec.commands.Standard) (channel : String)
    (command : AdminCommand) :
    hears? ⟨codec, channel⟩ (channel, Codec.encodeCommand command) = some command.event := by
  rw [hears?, if_pos rfl, Codec.decodeCommand_encodeCommand standard]
  rfl

end Listener

/-! ## Sending -/

namespace AdminChannel

/-- A command is sent on its channel if the channel has a name and the store can be reached. -/
theorem run_publish (channel : AdminChannel) (command : AdminCommand) (memory : Memory) :
    (channel.publish command).run memory =
      if channel.name = "" then (.error (.queue (.argument .emptyChannel)), memory)
      else if memory.unavailable then (.error (.queue (.store .refused)), memory)
      else (.ok ((Dict.get? memory.subscribers channel.name).getD 0),
        { memory with
          published := memory.published ++ [(channel.name, Codec.encodeCommand command)] }) := by
  unfold publish Queue.publish
  by_cases named : channel.name = ""
  · rw [if_pos named, named]
    rfl
  · rw [if_neg named, Queue.demand, if_pos (bne_iff_ne.mpr named)]
    change (Task.call _ _).run memory = _
    rw [Task.run_call, Memory.perform]
    split <;> rfl

end AdminChannel

/-- Admin commands run exactly as they are sent: whatever messages come on whatever channels, a worker that
begins anew is told just the commands among the messages on the listener's channel, in order, and is
paused and stopped as they say; and each command that is sent on the channel, as it is unless the channel has no
name or the store cannot be reached, is such a message. -/
theorem Listener.follows {codec : Codec} (standard : codec.commands.Standard) (channel name : String) :
    let listener : Listener := ⟨codec, channel⟩
    (∀ deliveries,
      let worker := listener.receiveAll { name } deliveries
      worker.events = deliveries.filterMap listener.hears? ∧
        worker.paused = Worker.pausedBy worker.events ∧
        (worker.stopped = true ↔ ∃ now, .stop now ∈ worker.events)) ∧
    ∀ command,
      listener.hears? (channel, Codec.encodeCommand command) = some command.event ∧
      ∀ memory, (AdminChannel.publish ⟨channel⟩ command).run memory =
        if channel = "" then (.error (.queue (.argument .emptyChannel)), memory)
        else if memory.unavailable then (.error (.queue (.store .refused)), memory)
        else (.ok ((Dict.get? memory.subscribers channel).getD 0),
          { memory with published := memory.published ++ [(channel, Codec.encodeCommand command)] }) := by
  refine ⟨fun deliveries => ?_, fun command => ⟨?_, ?_⟩⟩
  · have consistent : (receiveAll ⟨codec, channel⟩ { name } deliveries).Consistent :=
      consistent_receiveAll (Worker.consistent_new name) deliveries
    exact ⟨events_receiveAll _ _ deliveries, consistent.paused, consistent.stopped⟩
  · exact hears?_encodeCommand standard channel command
  · exact AdminChannel.run_publish ⟨channel⟩ command

namespace Listener

/-- A listener that knows a third name for a command. -/
def halting : Listener where
  codec := { commands := CommandTable.standard.register "Halt" ⟨1, .shutdown 0⟩ }
  channel := "app:admin"

/-- Commands that were sent, a text that is none, a command on another channel, and one by its third name. -/
def mixedDeliveries : List (String × String) := [
  ("app:admin", Codec.encodeCommand (.pause true)),
  ("app:admin", "oops"),
  ("app:other", Codec.encodeCommand (.shutdown true)),
  ("app:admin", "\x7b\"class\":\"Halt\",\"args\":[false]\x7d"),
  ("app:admin", Codec.encodeCommand (.pause false))]

theorem follows_halting :
    let worker := halting.receiveAll { name := "host:1:mail" } mixedDeliveries
    worker.events = [.pause true, .stop false, .pause false] ∧ worker.paused = false ∧
      worker.stopped = true := by
  intro worker
  have standard : halting.codec.commands.Standard :=
    (CommandTable.standard_registerDefaults _).register _ (by decide) (by decide)
  have heard : mixedDeliveries.filterMap halting.hears? = [.pause true, .stop false, .pause false] := by
    decide +kernel
  obtain ⟨events, paused, stopped⟩ := (follows standard "app:admin" "host:1:mail").1 mixedDeliveries
  have events : worker.events = [.pause true, .stop false, .pause false] := events.trans heard
  refine ⟨events, paused.trans ?_, stopped.mpr ⟨false, ?_⟩⟩
  · exact (congrArg Worker.pausedBy events).trans rfl
  · exact events ▸ List.mem_cons_of_mem _ List.mem_cons_self

end Listener

end JobQueue
