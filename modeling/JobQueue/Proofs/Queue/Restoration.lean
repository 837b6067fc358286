import Mathlib.Control.Monad.Basic
import JobQueue.Proofs.Interleaving
import JobQueue.Proofs.Queue.Stores

/-! # Jobs that come back to a delayed queue

A delayed queue on which nothing is scheduled is no key, and may be put to any use. So a job that a worker
restores while nothing is scheduled does not come back to a delayed queue: it starts a list. This is the only
way in which a queue that is used as a delayed one stops being delayed.
-/

namespace JobQueue.Queue

open Function (update)

/-- What is done with a delayed queue, jobs that come back to it included. -/
inductive DelayedOperation where
  | schedule (payload : String) (ready : Int)
  | cancel (payload : String)
  | dequeue (worker : String) (now : Int)
  | removeInflight (worker : String)
  | restoreInflight (worker : String) (now : Int)
deriving DecidableEq, Repr

namespace DelayedOperation

variable (space : Keyspace) (queue : String)

/-- The operation on a queue of any kind. -/
def operation : DelayedOperation → Operation
  | schedule payload ready => .enqueueDelayed payload ready
  | cancel payload => .removeDelayed payload
  | dequeue worker now => .list (.dequeue worker now)
  | removeInflight worker => .list (.removeInflight worker)
  | restoreInflight worker now => .list (.restoreInflight worker now)

def program (delayed : DelayedOperation) : Task QueueError (Option String) :=
  delayed.operation.program space queue

/-- Every process runs the operations. -/
abbrev programs {ι : Type} : ι → DelayedOperation → Task QueueError (Option String) :=
  fun _ => program space queue

/-- What is left of an operation that is about to make its last request. -/
def writing (delayed : DelayedOperation) : Task QueueError (Option String) :=
  delayed.operation.writing space queue

/-- What is left of an operation that looks first whether the queue is delayed. -/
def looking (delayed : DelayedOperation) : Task QueueError (Option String) :=
  asking (.keyType (space.queue queue)) fun found =>
    if found = .absent ∨ found = .sortedSet then delayed.writing space queue
    else .fail (.wrongKind queue .delayed (.alone found))

/-- Whether the last request of an operation restores a job while nothing is scheduled. -/
def Strands (memory : Memory) : DelayedOperation → Prop
  | restoreInflight worker _ => memory.unavailable = false ∧
    memory.slots.entry? (space.queue queue) = none ∧
    ∃ payload rest, memory.slots.entry? (space.inflight worker queue) = some (.list (payload :: rest))
  | _ => False

end DelayedOperation

/-- Processes at work on a delayed queue. -/
abbrev DelayedUsers (ι : Type) := World ι DelayedOperation QueueError (Option String)

/-- A payload is scheduled in a sorted set for a time. -/
def ScheduledAt (space : Keyspace) (queue : String) (slots : Slots) (payload : String) (time : Int) : Prop :=
  ∃ scores, slots.entry? (space.queue queue) = some (.sortedSet scores) ∧
    Dict.get? scores payload = some (Binary64.ofInt time)

section Moves

variable {ι : Type} [DecidableEq ι] (space : Keyspace) (queue : String)

/-- The next move restores a job while nothing is scheduled. -/
def Stranding (world : DelayedUsers ι) (move : Move ι DelayedOperation) : Prop :=
  ∃ who operation since, move = .advance who ∧
    world.process who = some ⟨operation, operation.writing space queue, since⟩ ∧
    operation.Strands space queue world.memory

/-- Behind a move the queue is as delayed as before. -/
structure StaysDelayed (move : Move ι DelayedOperation) (next : DelayedUsers ι) : Prop where
  unlisted : ∀ items, next.memory.slots.entry? (space.queue queue) ≠ some (.list items)
  /-- A job that the move has restored is scheduled for the time that the restorer named. -/
  rescheduled : ∀ who worker now payload,
    next.completed? move = some ⟨who, .restoreInflight worker now, some payload⟩ →
    ScheduledAt space queue next.memory.slots payload now
  /-- No operation has been refused for the kind of the queue. -/
  accepted : ∀ who operation error, next.returned? who = some (operation, .error error) →
    error.kind ≠ .state

end Moves

/-! ## Where a process can be -/

section Places

variable {space : Keyspace} {queue : String}

/-- What may be left of an operation while the queue is delayed. -/
inductive DelayedPlace (space : Keyspace) (queue : String) (operation : DelayedOperation) :
    Task QueueError (Option String) → Prop
  | looking : DelayedPlace space queue operation (operation.looking space queue)
  | writing : DelayedPlace space queue operation (operation.writing space queue)
  | done (answer : Option String) : DelayedPlace space queue operation (.done answer)
  | failed (error : QueueError) (other : error.kind ≠ .state) :
      DelayedPlace space queue operation (.fail error)

/-- An operation begins by looking or by making its last request, unless the queue has no name. -/
theorem DelayedOperation.place_program (operation : DelayedOperation) :
    DelayedPlace space queue operation (operation.program space queue) := by
  have begins {operation : DelayedOperation} (same : operation.program space queue =
      operation.looking space queue ∨ operation.program space queue = operation.writing space queue) :
      DelayedPlace space queue operation (operation.program space queue) := by
    rcases same with same | same <;> rw [same]
    · exact .looking
    · exact .writing
  cases operation with
  | removeInflight worker | restoreInflight worker now => exact begins (.inr (ask_eq _))
  | schedule payload ready | cancel payload =>
    by_cases named : queue = ""
    · subst named
      exact .failed (.argument .emptyQueue) (by decide)
    · exact begins (.inl (ListOperation.checkedWrite_eq named requireDelayed_eq _))
  | dequeue worker now =>
    by_cases named : queue = ""
    · subst named
      exact .failed (.argument .emptyQueue) (by decide)
    · exact begins (.inr (ListOperation.program_dequeue named worker now))

end Places

section Requests

variable {space : Keyspace} {queue : String} {slots : Slots} {memory : Memory} {scores : Dict Binary64}
  {inflight : String → List String}

/-- A store in which a queue is delayed, and nothing else. -/
def HoldsDelayed (space : Keyspace) (queue : String) (slots : Slots) : Prop :=
  ∃ scores inflight, Stores space queue slots (Entry.sortedSet scores).kept inflight

/-- A job that a worker restores is written to the queue in the way that what is there tells. -/
theorem Stores.restoreInflight {held? : Option Entry}
    (stores : Stores space queue memory.slots held? inflight)
    {worker payload : String} {rest : List String} (stack : inflight worker = payload :: rest) {now : Int}
    (write : Write) {entry : Entry} (key : write.key = space.queue queue)
    (returns : ∀ slots : Slots, slots.entry? (space.queue queue) = held? →
      slots.returnWrite (space.queue queue) payload now = write)
    (applies : write.apply? held? = some entry) :
    ∃ next, memory.restoreInflight (route space worker queue) now = (.ok (some payload), next) ∧
      Stores space queue next.slots entry.kept (update inflight worker rest) := by
  have held := stores.inflight worker
  rw [stack] at held
  obtain ⟨middle, taken, changes⟩ := stores.lasting.takeHead_listed held
  have left := stores.setInflight changes
  have once : middle.isRecurring (space.recurring queue) payload = false := by
    rw [Slots.isRecurring, left.companion]
  obtain ⟨next, written, after⟩ := left.write key applies memory.clock
  unfold Memory.restoreInflight
  rw [stores.purge_eq]
  simp only [route, taken, once, left.lasting.purge_eq, returns middle left.content, written]
  exact ⟨_, rfl, after⟩

/-- While something is scheduled, a job that is restored is scheduled too. -/
theorem Stores.reschedule (stores : Stores space queue memory.slots (Entry.sortedSet scores).kept inflight)
    (waits : scores ≠ []) {worker payload : String} {rest : List String}
    (stack : inflight worker = payload :: rest) (now : Int) :
    ∃ next, memory.restoreInflight (route space worker queue) now = (.ok (some payload), next) ∧
      Stores space queue next.slots
        (Entry.sortedSet (Dict.insert scores payload (Binary64.ofInt now))).kept
          (update inflight worker rest) := by
  have filled : (Entry.sortedSet scores).kept = some (.sortedSet scores) :=
    kept_of_not_isEmpty (List.isEmpty_eq_false_iff.mpr waits)
  refine stores.restoreInflight stack (.schedule _ _ _) rfl ?_
    (apply?_schedule (space.queue queue) payload _ scores)
  intro slots found
  rw [Slots.returnWrite, found, filled]
  rfl

/-- While nothing is scheduled, a job that is restored starts a list. -/
theorem Stores.strand (stores : Stores space queue memory.slots none inflight) {worker payload : String}
    {rest : List String} (stack : inflight worker = payload :: rest) (now : Int) :
    ∃ next, memory.restoreInflight (route space worker queue) now = (.ok (some payload), next) ∧
      Stores space queue next.slots (some (.list [payload])) (update inflight worker rest) := by
  refine stores.restoreInflight stack (.prepend (space.queue queue) payload) rfl ?_ rfl
  intro slots found
  rw [Slots.returnWrite, found]

/-- A worker with nothing in flight restores nothing. -/
theorem Stores.restoreInflight_nil {held? : Option Entry}
    (stores : Stores space queue memory.slots held? inflight) {worker : String}
    (stack : inflight worker = []) (now : Int) :
    memory.restoreInflight (route space worker queue) now = (.ok none, memory) := by
  have held := stores.inflight worker
  rw [stack] at held
  unfold Memory.restoreInflight
  rw [stores.purge_eq]
  simp only [route, Slots.takeHead_none held]

theorem HoldsDelayed.unlisted (holds : HoldsDelayed space queue slots) (items : List String) :
    slots.entry? (space.queue queue) ≠ some (.list items) := by
  obtain ⟨scores, inflight, stores⟩ := holds
  intro listed
  cases eq_of_kept (stores.content.symm.trans listed)

/-- A transaction whose writes apply is made, unless it is to be discarded. -/
theorem HoldsDelayed.commit (available : memory.unavailable = false) {writes : List Write} {slots : Slots}
    (written : memory.slots.writeAll memory.clock writes = .ok slots)
    (after : HoldsDelayed space queue slots) :
    (∃ cause next, memory.perform (.transaction writes) = (.error cause, next) ∧ next.slots = memory.slots) ∨
    ∃ next, memory.perform (.transaction writes) = (.ok (), next) ∧ HoldsDelayed space queue next.slots :=
  (Memory.transact available written after).imp_left fun ⟨cause, next, _, failed, same⟩ =>
    ⟨cause, next, failed, same⟩

/-- The last request of an operation that strands no job leaves the queue delayed. -/
theorem HoldsDelayed.perform (holds : HoldsDelayed space queue memory.slots) {delayed : DelayedOperation}
    (spared : ¬ delayed.Strands space queue memory) :
    (∃ cause next, memory.perform (delayed.operation.request space queue) = (.error cause, next) ∧
      next.slots = memory.slots) ∨
    ∃ reply next, memory.perform (delayed.operation.request space queue) = (.ok reply, next) ∧
      HoldsDelayed space queue next.slots ∧
      ∀ worker now payload, delayed = .restoreInflight worker now →
        delayed.operation.answer space queue reply = some payload →
        ScheduledAt space queue next.slots payload now := by
  by_cases unavailable : memory.unavailable = true
  · exact .inl ⟨.refused, _, Memory.perform_unavailable unavailable _, rfl⟩
  have available : memory.unavailable = false := eq_false_of_ne_true unavailable
  obtain ⟨scores, inflight, stores⟩ := holds
  cases delayed with
  | schedule payload ready =>
    obtain ⟨slots, written, after⟩ := stores.writeAll_schedule memory.clock payload (Binary64.ofInt ready)
    rcases HoldsDelayed.commit available written ⟨_, _, after⟩ with failed | ⟨next, made, left⟩
    · exact .inl failed
    · exact .inr ⟨(), next, made, left, fun _ _ _ same => by cases same⟩
  | cancel payload =>
    obtain ⟨slots, written, after⟩ := stores.writeAll_cancel memory.clock payload
    rcases HoldsDelayed.commit available written ⟨_, _, after⟩ with failed | ⟨next, made, left⟩
    · exact .inl failed
    · exact .inr ⟨(), next, made, left, fun _ _ _ same => by cases same⟩
  | dequeue worker now =>
    obtain ⟨next, popped⟩ := stores.popToInflight worker now
    have performed : memory.perform (.popToInflight (route space worker queue) now) =
        memory.popToInflight (route space worker queue) now := by
      simp only [Memory.perform, available]
      rfl
    cases given : Schedule.firstUpTo (Binary64.ofInt now) scores with
    | none =>
      rw [given] at popped
      exact .inr ⟨none, next, performed.trans popped.1, ⟨_, _, popped.2⟩, fun _ _ _ same => by cases same⟩
    | some entry =>
      rw [given] at popped
      exact .inr ⟨some entry.1, next, performed.trans popped.1, ⟨_, _, popped.2⟩,
        fun _ _ _ same => by cases same⟩
  | removeInflight worker =>
    obtain ⟨next, popped, left⟩ := stores.popInflight worker
    refine .inr ⟨(inflight worker).head?, next, ?_, ⟨_, _, left⟩, fun _ _ _ same => by cases same⟩
    simp only [DelayedOperation.operation, Operation.request, ListOperation.request, Memory.perform,
      available]
    exact popped
  | restoreInflight worker now =>
    have performed : memory.perform (.restoreInflight (route space worker queue) now) =
        memory.restoreInflight (route space worker queue) now := by
      simp only [Memory.perform, available]
      rfl
    cases stack : inflight worker with
    | nil =>
      have nothing := performed.trans (stores.restoreInflight_nil stack now)
      refine .inr ⟨none, memory, nothing, ⟨_, _, stores⟩, ?_⟩
      rintro _ _ _ ⟨⟩ answered
      contradiction
    | cons payload rest =>
      have waits : scores ≠ [] := by
        rintro rfl
        have held := stores.inflight worker
        rw [stack] at held
        exact spared ⟨available, stores.content, payload, rest, held⟩
      obtain ⟨next, restored, left⟩ := stores.reschedule waits stack now
      refine .inr ⟨some payload, next, performed.trans restored, ⟨_, _, left⟩, ?_⟩
      rintro _ _ _ ⟨⟩ ⟨⟩
      refine ⟨_, left.content.trans (kept_schedule scores payload _), ?_⟩
      rw [Dict.get?_insert, if_pos rfl]

/-- What a look at the type of the queue leads to. -/
theorem HoldsDelayed.looked (holds : HoldsDelayed space queue memory.slots) :
    (memory.perform (.keyType (space.queue queue)) = (.error .refused, memory)) ∨
    ∃ found, (found = .absent ∨ found = .sortedSet) ∧
      memory.perform (.keyType (space.queue queue)) = (.ok found, memory) := by
  obtain ⟨scores, inflight, stores⟩ := holds
  refine stores.perform_keyType.imp And.right fun performed => ⟨_, ?_, performed⟩
  cases scores with
  | nil => exact .inl rfl
  | cons entry rest => exact .inr rfl

/-- The next request of an operation that strands no job leaves the queue delayed. -/
theorem HoldsDelayed.answered (holds : HoldsDelayed space queue memory.slots) {delayed : DelayedOperation}
    {request : Request} {rest : Except StoreError request.Reply → Task QueueError (Option String)}
    (place : DelayedPlace space queue delayed (.call request rest))
    (spared : .call request rest = delayed.writing space queue → ¬ delayed.Strands space queue memory) :
    HoldsDelayed space queue (memory.perform request).2.slots ∧
      DelayedPlace space queue delayed (rest (memory.perform request).1) ∧
      ∀ worker now payload, delayed = .restoreInflight worker now →
        rest (memory.perform request).1 = .done (some payload) →
        ScheduledAt space queue (memory.perform request).2.slots payload now := by
  generalize asks : Task.call request rest = program at place spared
  cases place with
  | looking =>
    cases asks
    rcases holds.looked with performed | ⟨found, suits, performed⟩ <;> rw [performed]
    · exact ⟨holds, .failed _ (StoreError.kind_ne_state .refused), nofun⟩
    · simp only [if_pos suits]
      exact ⟨holds, .writing, nofun⟩
  | writing =>
    cases asks
    rcases holds.perform (spared rfl) with ⟨cause, next, performed, same⟩ |
      ⟨reply, next, performed, left, comes⟩ <;>
      rw [performed]
    · exact ⟨same ▸ holds, .failed _ cause.kind_ne_state, nofun⟩
    · refine ⟨left, .done _, ?_⟩
      rintro worker now payload same ended
      exact comes worker now payload same (Task.done.inj ended)
  | done | failed => contradiction

end Requests

/-! ## Runs -/

section Runs

variable {ι : Type} {space : Keyspace} {queue : String} {world next : DelayedUsers ι}
  {move : Move ι DelayedOperation}

/-- The queue is delayed, and every process is where it can be. -/
structure Settled (space : Keyspace) (queue : String) (world : DelayedUsers ι) : Prop where
  holds : HoldsDelayed space queue world.memory.slots
  placed : ∀ who process, world.process who = some process →
    DelayedPlace space queue process.operation process.program

/-- Nothing that has ended has been refused for the kind of the queue. -/
theorem DelayedPlace.accepted {operation : DelayedOperation} {program : Task QueueError (Option String)}
    (place : DelayedPlace space queue operation program) {error : QueueError}
    (ended : program = .fail error) : error.kind ≠ .state := by
  cases place with
  | looking | writing | done => contradiction
  | failed other different =>
    cases ended
    exact different

namespace Settled

theorem accepted (settled : Settled space queue world) {who : ι} {operation : DelayedOperation}
    {error : QueueError} (returned : world.returned? who = some (operation, .error error)) :
    error.kind ≠ .state := by
  obtain ⟨since, found⟩ := World.failed_of_returned? returned
  exact (settled.placed who _ found).accepted rfl

theorem stays (settled : Settled space queue next)
    (rescheduled : ∀ who worker now payload,
      next.completed? move = some ⟨who, .restoreInflight worker now, some payload⟩ →
      ScheduledAt space queue next.memory.slots payload now) : StaysDelayed space queue move next where
  unlisted := settled.holds.unlisted
  rescheduled := rescheduled
  accepted _ _ _ := settled.accepted

variable [DecidableEq ι]

/-- One process goes on, and the queue is delayed behind that. -/
theorem put (settled : Settled space queue world) {memory : Memory}
    (holds : HoldsDelayed space queue memory.slots) {operation : DelayedOperation}
    {program : Task QueueError (Option String)} (place : DelayedPlace space queue operation program)
    (who : ι) (since : Nat) :
    Settled space queue (World.put ⟨memory, world.process⟩ who ⟨operation, program, since⟩) where
  holds := holds
  placed := World.forall_put settled.placed place

/-- Unless it strands a job, a move leaves the queue delayed. -/
theorem step (settled : Settled space queue world) (spared : ¬ Stranding space queue world move)
    (step : world.step? (DelayedOperation.programs space queue) move = some next) :
    Settled space queue next ∧ StaysDelayed space queue move next := by
  cases move with
  | tick millis | reach available | spoil =>
    cases step
    exact ⟨⟨settled.holds, settled.placed⟩, stays ⟨settled.holds, settled.placed⟩ nofun⟩
  | start who operation =>
    obtain ⟨-, rfl⟩ := World.step?_start step
    have after := settled.put settled.holds operation.place_program who world.memory.clock
    refine ⟨after, after.stays ?_⟩
    intro other worker now payload completed
    rw [World.completed?_start] at completed
    obtain ⟨ended, same⟩ := Process.program_of_completion? completed
    cases same
    cases ended
  | advance who =>
    rcases World.step?_advance step with
      ⟨operation, request, rest, since, found, rfl⟩ | ⟨operation, millis, rest, since, found, rfl⟩
    · have place := settled.placed who _ found
      obtain ⟨holds, went, comes⟩ := settled.holds.answered place fun writes strands =>
        spared ⟨who, operation, since, rfl, writes ▸ found, strands⟩
      have after := settled.put holds went who (world.memory.perform request).2.clock
      refine ⟨after, after.stays ?_⟩
      intro other worker now payload completed
      rw [World.completed?_advance] at completed
      obtain ⟨ended, same⟩ := Process.program_of_completion? completed
      exact comes worker now payload same ended
    · -- no operation waits
      have place := settled.placed who _ found
      cases place

end Settled

variable [DecidableEq ι]

/-- A move that strands a job makes the queue a list. -/
theorem Stranding.step (settled : Settled space queue world) (strands : Stranding space queue world move) :
    ∃ next, world.step? (DelayedOperation.programs space queue) move = some next ∧
      ∃ payload, next.memory.slots.entry? (space.queue queue) = some (.list [payload]) := by
  obtain ⟨who, operation, since, rfl, found, strands⟩ := strands
  obtain ⟨scores, inflight, stores⟩ := settled.holds
  cases operation with
  | restoreInflight worker now =>
    obtain ⟨available, drained, payload, rest, held⟩ := strands
    have stack : inflight worker = payload :: rest := by
      have listed := (stores.inflight worker).symm.trans held
      exact Entry.list.inj (eq_of_kept listed)
    rw [← stores.content, drained] at stores
    obtain ⟨next, restored, left⟩ := stores.strand stack now
    have performed : world.memory.perform (.restoreInflight (route space worker queue) now) =
        (.ok (some payload), next) := by
      simp only [Memory.perform, available]
      exact restored
    refine ⟨_, World.step?_call found, payload, ?_⟩
    change ((world.memory.perform (.restoreInflight (route space worker queue) now)).2.slots.entry? _) = _
    rw [performed]
    exact left.content
  | _ => contradiction

/-- From a settled world on, a queue stays delayed exactly if no job is restored while nothing is
scheduled. -/
theorem staysDelayed_iff (settled : Settled space queue world) (moves : List (Move ι DelayedOperation)) :
    (∀ made ∈ world.trace (DelayedOperation.programs space queue) moves, ∀ next,
      made.1.step? (DelayedOperation.programs space queue) made.2 = some next →
        StaysDelayed space queue made.2 next) ↔
      ∀ made ∈ world.trace (DelayedOperation.programs space queue) moves,
        ¬ Stranding space queue made.1 made.2 := by
  induction moves generalizing world with
  | nil => exact ⟨fun _ => List.forall_mem_nil _, fun _ => List.forall_mem_nil _⟩
  | cons move moves ih =>
    rw [World.trace, List.forall_mem_cons, List.forall_mem_cons]
    by_cases strands : Stranding space queue world move
    · obtain ⟨next, step, payload, listed⟩ := strands.step settled
      constructor
      · intro all
        exact absurd listed ((all.1 next step).unlisted [payload])
      · intro none
        exact absurd strands none.1
    · cases step : world.step? (DelayedOperation.programs space queue) move with
      | none => exact ⟨fun _ => ⟨strands, List.forall_mem_nil _⟩, fun _ => ⟨nofun, List.forall_mem_nil _⟩⟩
      | some next =>
        obtain ⟨after, stays⟩ := settled.step strands step
        have rest := ih after
        constructor
        · intro all
          exact ⟨strands, rest.mp all.2⟩
        · intro none
          refine ⟨?_, rest.mpr none.2⟩
          rintro _ ⟨⟩
          exact stays

/-- In a run from an empty store, a queue that is used as a delayed one stays delayed exactly if no job is
ever restored while nothing is scheduled. -/
theorem staysDelayed_iff_not_stranding (space : Keyspace) (queue : String)
    (moves : List (Move ι DelayedOperation)) :
    (∀ made ∈ World.fresh.trace (DelayedOperation.programs space queue) moves, ∀ next,
      made.1.step? (DelayedOperation.programs space queue) made.2 = some next →
        StaysDelayed space queue made.2 next) ↔
      ∀ made ∈ World.fresh.trace (DelayedOperation.programs space queue) moves,
        ¬ Stranding space queue made.1 made.2 := by
  have settled : Settled space queue (World.fresh : DelayedUsers ι) := by
    refine ⟨⟨[], _, .nil⟩, ?_⟩
    intro who process absent
    contradiction
  exact staysDelayed_iff settled moves

end Runs

/-- The only job that is scheduled is taken by a worker and restored; then another is to be scheduled. -/
def drained : List (Move Nat DelayedOperation) :=
  [.start 0 (.schedule "a" 0), .advance 0, .advance 0,
    .start 1 (.dequeue "w" 0), .advance 1, .start 1 (.restoreInflight "w" 5), .advance 1,
    .start 0 (.schedule "b" 7), .advance 0]

/-- The world behind that. -/
def drained? : Option (DelayedUsers Nat) :=
  World.fresh.run? (DelayedOperation.programs ⟨"app"⟩ "mail") drained

/-- The worker is given the job back, but the queue is a list, and refuses to be delayed. -/
theorem drained_listed :
    ∃ world, drained? = some world ∧
      world.memory.slots.entry? (Keyspace.queue ⟨"app"⟩ "mail") = some (.list ["a"]) ∧
      world.returned? 1 = some (.restoreInflight "w" 5, .ok (some "a")) ∧
      ¬ ScheduledAt ⟨"app"⟩ "mail" world.memory.slots "a" 5 ∧
      world.returned? 0 = some (.schedule "b" 7, .error (.wrongKind "mail" .delayed (.alone .list))) := by
  have listed : drained?.bind (·.memory.slots.entry? (Keyspace.queue ⟨"app"⟩ "mail")) =
      some (.list ["a"]) := by
    decide +kernel
  have restored : drained?.bind (·.returned? 1) = some (.restoreInflight "w" 5, .ok (some "a")) := by
    decide +kernel
  have refused : drained?.bind (·.returned? 0) =
      some (.schedule "b" 7, .error (.wrongKind "mail" .delayed (.alone .list))) := by decide +kernel
  obtain ⟨world, reached, held⟩ := Option.bind_eq_some_iff.mp listed
  rw [reached] at restored refused
  refine ⟨world, reached, held, restored, ?_, refused⟩
  rintro ⟨scores, scheduled, -⟩
  cases held.symm.trans scheduled

end JobQueue.Queue
