import Mathlib.Control.Monad.Basic
import JobQueue.Proofs.Interleaving
import JobQueue.Proofs.Keyspace
import JobQueue.Proofs.Queue.Operation
import JobQueue.Proofs.Queue.Stores
import JobQueue.Proofs.Store.Undo
import JobQueue.Proofs.Task.Arrivals

/-! # Many clients of one recurring queue

Clients repeat payloads and stop them, in a queue that is not used at first, whatever else the store holds. Each
looks at the type of the queue, then at that of its companion, and then makes one transaction. Whatever else
happens between these requests, queue and companion are those of the transactions alone, one after the other.
But the two looks are two moments: a client is refused if the queue comes into being or ceases to be between
them, although queue and companion fit together all the time.
-/

namespace JobQueue

open Function (update update_self update_of_ne)
open Contents (set?)

namespace Dict

variable {α β : Type} (f : α → β)

def mapValues (dict : Dict α) : Dict β := dict.map fun entry => (entry.1, f entry.2)

theorem mapValues_insert (dict : Dict α) (key : String) (value : α) :
    mapValues f (insert dict key value) = insert (mapValues f dict) key (f value) := by
  induction dict with
  | nil => rfl
  | cons entry rest ih =>
    obtain ⟨name, old⟩ := entry
    simp only [mapValues, List.map_cons, insert]
    split
    · rfl
    · exact congrArg _ ih

theorem mapValues_erase (dict : Dict α) (key : String) :
    mapValues f (erase dict key) = erase (mapValues f dict) key := by
  rw [mapValues, mapValues, erase, erase, List.filter_map]
  rfl

end Dict

namespace Queue

/-- The payloads that recur, each with the time of its next turn and its frequency. -/
abbrev Timetable := Dict (Int × Nat)

namespace Timetable

def scores (table : Timetable) : Dict Binary64 := Dict.mapValues (fun turn => Binary64.ofInt turn.1) table

def frequencies (table : Timetable) : Dict String :=
  Dict.mapValues (fun turn => String.ofList (Text.integer turn.2)) table

end Timetable

/-- What clients do with a recurring queue. -/
inductive RecurringOperation where
  | recur (payload : String) (nextFire : Int) (frequency : Nat)
  | stop (payload : String)
deriving DecidableEq, Repr

/-- What an operation makes of a timetable. -/
def Timetable.after (table : Timetable) : RecurringOperation → Timetable
  | .recur payload nextFire frequency => Dict.insert table payload (nextFire, frequency)
  | .stop payload => Dict.erase table payload

namespace RecurringOperation

variable (space : Keyspace) (queue : String)

/-- The operation on a queue of any kind. -/
def operation : RecurringOperation → Operation
  | recur payload nextFire frequency => .enqueueRecurring payload nextFire frequency
  | stop payload => .removeRecurring payload

def program (recurring : RecurringOperation) : Task QueueError (Option String) :=
  recurring.operation.program space queue

/-- Every process runs the operations. -/
abbrev programs {ι : Type} : ι → RecurringOperation → Task QueueError (Option String) :=
  fun _ => program space queue

/-- The writes of the transaction that an operation makes. -/
def writes : RecurringOperation → List Write
  | recur payload nextFire frequency => registering space queue [
      .schedule (space.queue queue) (Binary64.ofInt nextFire) payload,
      .setField (space.recurring queue) payload (String.ofList (Text.integer frequency))]
  | stop payload => [.dropField (space.recurring queue) payload, .unschedule (space.queue queue) payload]

/-- What is left of an operation that is about to make its transaction. -/
def writing (recurring : RecurringOperation) : Task QueueError (Option String) :=
  asking (.transaction (recurring.writes space queue)) fun _ => .done none

/-- What is left of an operation that has found the type of the queue. -/
def lookingAgain (recurring : RecurringOperation) (found : KeyType) : Task QueueError (Option String) :=
  asking (.keyType (space.recurring queue)) fun companion =>
    if (found = .absent ∧ companion = .absent) ∨ (found = .sortedSet ∧ companion = .hash) then
      recurring.writing space queue
    else .fail (.wrongKind queue .recurring (.withCompanion found companion))

/-- What is left of an operation that looks first whether the queue is recurring. -/
def looking (recurring : RecurringOperation) : Task QueueError (Option String) :=
  asking (.keyType (space.queue queue)) (recurring.lookingAgain space queue)

end RecurringOperation

/-- Clients at work on a recurring queue. -/
abbrev RecurringUsers (ι : Type) := World ι RecurringOperation QueueError (Option String)

/-- Queue and companion hold nothing, and the names of queues, if there are any, are a set. -/
structure Unused (space : Keyspace) (queue : String) (memory : Memory) : Prop where
  vacant : memory.contents (space.queue queue) = none
  companion : memory.contents (space.recurring queue) = none
  names : (set? (memory.contents space.queues)).isSome = true

section Serial

variable {ι : Type} [DecidableEq ι] (space : Keyspace) (queue : String)

/-- The next move is the second look of an operation, and the type of the queue is no longer the one that the
first look has found. -/
def Torn (world : RecurringUsers ι) (move : Move ι RecurringOperation) : Prop :=
  ∃ who operation found since, move = .advance who ∧
    world.process who = some ⟨operation, operation.lookingAgain space queue found, since⟩ ∧
    world.memory.unavailable = false ∧ (world.memory.typeOf (space.queue queue)).1 ≠ found

/-- A move has ended an operation, which is refused for the kind of the queue. -/
def Refuses (move : Move ι RecurringOperation) (next : RecurringUsers ι) : Prop :=
  ∃ who operation error, move.isOf who = true ∧ next.returned? who = some (operation, .error error) ∧
    error.kind = .state

variable (before : RecurringUsers ι) (moves : List (Move ι RecurringOperation))

/-- The operations that moves end without an error, in the order of their transactions. -/
def committed : List RecurringOperation :=
  (before.completions (RecurringOperation.programs space queue) moves).map Completion.operation

/-- The writes of their transactions. -/
def committedWrites : List Write :=
  (committed space queue before moves).flatMap (RecurringOperation.writes space queue)

/-- The timetable that they make, one after the other. -/
def timetable : Timetable := (committed space queue before moves).foldl Timetable.after []

/-- What a run of clients amounts to. -/
structure Serial (world : RecurringUsers ι) : Prop where
  /-- Queue and companion hold what the transactions alone make of them, one after the other. -/
  replayed : ∀ now, before.memory.clock ≤ now → ∃ alone,
    before.memory.slots.writeAll now (committedWrites space queue before moves) = .ok alone ∧
      alone.contents now (space.queue queue) = world.memory.contents (space.queue queue) ∧
      alone.contents now (space.recurring queue) = world.memory.contents (space.recurring queue)
  /-- The queue holds the times of the timetable that the operations make, one after the other. -/
  scores : world.memory.contents (space.queue queue) =
    (Entry.sortedSet (timetable space queue before moves).scores).kept
  /-- The companion holds the frequencies. -/
  frequencies : world.memory.contents (space.recurring queue) =
    (Entry.hash (timetable space queue before moves).frequencies).kept
  /-- All other keys but the names of queues are left to time. -/
  others : ∀ key, key ≠ space.queue queue → key ≠ space.recurring queue → key ≠ space.queues →
    world.memory.contents key = before.memory.slots.contents world.memory.clock key
  /-- In a store where nothing expires, everything is as the transactions alone have it. -/
  verbatim : before.memory.slots.Lasting → ∀ now,
    before.memory.slots.writeAll now (committedWrites space queue before moves) = .ok world.memory.slots
  /-- An operation is refused exactly if the queue has come into being or ceased to be between its looks. -/
  refused : ∀ made ∈ before.trace (RecurringOperation.programs space queue) moves, ∀ next,
    made.1.step? (RecurringOperation.programs space queue) made.2 = some next →
      (Refuses made.2 next ↔ Torn space queue made.1 made.2)

end Serial

variable {space : Keyspace} {queue : String}

theorem requireRecurring_eq : requireRecurring space queue =
    asking (.keyType (space.queue queue)) fun found =>
      asking (.keyType (space.recurring queue)) fun companion =>
        if (found = .absent ∧ companion = .absent) ∨ (found = .sortedSet ∧ companion = .hash) then .done ()
        else .fail (.wrongKind queue .recurring (.withCompanion found companion)) := by
  unfold requireRecurring
  rw [ask_bind]
  apply congrArg (asking _)
  funext found
  exact ask_bind _ _

/-- Where a process can be. -/
inductive RecurringPlace (space : Keyspace) (queue : String) (operation : RecurringOperation) :
    Task QueueError (Option String) → Prop
  | looking : RecurringPlace space queue operation (operation.looking space queue)
  | lookingAgain (found : KeyType) :
      RecurringPlace space queue operation (operation.lookingAgain space queue found)
  | writing : RecurringPlace space queue operation (operation.writing space queue)
  | done (answer : Option String) : RecurringPlace space queue operation (.done answer)
  | failed (error : QueueError) : RecurringPlace space queue operation (.fail error)

namespace RecurringOperation

/-- What the first look has found decides what the other leads to. -/
theorem lookingAgain_inj {operation : RecurringOperation} {found later : KeyType}
    (same : operation.lookingAgain space queue found = operation.lookingAgain space queue later) :
    found = later := by
  injection same with _ same
  -- a companion of any other type is refused, with the type that the first look has found
  have refused := congrFun same (.ok KeyType.other)
  simpa using refused

theorem looking_ne_lookingAgain {operation : RecurringOperation} {found : KeyType} :
    operation.looking space queue ≠ operation.lookingAgain space queue found := by
  intro same
  injection same with same
  injection same with same
  exact Keyspace.recurring_ne_queue queue same.symm

theorem writing_ne_lookingAgain {operation : RecurringOperation} {found : KeyType} :
    operation.writing space queue ≠ operation.lookingAgain space queue found := by
  intro same
  injection same with same
  contradiction

/-- A write that looks twice at first. -/
theorem checkedTwice_eq (operation : RecurringOperation) :
    ((do requireRecurring space queue; commit (operation.writes space queue)) >>= fun _ => return none :
      Task QueueError (Option String)) = operation.looking space queue := by
  rw [requireRecurring_eq, asking_bind, asking_bind]
  apply congrArg (asking _)
  funext found
  rw [asking_bind, asking_bind]
  apply congrArg (asking _)
  funext companion
  split
  · exact ask_bind _ _
  · rfl

/-- An operation begins by looking, unless its arguments are refused. -/
theorem program_cases (operation : RecurringOperation) :
    operation.program space queue = operation.looking space queue ∨
      ∃ cause, operation.program space queue = .fail (.argument cause) := by
  by_cases named : queue = ""
  · subst named
    cases operation <;> exact .inr ⟨.emptyQueue, rfl⟩
  · cases operation with
    | recur payload nextFire frequency =>
      cases frequency with
      | zero =>
        refine .inr ⟨.zeroFrequency, ?_⟩
        unfold program operation Operation.program enqueueRecurring
        rw [ListOperation.demandName_eq named]
        rfl
      | succ frequency =>
        refine .inl ?_
        rw [← checkedTwice_eq]
        unfold program operation Operation.program enqueueRecurring
        rw [ListOperation.demandName_eq named]
        rfl
    | stop payload =>
      refine .inl ?_
      rw [← checkedTwice_eq]
      unfold program operation Operation.program removeRecurring
      rw [ListOperation.demandName_eq named]
      rfl

end RecurringOperation

/-! ## A timetable in a store -/

theorem apply?_setField (key field value : String) (fields : Dict String) :
    Write.apply? (.setField key field value) (Entry.hash fields).kept =
      some (.hash (Dict.insert fields field value)) := by
  cases fields <;> rfl

theorem apply?_dropField (key field : String) (fields : Dict String) :
    Write.apply? (.dropField key field) (Entry.hash fields).kept =
      some (.hash (Dict.erase fields field)) := by
  cases fields <;> rfl

/-- Keys hold scores at a queue and fields at its companion, for good; the names of queues are a set. -/
structure Recurs (space : Keyspace) (queue : String) (held : Holdings) (scores : Dict Binary64)
    (fields : Dict String) : Prop where
  scores : held (space.queue queue) = (Entry.sortedSet scores).forGood
  fields : held (space.recurring queue) = (Entry.hash fields).forGood
  names : (set? ((held space.queues).map Slot.entry)).isSome = true

namespace Recurs

variable {held : Holdings} {scores : Dict Binary64} {fields : Dict String}

theorem of_unused {memory : Memory} (unused : Unused space queue memory) :
    Recurs space queue (memory.slots.held memory.clock) [] [] where
  scores := (Option.map_eq_none_iff (f := Slot.entry)).mp unused.vacant
  fields := (Option.map_eq_none_iff (f := Slot.entry)).mp unused.companion
  names := unused.names

/-- Time leaves what keys hold for good. -/
theorem later {slots : Slots} {now : Nat} (recurs : Recurs space queue (slots.held now) scores fields)
    {later : Nat} (since : now ≤ later) : Recurs space queue (slots.held later) scores fields where
  scores := by
    rw [slots.held_later since, recurs.scores, Entry.filter_forGood]
  fields := by
    rw [slots.held_later since, recurs.fields, Entry.filter_forGood]
  names := by
    have names := recurs.names
    rw [slots.held_later since]
    cases held : slots.held now space.queues with
    | none => rfl
    | some slot =>
      rw [held] at names
      rw [Option.filter_some]
      split
      · exact names
      · rfl

/-- The name of a queue enters the set of names. -/
theorem register (recurs : Recurs space queue held scores fields) :
    ∃ after, held.write? (.addMember space.queues queue) = some after ∧
      Recurs space queue after scores fields := by
  obtain ⟨members, names⟩ := Option.isSome_iff_exists.mp recurs.names
  have left : Write.leave? (.addMember space.queues queue) (held space.queues) =
      some (some ⟨.set (insertMember queue members), (held space.queues).bind Slot.expiresAt⟩) := by
    rw [Write.leave?, Contents.apply?_eq]
    simp only [names, Option.map_some, kept_insertMember]
  refine ⟨_, (congrArg (Option.map _) left).trans rfl, ?_, ?_, ?_⟩
  · exact (update_of_ne (Keyspace.queues_ne_queue queue).symm ..).trans recurs.scores
  · exact (update_of_ne (Keyspace.queues_ne_recurring queue).symm ..).trans recurs.fields
  · rw [Write.key, update_self]
    rfl

/-- A write that applies to the scores. -/
theorem writeScores (recurs : Recurs space queue held scores fields) {write : Write} {later : Dict Binary64}
    (key : write.key = space.queue queue)
    (applies : write.apply? (Entry.sortedSet scores).kept = some (.sortedSet later)) :
    ∃ after, held.write? write = some after ∧ Recurs space queue after later fields := by
  have left := Write.leave?_forGood applies
  rw [← recurs.scores, ← key] at left
  refine ⟨_, (congrArg (Option.map _) left).trans rfl, ?_, ?_, ?_⟩ <;> rw [key]
  · exact update_self ..
  · exact (update_of_ne (Keyspace.recurring_ne_queue queue) ..).trans recurs.fields
  · rw [update_of_ne (Keyspace.queues_ne_queue queue)]
    exact recurs.names

/-- A write that applies to the fields. -/
theorem writeFields (recurs : Recurs space queue held scores fields) {write : Write} {later : Dict String}
    (key : write.key = space.recurring queue)
    (applies : write.apply? (Entry.hash fields).kept = some (.hash later)) :
    ∃ after, held.write? write = some after ∧ Recurs space queue after scores later := by
  have left := Write.leave?_forGood applies
  rw [← recurs.fields, ← key] at left
  refine ⟨_, (congrArg (Option.map _) left).trans rfl, ?_, ?_, ?_⟩ <;> rw [key]
  · exact (update_of_ne (Keyspace.recurring_ne_queue queue).symm ..).trans recurs.scores
  · exact update_self ..
  · rw [update_of_ne (Keyspace.queues_ne_recurring queue)]
    exact recurs.names

/-- The transaction of an operation does to queue and companion what the operation does to a timetable. -/
theorem writeAll? {table : Timetable} (recurs : Recurs space queue held table.scores table.frequencies)
    (operation : RecurringOperation) :
    ∃ after, held.writeAll? (operation.writes space queue) = some after ∧
      Recurs space queue after (table.after operation).scores (table.after operation).frequencies := by
  cases operation with
  | recur payload nextFire frequency =>
    obtain ⟨first, registered, one⟩ := recurs.register
    obtain ⟨second, scheduled, two⟩ := one.writeScores rfl
      (apply?_schedule (space.queue queue) payload (Binary64.ofInt nextFire) table.scores)
    obtain ⟨third, bound, three⟩ := two.writeFields rfl
      (apply?_setField (space.recurring queue) payload (String.ofList (Text.integer frequency))
        table.frequencies)
    refine ⟨third, ?_, ?_⟩
    · exact Holdings.writeAll?_cons.mpr ⟨first, registered,
        Holdings.writeAll?_cons.mpr ⟨second, scheduled, Holdings.writeAll?_cons.mpr ⟨third, bound, rfl⟩⟩⟩
    · rw [Timetable.after, Timetable.scores, Timetable.frequencies,
        Dict.mapValues_insert, Dict.mapValues_insert]
      exact three
  | stop payload =>
    obtain ⟨first, dropped, one⟩ := recurs.writeFields rfl
      (apply?_dropField (space.recurring queue) payload table.frequencies)
    obtain ⟨second, unscheduled, two⟩ := one.writeScores rfl
      (apply?_unschedule (space.queue queue) payload table.scores)
    refine ⟨second, ?_, ?_⟩
    · exact Holdings.writeAll?_cons.mpr ⟨first, dropped,
        Holdings.writeAll?_cons.mpr ⟨second, unscheduled, rfl⟩⟩
    · rw [Timetable.after, Timetable.scores, Timetable.frequencies,
        Dict.mapValues_erase, Dict.mapValues_erase]
      exact two

/-- The transactions of operations, one after the other. -/
theorem replay {table : Timetable} (recurs : Recurs space queue held table.scores table.frequencies)
    (operations : List RecurringOperation) :
    ∃ after, held.writeAll? (operations.flatMap (RecurringOperation.writes space queue)) = some after ∧
      Recurs space queue after (operations.foldl Timetable.after table).scores
        (operations.foldl Timetable.after table).frequencies := by
  induction operations generalizing held table with
  | nil => exact ⟨held, rfl, recurs⟩
  | cons operation operations ih =>
    obtain ⟨between, first, left⟩ := recurs.writeAll? operation
    obtain ⟨after, rest, behind⟩ := ih left
    refine ⟨after, ?_, behind⟩
    rw [List.flatMap_cons, Holdings.writeAll?_append, first]
    exact rest

section Contents

variable {slots : Slots} {now : Nat}

theorem contents_queue (recurs : Recurs space queue (slots.held now) scores fields) :
    slots.contents now (space.queue queue) = (Entry.sortedSet scores).kept := by
  rw [Slots.contents_eq, recurs.scores, Entry.map_forGood]

theorem contents_companion (recurs : Recurs space queue (slots.held now) scores fields) :
    slots.contents now (space.recurring queue) = (Entry.hash fields).kept := by
  rw [Slots.contents_eq, recurs.fields, Entry.map_forGood]

end Contents

end Recurs

section Requests

variable {memory : Memory} {table : Timetable}

/-- Queue and companion are both there, or neither is. -/
theorem Recurs.types (recurs : Recurs space queue memory.held table.scores table.frequencies) :
    ((memory.typeOf (space.queue queue)).1 = .absent ∧
      (memory.typeOf (space.recurring queue)).1 = .absent) ∨
    ((memory.typeOf (space.queue queue)).1 = .sortedSet ∧
      (memory.typeOf (space.recurring queue)).1 = .hash) := by
  rw [Memory.typeOf_eq, Memory.typeOf_eq, Memory.contents, recurs.contents_queue, recurs.contents_companion]
  cases table with
  | nil => exact .inl ⟨rfl, rfl⟩
  | cons entry rest => exact .inr ⟨rfl, rfl⟩

/-- A look that finds a type is refused by the other look exactly if the type is no longer the same. -/
theorem Recurs.suits_iff (recurs : Recurs space queue memory.held table.scores table.frequencies)
    (found : KeyType) :
    ((found = .absent ∧ (memory.typeOf (space.recurring queue)).1 = .absent) ∨
      (found = .sortedSet ∧ (memory.typeOf (space.recurring queue)).1 = .hash)) ↔
    (memory.typeOf (space.queue queue)).1 = found := by
  rcases recurs.types with ⟨type, companion⟩ | ⟨type, companion⟩ <;> rw [type, companion]
  · simp [eq_comm]
  · simp [eq_comm]

/-- A look at a type finds it, if the store can be reached. -/
theorem answer_keyType (memory : Memory) (key : String) :
    memory.unavailable = true ∧ (memory.perform (.keyType key)).1 = .error .refused ∨
    memory.unavailable = false ∧ (memory.perform (.keyType key)).1 = .ok (memory.typeOf key).1 := by
  by_cases unavailable : memory.unavailable = true
  · exact .inl ⟨unavailable, by rw [Memory.perform_unavailable unavailable]⟩
  · exact .inr ⟨eq_false_of_ne_true unavailable, by rw [Memory.perform, if_neg unavailable]; rfl⟩

/-- A store that requests see as before; if nothing expires, it is as before. -/
structure Unchanged (memory left : Memory) : Prop where
  held : left.held = memory.held
  verbatim : memory.slots.Lasting → left.slots = memory.slots

theorem unchanged_keyType (memory : Memory) (key : String) :
    Unchanged memory (memory.perform (.keyType key)).2 where
  held := memory.held_perform_keyType key
  verbatim lasting := congrArg Memory.slots (Memory.look lasting key)

/-- What a reply leads an operation to, and what the request leaves. -/
structure Replied (space : Keyspace) (queue : String) (operation : RecurringOperation) (memory : Memory)
    (before after : Task QueueError (Option String)) (left : Memory) : Prop where
  place : RecurringPlace space queue operation after
  /-- The operation has ended with its transaction, or its request has changed nothing. -/
  ends : (∃ answer, after = .done answer ∧
      memory.slots.writeAll memory.clock (operation.writes space queue) = .ok left.slots) ∨
    ((∀ answer, after ≠ .done answer) ∧ Unchanged memory left)
  /-- The operation is refused exactly if its second look finds another queue than the first. -/
  refused : (∃ error, after = .fail error ∧ error.kind = .state) ↔
    ∃ found, before = operation.lookingAgain space queue found ∧ memory.unavailable = false ∧
      (memory.typeOf (space.queue queue)).1 ≠ found

/-- A failure of the store is no refusal. -/
theorem store_not_refused {cause : StoreError} : ¬ ∃ error,
    (.fail (.store cause) : Task QueueError (Option String)) = .fail error ∧ error.kind = .state := by
  rintro ⟨error, same, refuses⟩
  cases same
  exact cause.kind_ne_state refuses

section Replies

variable {operation : RecurringOperation} {request : Request}
  {rest : Except StoreError request.Reply → Task QueueError (Option String)}

theorem replied_looking (asks : .call request rest = operation.looking space queue) :
    Replied space queue operation memory (.call request rest) (rest (memory.perform request).1)
      (memory.perform request).2 := by
  cases asks
  have once : ¬ ∃ found, operation.looking space queue = operation.lookingAgain space queue found ∧
      memory.unavailable = false ∧ (memory.typeOf (space.queue queue)).1 ≠ found :=
    fun ⟨_, same, _⟩ => RecurringOperation.looking_ne_lookingAgain same
  have unchanged := unchanged_keyType memory (space.queue queue)
  rcases answer_keyType memory (space.queue queue) with ⟨-, answer⟩ | ⟨-, answer⟩ <;> rw [answer]
  · exact ⟨.failed _, .inr ⟨nofun, unchanged⟩, iff_of_false store_not_refused once⟩
  · exact ⟨.lookingAgain _, .inr ⟨nofun, unchanged⟩, iff_of_false nofun once⟩

theorem Recurs.replied_lookingAgain
    (recurs : Recurs space queue memory.held table.scores table.frequencies) {found : KeyType}
    (asks : .call request rest = operation.lookingAgain space queue found) :
    Replied space queue operation memory (.call request rest) (rest (memory.perform request).1)
      (memory.perform request).2 := by
  cases asks
  have unchanged := unchanged_keyType memory (space.recurring queue)
  rcases answer_keyType memory (space.recurring queue) with
    ⟨unavailable, answer⟩ | ⟨available, answer⟩ <;> rw [answer]
  · refine ⟨.failed _, .inr ⟨nofun, unchanged⟩, iff_of_false store_not_refused ?_⟩
    rintro ⟨_, -, available, -⟩
    exact Bool.noConfusion (unavailable.symm.trans available)
  · dsimp only
    split
    · next suits =>
      have still := (recurs.suits_iff found).mp suits
      refine ⟨.writing, .inr ⟨nofun, unchanged⟩, iff_of_false nofun ?_⟩
      rintro ⟨later, same, -, differ⟩
      exact differ (still.trans (RecurringOperation.lookingAgain_inj same))
    · next unsuited =>
      have differ := mt (recurs.suits_iff found).mpr unsuited
      exact ⟨.failed _, .inr ⟨nofun, unchanged⟩, iff_of_true ⟨_, rfl, rfl⟩ ⟨found, rfl, available, differ⟩⟩

theorem Recurs.replied_writing (recurs : Recurs space queue memory.held table.scores table.frequencies)
    (asks : .call request rest = operation.writing space queue) :
    Replied space queue operation memory (.call request rest) (rest (memory.perform request).1)
      (memory.perform request).2 := by
  cases asks
  have never : ¬ ∃ found, operation.writing space queue = operation.lookingAgain space queue found ∧
      memory.unavailable = false ∧ (memory.typeOf (space.queue queue)).1 ≠ found :=
    fun ⟨_, same, _⟩ => RecurringOperation.writing_ne_lookingAgain same
  by_cases unavailable : memory.unavailable = true
  · rw [Memory.perform_unavailable unavailable]
    exact ⟨.failed _, .inr ⟨nofun, rfl, fun _ => rfl⟩, iff_of_false store_not_refused never⟩
  · obtain ⟨after, made, -⟩ := recurs.writeAll? operation
    obtain ⟨slots, written, -⟩ := Slots.writeAll_iff.mp made
    have made := @Memory.transact (· = slots) memory (eq_false_of_ne_true unavailable) _ slots written rfl
    rcases made with ⟨cause, next, -, performed, same⟩ | ⟨next, performed, rfl⟩
    · have held := memory.held_perform_transaction (congrArg Prod.fst performed)
      rw [performed] at held ⊢
      exact ⟨.failed _, .inr ⟨nofun, held, fun _ => same⟩, iff_of_false store_not_refused never⟩
    · rw [performed]
      exact ⟨.done _, .inl ⟨none, rfl, written⟩, iff_of_false nofun never⟩

theorem Recurs.replied (recurs : Recurs space queue memory.held table.scores table.frequencies)
    (place : RecurringPlace space queue operation (.call request rest)) :
    Replied space queue operation memory (.call request rest) (rest (memory.perform request).1)
      (memory.perform request).2 := by
  generalize asks : Task.call request rest = program at place
  cases place with
  | looking => exact asks ▸ replied_looking asks
  | lookingAgain found => exact asks ▸ recurs.replied_lookingAgain asks
  | writing => exact asks ▸ recurs.replied_writing asks
  | done | failed => contradiction

end Replies

end Requests

/-! ## Runs -/

/-- The keys that an operation writes to. -/
theorem RecurringOperation.mem_writes {operation : RecurringOperation} {write : Write}
    (member : write ∈ operation.writes space queue) :
    write.key = space.queue queue ∨ write.key = space.recurring queue ∨ write.key = space.queues := by
  cases operation <;> simp only [writes, registering, List.mem_cons, List.not_mem_nil, or_false] at member
  · rcases member with rfl | rfl | rfl
    · exact .inr (.inr rfl)
    · exact .inl rfl
    · exact .inr (.inl rfl)
  · rcases member with rfl | rfl
    · exact .inr (.inl rfl)
    · exact .inl rfl

section Runs

variable {ι : Type} {start : Memory} {world next : RecurringUsers ι} {done : List RecurringOperation}

/-- The store is what some operations and time have made of another one, and every process is where it can
be. -/
structure Follows (space : Keyspace) (queue : String) (start : Memory) (done : List RecurringOperation)
    (world : RecurringUsers ι) : Prop where
  recurs : Recurs space queue world.memory.held (done.foldl Timetable.after []).scores
    (done.foldl Timetable.after []).frequencies
  others : ∀ key, key ≠ space.queue queue → key ≠ space.recurring queue → key ≠ space.queues →
    world.memory.held key = start.slots.held world.memory.clock key
  verbatim : start.slots.Lasting → world.memory.slots.Lasting ∧
    ∀ now, start.slots.writeAll now (done.flatMap (RecurringOperation.writes space queue)) =
      .ok world.memory.slots
  placed : ∀ who process, world.process who = some process →
    RecurringPlace space queue process.operation process.program

variable [DecidableEq ι] {move : Move ι RecurringOperation}

/-- A process that goes on is refused if it fails for the kind of the queue. -/
theorem refuses_put {who : ι} (own : ∀ other, move.isOf other = true ↔ other = who)
    (process : Process RecurringOperation QueueError (Option String)) :
    Refuses move (world.put who process) ↔ ∃ error, process.program = .fail error ∧ error.kind = .state := by
  constructor
  · rintro ⟨other, operation, error, same, returned, refused⟩
    obtain ⟨since, found⟩ := World.failed_of_returned? returned
    rw [(own other).mp same, World.put_same] at found
    cases found
    exact ⟨error, rfl, refused⟩
  · rintro ⟨error, failed, refused⟩
    refine ⟨who, process.operation, error, (own who).mpr rfl, ?_, refused⟩
    rw [World.returned?_put, failed]
    rfl

/-- A move that is nobody's refuses nobody. -/
theorem refuses_iff_torn_of_nobody (nobody : ∀ who, move.isOf who = false) :
    Refuses move next ↔ Torn space queue world move := by
  refine iff_of_false ?_ ?_
  · rintro ⟨who, _, _, own, -⟩
    exact Bool.noConfusion (own.symm.trans (nobody who))
  · rintro ⟨who, _, _, _, rfl, -⟩
    have own : Move.isOf who (.advance who : Move ι RecurringOperation) = true := decide_eq_true rfl
    exact Bool.noConfusion (own.symm.trans (nobody who))

namespace Follows

omit [DecidableEq ι] in
/-- Time passes. -/
theorem later (follows : Follows space queue start done world) (millis : Nat) :
    Follows space queue start done { world with memory := world.memory.advance millis } where
  recurs := follows.recurs.later (Nat.le_add_right _ millis)
  others key queue companion names := by
    have since := Nat.le_add_right world.memory.clock millis
    refine (world.memory.slots.held_later since key).trans (.trans ?_ (start.slots.held_later since key).symm)
    exact congrArg (Option.filter _) (follows.others key queue companion names)
  verbatim := follows.verbatim
  placed := follows.placed

/-- One process goes on, and nothing is written. -/
theorem looked (follows : Follows space queue start done world) {memory : Memory}
    (unchanged : Unchanged world.memory memory) (clock : memory.clock = world.memory.clock) {who : ι}
    {process : Process RecurringOperation QueueError (Option String)}
    (place : RecurringPlace space queue process.operation process.program) :
    Follows space queue start done (World.put ⟨memory, world.process⟩ who process) where
  recurs := by
    rw [World.put_memory, unchanged.held]
    exact follows.recurs
  others := by
    rw [World.put_memory, unchanged.held, clock]
    exact follows.others
  verbatim lasting := by
    obtain ⟨still, same⟩ := follows.verbatim lasting
    rw [World.put_memory, unchanged.verbatim still]
    exact ⟨still, same⟩
  placed := World.forall_put follows.placed place

/-- One process ends with its transaction. -/
theorem wrote (follows : Follows space queue start done world) {memory : Memory} (who : ι)
    (process : Process RecurringOperation QueueError (Option String))
    (place : RecurringPlace space queue process.operation process.program)
    (clock : memory.clock = world.memory.clock)
    (written : world.memory.slots.writeAll world.memory.clock (process.operation.writes space queue) =
      .ok memory.slots) :
    Follows space queue start (done ++ [process.operation])
      (World.put ⟨memory, world.process⟩ who process) := by
  have effect : Holdings.writeAll? world.memory.held (process.operation.writes space queue) =
      some memory.held := Slots.writeAll_iff.mpr ⟨_, written, by rw [← clock]; rfl⟩
  constructor
  · obtain ⟨after, made, left⟩ := follows.recurs.writeAll? process.operation
    cases effect.symm.trans made
    rw [List.foldl_append]
    exact left
  · intro key queue companion names
    rw [World.put_memory, clock, Holdings.writeAll?_other effect, follows.others key queue companion names]
    intro write member same
    rcases RecurringOperation.mem_writes member with own | own | own
    · exact queue (same.trans own)
    · exact companion (same.trans own)
    · exact names (same.trans own)
  · intro lasting
    obtain ⟨still, same⟩ := follows.verbatim lasting
    obtain ⟨left, always⟩ := still.always_writeAll written
    refine ⟨left, fun now => ?_⟩
    rw [List.flatMap_append, List.flatMap_singleton]
    exact Slots.writeAll_append (same now) (always now)
  · exact World.forall_put follows.placed place

omit [DecidableEq ι] in
/-- Nothing is added to the operations. -/
theorem nothing_added (follows : Follows space queue start done world) :
    Follows space queue start (done ++ []) world := by
  rwa [List.append_nil]

/-- A process that goes on adds its operation, if that is its end; and it is refused exactly if its look is
torn. -/
theorem answered (follows : Follows space queue start done world) {who : ι} {operation : RecurringOperation}
    {request : Request} {rest : Except StoreError request.Reply → Task QueueError (Option String)}
    {since : Nat} (found : world.process who = some ⟨operation, .call request rest, since⟩)
    (goesTo : World.put ⟨(world.memory.perform request).2, world.process⟩ who
      ⟨operation, rest (world.memory.perform request).1, (world.memory.perform request).2.clock⟩ = next) :
    Follows space queue start (done ++ (next.completed? (.advance who)).toList.map Completion.operation) next ∧
      (Refuses (.advance who) next ↔ Torn space queue world (.advance who)) := by
  subst goesTo
  have replied := follows.recurs.replied (follows.placed who _ found)
  have clock := Memory.clock_perform world.memory request
  rw [World.completed?_advance, refuses_put (fun other => by simp [Move.isOf, eq_comm])]
  constructor
  · rcases replied.ends with ⟨answer, ended, written⟩ | ⟨goesOn, unchanged⟩
    · have after := follows.wrote who
        ⟨operation, _, (world.memory.perform request).2.clock⟩ replied.place clock written
      simp only [ended, Process.completion?] at after ⊢
      exact after
    · have nothing : Process.completion? who ⟨operation, rest (world.memory.perform request).1,
          (world.memory.perform request).2.clock⟩ = none := by
        unfold Process.completion?
        split
        · next answer ended => exact absurd ended (goesOn answer)
        · rfl
      rw [nothing]
      exact (follows.looked unchanged clock replied.place).nothing_added
  · refine replied.refused.trans ?_
    constructor
    · rintro ⟨type, again, available, differ⟩
      exact ⟨who, operation, type, since, rfl, again ▸ found, available, differ⟩
    · rintro ⟨_, other, type, _, own, process, available, differ⟩
      cases own
      cases found.symm.trans process
      exact ⟨type, rfl, available, differ⟩

/-- A move adds the operation that it commits, if any; and it refuses one exactly if it is torn. -/
theorem step (follows : Follows space queue start done world)
    (step : world.step? (RecurringOperation.programs space queue) move = some next) :
    Follows space queue start (done ++ (next.completed? move).toList.map Completion.operation) next ∧
      (Refuses move next ↔ Torn space queue world move) := by
  cases move with
  | tick millis =>
    cases step
    exact ⟨(follows.later millis).nothing_added, refuses_iff_torn_of_nobody fun _ => rfl⟩
  | reach available | spoil =>
    cases step
    refine ⟨nothing_added ?_, refuses_iff_torn_of_nobody fun _ => rfl⟩
    exact ⟨follows.recurs, follows.others, follows.verbatim, follows.placed⟩
  | start who operation =>
    obtain ⟨-, rfl⟩ := World.step?_start step
    have same : Unchanged world.memory world.memory := ⟨rfl, fun _ => rfl⟩
    have untorn : ¬ Torn space queue world (.start who operation) := by
      rintro ⟨_, _, _, _, own, -⟩
      contradiction
    rw [World.completed?_start, refuses_put (fun other => by simp [Move.isOf, eq_comm])]
    rcases operation.program_cases with begins | ⟨cause, begins⟩ <;> rw [RecurringOperation.programs, begins]
    · refine ⟨(follows.looked same rfl .looking).nothing_added, iff_of_false ?_ untorn⟩
      rintro ⟨_, fails, _⟩
      contradiction
    · refine ⟨(follows.looked same rfl (.failed _)).nothing_added, iff_of_false ?_ untorn⟩
      rintro ⟨error, fails, refused⟩
      cases fails
      contradiction
  | advance who =>
    rcases World.step?_advance step with
      ⟨operation, request, rest, since, found, goesTo⟩ | ⟨operation, millis, rest, since, found, -⟩
    · exact follows.answered found goesTo.symm
    · -- no operation waits
      have place := follows.placed who _ found
      cases place

/-- A run adds the operations that it commits, and refuses one exactly where it is torn. -/
theorem run (follows : Follows space queue start done world) {moves : List (Move ι RecurringOperation)}
    {last : RecurringUsers ι}
    (run : world.run? (RecurringOperation.programs space queue) moves = some last) :
    Follows space queue start (done ++ committed space queue world moves) last ∧
      ∀ made ∈ world.trace (RecurringOperation.programs space queue) moves, ∀ next,
        made.1.step? (RecurringOperation.programs space queue) made.2 = some next →
          (Refuses made.2 next ↔ Torn space queue made.1 made.2) := by
  induction moves generalizing world done with
  | nil =>
    cases run
    exact ⟨follows.nothing_added, List.forall_mem_nil _⟩
  | cons move moves ih =>
    obtain ⟨next, step, rest⟩ := Option.bind_eq_some_iff.mp run
    obtain ⟨after, refused⟩ := follows.step step
    obtain ⟨final, others⟩ := ih after rest
    rw [committed, World.completions_cons step, List.map_append, ← List.append_assoc, World.trace, step]
    refine ⟨final, List.forall_mem_cons.mpr ⟨?_, others⟩⟩
    intro other again
    cases step.symm.trans again
    exact refused

end Follows

/-- Whatever clients of a queue that was not used do at once, what comes out is what their transactions do one
after the other; and a client is refused exactly if the queue comes into being or ceases to be between its
looks. -/
theorem serial_of_run {before world : RecurringUsers ι} (unused : Unused space queue before.memory)
    (idle : ∀ who, before.isIdle who = true) {moves : List (Move ι RecurringOperation)}
    (run : before.run? (RecurringOperation.programs space queue) moves = some world) :
    Serial space queue before moves world := by
  have recurs := Recurs.of_unused unused
  have begins : Follows space queue before.memory [] before := by
    refine ⟨recurs, fun _ _ _ _ => rfl, fun lasting => ⟨lasting, fun _ => rfl⟩, fun who process found => ?_⟩
    have ended := idle who
    rw [World.isIdle, found] at ended
    obtain ⟨operation, program, since⟩ := process
    cases program with
    | done answer => exact .done answer
    | fail error => exact .failed error
    | call | sleep => contradiction
  obtain ⟨follows, refused⟩ := begins.run run
  rw [List.nil_append] at follows
  refine ⟨fun now since => ?_, follows.recurs.contents_queue, follows.recurs.contents_companion, ?_,
    fun lasting => (follows.verbatim lasting).2, refused⟩
  · obtain ⟨after, made, left⟩ := @Recurs.replay _ _ _ [] (recurs.later since) (committed space queue before moves)
    obtain ⟨alone, written, rfl⟩ := Slots.writeAll_iff.mp made
    refine ⟨alone, written, ?_, ?_⟩
    · exact left.contents_queue.trans follows.recurs.contents_queue.symm
    · exact left.contents_companion.trans follows.recurs.contents_companion.symm
  · intro key queue companion names
    exact congrArg (Option.map Slot.entry) (follows.others key queue companion names)

end Runs

/-- A store with another queue, and with fields at the companion of this one whose time has come. -/
def beforeRush : RecurringUsers Nat where
  memory := {
    slots := [("app:queues", ⟨.set ["reports"], none⟩), ("app:queue:reports", ⟨.list ["r"], none⟩),
      ("app:queue:mail:recurring", ⟨.hash [("a", "1")], some 3⟩)]
    clock := 7 }

/-- Three clients look at a queue that does not exist yet; two repeat a payload, the third is refused at its
second look and tries again; and one of the payloads is stopped. -/
def rush : List (Move Nat RecurringOperation) :=
  [.start 0 (.recur "a" 5 1000), .advance 0, .advance 0,
    .start 1 (.recur "b" 3 60), .advance 1, .advance 1, .start 2 (.recur "a" 7 10), .advance 2,
    .advance 1, .advance 2, .advance 0,
    .start 2 (.recur "a" 7 10), .advance 2, .start 1 (.stop "b"), .advance 1, .advance 1, .advance 2,
    .advance 2, .advance 1]

theorem serial_of_run_rush :
    ∃ world, beforeRush.run? (RecurringOperation.programs ⟨"app"⟩ "mail") rush = some world ∧
      committed ⟨"app"⟩ "mail" beforeRush rush =
        [.recur "b" 3 60, .recur "a" 5 1000, .recur "a" 7 10, .stop "b"] ∧
      Serial ⟨"app"⟩ "mail" beforeRush rush world := by
  have unused : Unused ⟨"app"⟩ "mail" beforeRush.memory :=
    ⟨by decide +kernel, by decide +kernel, by decide +kernel⟩
  have possible : (beforeRush.run? (RecurringOperation.programs ⟨"app"⟩ "mail") rush).isSome = true := by
    decide +kernel
  obtain ⟨world, run⟩ := Option.isSome_iff_exists.mp possible
  exact ⟨world, run, by decide +kernel, serial_of_run unused (fun _ => rfl) run⟩

/-- A client looks at a queue that does not exist yet, another repeats a payload, and the first looks
again. -/
def torn : List (Move Nat RecurringOperation) :=
  [.start 0 (.recur "a" 0 1000), .advance 0,
    .start 1 (.recur "b" 0 1000), .advance 1, .advance 1, .advance 1, .advance 0]

/-- The first client is refused, though nobody uses the queue for anything else and no store fails. -/
theorem torn_refused :
    ∃ world, World.fresh.run? (RecurringOperation.programs ⟨"app"⟩ "mail") torn = some world ∧
      world.returned? 1 = some (.recur "b" 0 1000, .ok none) ∧
      ∃ error, world.returned? 0 = some (.recur "a" 0 1000, .error error) ∧ error.kind = .state ∧
        error = .wrongKind "mail" .recurring (.withCompanion .absent .hash) := by
  have made : (World.fresh.run? (RecurringOperation.programs ⟨"app"⟩ "mail") torn).bind
      (World.returned? · 1) =
      some (.recur "b" 0 1000, .ok none) := by decide +kernel
  have refused : (World.fresh.run? (RecurringOperation.programs ⟨"app"⟩ "mail") torn).bind
      (World.returned? · 0) =
      some (.recur "a" 0 1000, .error (.wrongKind "mail" .recurring (.withCompanion .absent .hash))) := by
    decide +kernel
  obtain ⟨world, run, answered⟩ := Option.bind_eq_some_iff.mp made
  rw [run] at refused
  exact ⟨world, run, answered, _, refused, rfl, rfl⟩

end Queue

end JobQueue
