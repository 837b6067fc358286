import JobQueue.Proofs.Task

/-! # The operations on one queue

Every operation looks at the types of the queue's keys, if at all, and then makes one request that may
write. With its reply the operation is over.
-/

namespace JobQueue.Queue

/-- What is done with a simple queue. Workers do the same with every queue. -/
inductive ListOperation where
  | enqueue (payload : String)
  | enqueueFirst (payload : String)
  | enqueueAll (payloads : List String)
  | dequeue (worker : String) (now : Int)
  | removeInflight (worker : String)
  | restoreInflight (worker : String) (now : Int)
deriving DecidableEq, Repr

namespace ListOperation

section Programs

variable (space : Keyspace) (queue : String)

/-- The program of an operation. A write that succeeds answers with no payload. -/
def program : ListOperation → Task QueueError (Option String)
  | enqueue payload => do Queue.enqueue space queue payload; return none
  | enqueueFirst payload => do Queue.enqueueFirst space queue payload; return none
  | enqueueAll payloads => do Queue.enqueueAll space queue payloads; return none
  | dequeue worker now => Queue.dequeue space worker queue now
  | removeInflight worker => Queue.removeInflight space worker queue
  | restoreInflight worker now => Queue.restoreInflight space worker queue now

/-- The one request of an operation that may write. -/
def request : ListOperation → Request
  | enqueue payload => .transaction (registering space queue [.append (space.queue queue) payload])
  | enqueueFirst payload => .transaction (registering space queue [.prepend (space.queue queue) payload])
  | enqueueAll payloads =>
    .transaction (registering space queue (payloads.map (.append (space.queue queue))))
  | dequeue worker now => .popToInflight (route space worker queue) now
  | removeInflight worker => .popInflight (space.inflight worker queue)
  | restoreInflight worker now => .restoreInflight (route space worker queue) now

/-- What an operation answers with when its request is replied to. -/
def answer : (operation : ListOperation) → (operation.request space queue).Reply → Option String
  | enqueue _, _ | enqueueFirst _, _ | enqueueAll _, _ => none
  | dequeue .., payload? | removeInflight _, payload? | restoreInflight .., payload? => payload?

/-- What is left of an operation that is about to write. -/
def writing (operation : ListOperation) : Task QueueError (Option String) :=
  asking (operation.request space queue) fun reply => .done (operation.answer space queue reply)

/-- What is left of an operation that looks first whether the queue is simple. -/
def looking (operation : ListOperation) : Task QueueError (Option String) :=
  asking (.keyType (space.queue queue)) fun found =>
    if found = .absent ∨ found = .list then operation.writing space queue
    else .fail (.wrongKind queue .simple (.alone found))

end Programs

variable {space : Keyspace} {queue : String}

theorem demandName_eq (named : queue ≠ "") : demandName queue = .done () := if_pos (bne_iff_ne.mpr named)

/-- A write looks first whether the queue is of its kind, and then makes one transaction. -/
theorem checkedWrite_eq (named : queue ≠ "") {require : Task QueueError Unit} {own : KeyType}
    {kind : QueueKind}
    (looks : require = asking (.keyType (space.queue queue)) fun found =>
      if found = .absent ∨ found = own then .done () else .fail (.wrongKind queue kind (.alone found)))
    (writes : List Write) :
    (do
      let _ ← (do demandName queue; require; commit writes)
      return none : Task QueueError (Option String)) =
      asking (.keyType (space.queue queue)) fun found =>
        if found = .absent ∨ found = own then asking (.transaction writes) fun _ => .done none
        else .fail (.wrongKind queue kind (.alone found)) := by
  rw [demandName_eq named, looks]
  change (asking _ _ >>= fun _ => commit writes) >>= (fun _ => Task.done none) = _
  rw [asking_bind, asking_bind]
  apply congrArg (asking _)
  funext found
  split
  · exact ask_bind _ _
  · rfl

theorem requireSimple_eq : requireSimple space queue = asking (.keyType (space.queue queue)) fun found =>
    if found = .absent ∨ found = .list then .done () else .fail (.wrongKind queue .simple (.alone found)) :=
  ask_bind _ _

/-- A worker is given what is due with one request. -/
theorem program_dequeue (named : queue ≠ "") (worker : String) (now : Int) :
    (dequeue worker now).program space queue = (dequeue worker now).writing space queue := by
  unfold program Queue.dequeue
  rw [demandName_eq named]
  exact ask_eq _

/-- No payloads are put into a queue without a request. -/
theorem program_enqueueAll_nil (named : queue ≠ "") : (enqueueAll []).program space queue = .done none := by
  unfold program Queue.enqueueAll
  rw [demandName_eq named]
  rfl

/-- An operation begins by looking or by writing. -/
theorem program_cases (named : queue ≠ "") (operation : ListOperation) :
    operation = enqueueAll [] ∨ operation.program space queue = operation.looking space queue ∨
      operation.program space queue = operation.writing space queue := by
  cases operation with
  | enqueue payload => exact .inr (.inl (checkedWrite_eq named requireSimple_eq _))
  | enqueueFirst payload => exact .inr (.inl (checkedWrite_eq named requireSimple_eq _))
  | enqueueAll payloads =>
    cases payloads with
    | nil => exact .inl rfl
    | cons payload payloads => exact .inr (.inl (checkedWrite_eq named requireSimple_eq _))
  | dequeue worker now => exact .inr (.inr (program_dequeue named worker now))
  | removeInflight worker => exact .inr (.inr (ask_eq _))
  | restoreInflight worker now => exact .inr (.inr (ask_eq _))

end ListOperation

theorem requireDelayed_eq {space : Keyspace} {queue : String} : requireDelayed space queue =
    asking (.keyType (space.queue queue)) fun found => if found = .absent ∨ found = .sortedSet then .done ()
      else .fail (.wrongKind queue .delayed (.alone found)) :=
  ask_bind _ _

/-- What is done with a queue of any kind. -/
inductive Operation where
  | list (operation : ListOperation)
  | enqueueDelayed (payload : String) (readyAt : Int)
  | removeDelayed (payload : String)
  | enqueueRecurring (payload : String) (nextFire : Int) (frequency : Nat)
  | removeRecurring (payload : String)
deriving DecidableEq, Repr

namespace Operation

section Programs

variable (space : Keyspace) (queue : String)

/-- The program of an operation. A write that succeeds answers with no payload. -/
def program : Operation → Task QueueError (Option String)
  | list operation => operation.program space queue
  | enqueueDelayed payload readyAt => do Queue.enqueueDelayed space queue payload readyAt; return none
  | removeDelayed payload => do Queue.removeDelayed space queue payload; return none
  | enqueueRecurring payload nextFire frequency => do
    Queue.enqueueRecurring space queue payload nextFire frequency
    return none
  | removeRecurring payload => do Queue.removeRecurring space queue payload; return none

/-- The one request of an operation that may write. -/
def request : Operation → Request
  | list operation => operation.request space queue
  | enqueueDelayed payload readyAt =>
    .transaction (registering space queue [.schedule (space.queue queue) (Binary64.ofInt readyAt) payload])
  | removeDelayed payload => .transaction [.unschedule (space.queue queue) payload]
  | enqueueRecurring payload nextFire frequency => .transaction (registering space queue [
      .schedule (space.queue queue) (Binary64.ofInt nextFire) payload,
      .setField (space.recurring queue) payload (String.ofList (Text.integer frequency))])
  | removeRecurring payload => .transaction [
      .dropField (space.recurring queue) payload, .unschedule (space.queue queue) payload]

/-- What an operation answers with when its request is replied to. -/
def answer : (operation : Operation) → (operation.request space queue).Reply → Option String
  | list operation, reply => operation.answer space queue reply
  | enqueueDelayed .., _ | removeDelayed _, _ | enqueueRecurring .., _ | removeRecurring _, _ => none

/-- What is left of an operation that is about to write. -/
def writing (operation : Operation) : Task QueueError (Option String) :=
  asking (operation.request space queue) fun reply => .done (operation.answer space queue reply)

end Programs

/-- What may be left of an operation: it looks at types, it makes its last request, or it has ended. -/
inductive Preparing {α : Type} (last : Task QueueError α) : Task QueueError α → Prop
  | last : Preparing last last
  | look (key : String) {next : Except StoreError KeyType → Task QueueError α}
    (leads : ∀ answer, Preparing last (next answer)) : Preparing last (.call (.keyType key) next)
  | done (a : α) : Preparing last (.done a)
  | fail (error : QueueError) : Preparing last (.fail error)

namespace Preparing

variable {α : Type} {last : Task QueueError α}

theorem demand {holds : Bool} {cause : BadArgument} {rest : Unit → Task QueueError α}
    (leads : Preparing last (rest ())) : Preparing last (Queue.demand holds cause >>= rest) := by
  cases holds with
  | true => exact leads
  | false => exact .fail _

theorem asked {key : String} {rest : KeyType → Task QueueError α}
    (leads : ∀ found, Preparing last (rest found)) :
    Preparing last (ask (.keyType key) >>= rest) := by
  rw [ask_bind]
  apply Preparing.look key
  intro answer
  cases answer with
  | ok found => exact leads found
  | error cause => exact .fail _

theorem require {condition : Prop} [Decidable condition] {error : QueueError}
    {rest : Unit → Task QueueError α} (leads : Preparing last (rest ())) :
    Preparing last ((if condition then Task.done () else Task.fail error) >>= rest) := by
  split
  · exact leads
  · exact .fail _

theorem commit (writes : List Write) (answer : α) :
    Preparing (asking (.transaction writes) fun _ => .done answer)
      (Queue.commit writes >>= fun _ => pure answer) := by
  rw [Queue.commit, ask_bind]
  exact .last

end Preparing

variable {space : Keyspace} {queue : String}

theorem preparing_list (operation : ListOperation) :
    Preparing (operation.writing space queue) (operation.program space queue) := by
  cases operation with
  | enqueue payload | enqueueFirst payload =>
    simp only [ListOperation.program, Queue.enqueue, Queue.enqueueFirst, requireSimple, bind_assoc]
    exact .demand (.asked fun found => .require (.commit _ _))
  | enqueueAll payloads =>
    simp only [ListOperation.program, Queue.enqueueAll, requireSimple, bind_assoc]
    refine .demand ?_
    split
    · exact .done _
    · simp only [bind_assoc]
      exact .asked fun found => .require (.commit _ _)
  | dequeue worker now =>
    refine .demand ?_
    rw [ask_eq]
    exact .last
  | removeInflight worker =>
    rw [ListOperation.program, Queue.removeInflight, ask_eq]
    exact .last
  | restoreInflight worker now =>
    rw [ListOperation.program, Queue.restoreInflight, ask_eq]
    exact .last

/-- An operation looks at types, if at all, and then makes its one request that may write. -/
theorem preparing_program (operation : Operation) :
    Preparing (operation.writing space queue) (operation.program space queue) := by
  cases operation with
  | list operation => exact preparing_list operation
  | enqueueDelayed payload readyAt =>
    simp only [program, Queue.enqueueDelayed, requireDelayed, bind_assoc]
    exact .demand (.asked fun found => .require (.commit _ _))
  | removeDelayed payload =>
    simp only [program, Queue.removeDelayed, requireDelayed, bind_assoc]
    exact .demand (.asked fun found => .require (.commit _ _))
  | enqueueRecurring payload nextFire frequency =>
    simp only [program, Queue.enqueueRecurring, requireRecurring, bind_assoc]
    exact .demand (.demand (.asked fun found => .asked fun companion => .require (.commit _ _)))
  | removeRecurring payload =>
    simp only [program, Queue.removeRecurring, requireRecurring, bind_assoc]
    exact .demand (.asked fun found => .asked fun companion => .require (.commit _ _))

end Operation

end JobQueue.Queue
