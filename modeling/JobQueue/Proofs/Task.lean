import JobQueue.Queue

/-! # Programs by their next request

A program has ended or asks its next request. `asking` is the shape in which queues and locks ask: an answer
leads on, and an error of the store is the error of the program.
-/

namespace JobQueue

namespace Task

variable {ε α : Type}

/-- What a program that has ended has ended with. -/
def outcome? : Task ε α → Option (Except ε α)
  | done a => some (.ok a)
  | fail error => some (.error error)
  | _ => none

end Task

/-- No failure of a store is about the kind of a queue. -/
theorem StoreError.kind_ne_state (cause : StoreError) : cause.kind ≠ .state := by
  cases cause <;> exact ErrorKind.noConfusion

namespace Queue

variable {α β : Type}

/-- Asks a request; an answer leads on, and an error is the end. -/
def asking (request : Request) (next : request.Reply → Task QueueError α) : Task QueueError α :=
  .call request fun
    | .ok reply => next reply
    | .error cause => .fail (.store cause)

theorem ask_eq (request : Request) : ask request = asking request Task.done := by
  apply congrArg (Task.call request)
  funext answer
  cases answer <;> rfl

theorem asking_bind (request : Request) (next : request.Reply → Task QueueError α)
    (rest : α → Task QueueError β) :
    asking request next >>= rest = asking request fun reply => next reply >>= rest := by
  apply congrArg (Task.call request)
  funext answer
  cases answer <;> rfl

theorem ask_bind (request : Request) (next : request.Reply → Task QueueError α) :
    ask request >>= next = asking request next := by
  rw [ask_eq, asking_bind]
  rfl

end Queue

end JobQueue
