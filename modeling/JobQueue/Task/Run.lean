import JobQueue.Store.Memory
import JobQueue.Task

/-! # Running programs against a store in memory

A program runs alone, or among others: then the others may change the store just before each request
arrives, depending on what was requested so far. The requests are recorded in order.
-/

namespace JobQueue

/-- A store in memory and the requests that were made to it, the latest first. -/
structure Observed where
  memory : Memory
  requests : List Request := []

namespace Observed

/-- The requests in the order in which they were made. -/
def log (seen : Observed) : List Request := seen.requests.reverse

end Observed

/-- What others do to the store before a request arrives, given that request and, before it, the earlier
ones, the latest first. -/
abbrev Interference := List Request → Memory → Memory

namespace Task

variable {ε α : Type}

/-- Runs a program among others. -/
def runAmong (others : Interference) : Task ε α → Observed → Except ε α × Observed
  | done a, seen => (.ok a, seen)
  | fail error, seen => (.error error, seen)
  | call request next, seen =>
    let requests := request :: seen.requests
    let (answer, memory) := (others requests seen.memory).perform request
    (next answer).runAmong others { memory, requests }
  | sleep millis next, seen => next.runAmong others { seen with memory := seen.memory.advance millis }

/-- Runs a program alone. -/
def run : Task ε α → Memory → Except ε α × Memory
  | done a, memory => (.ok a, memory)
  | fail error, memory => (.error error, memory)
  | call request next, memory =>
    let (answer, memory) := memory.perform request
    (next answer).run memory
  | sleep millis next, memory => next.run (memory.advance millis)

@[simp] theorem run_done (a : α) (memory : Memory) : (done a : Task ε α).run memory = (.ok a, memory) := rfl

@[simp] theorem run_fail (error : ε) (memory : Memory) :
    (fail error : Task ε α).run memory = (.error error, memory) := rfl

@[simp] theorem run_call (request : Request) (next : Except StoreError request.Reply → Task ε α)
    (memory : Memory) :
    (call request next).run memory =
      (next (memory.perform request).1).run (memory.perform request).2 := rfl

@[simp] theorem run_sleep (millis : Nat) (next : Task ε α) (memory : Memory) :
    (sleep millis next).run memory = next.run (memory.advance millis) := rfl

theorem run_bind {β : Type} (task : Task ε α) (next : α → Task ε β) (memory : Memory) :
    (task.bind next).run memory = match task.run memory with
      | (.ok a, memory) => (next a).run memory
      | (.error error, memory) => (.error error, memory) := by
  induction task generalizing memory with
  | done a => rfl
  | fail error => rfl
  | call request rest ih => exact ih _ _
  | sleep millis rest ih => exact ih _

end Task

end JobQueue
