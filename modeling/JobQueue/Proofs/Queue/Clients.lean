import Mathlib.Control.Monad.Basic
import JobQueue.Proofs.Interleaving
import JobQueue.Proofs.Queue.Layout

/-! # Clients that share many queues

Any number of clients work on any number of queues. A client looks at the type of a queue before it writes,
and by then another may have changed it; then the write fails, and nothing is lost but that errand. So every
place only ever holds what may be there, and a worker, which does not look, never meets a key of the wrong
type.
-/

namespace JobQueue.Queue

variable {space : Keyspace}

/-- What a client may ask for. -/
inductive Errand where
  | on (queue : PlainName) (operation : Operation)
  | ping
deriving DecidableEq

namespace Errand

variable (space : Keyspace)

/-- The program of an errand. A sign of life answers with no payload. -/
def program : Errand → Task QueueError (Option String)
  | on queue operation => operation.program space queue
  | ping => do Queue.ping; return none

/-- The one request of an errand that may write. -/
def request : Errand → Request
  | on queue operation => operation.request space queue
  | ping => .ping

/-- What an errand answers with when its request is replied to. -/
def answer : (errand : Errand) → (errand.request space).Reply → Option String
  | on queue operation, reply => operation.answer space queue reply
  | ping, _ => none

/-- What is left of an errand that is about to make its last request. -/
def writing (errand : Errand) : Task QueueError (Option String) :=
  asking (errand.request space) fun reply => .done (errand.answer space reply)

/-- Whether an errand is a worker's. -/
def isWorkers : Errand → Bool
  | on _ operation => operation.isWorkers
  | ping => false

end Errand

/-- Clients that share any number of queues, and their store. -/
abbrev Clients (ι : Type) := World ι Errand QueueError (Option String)

/-- Every client runs the errands in one namespace. -/
abbrev Errand.programs {ι : Type} (space : Keyspace) : ι → Errand → Task QueueError (Option String) :=
  fun _ errand => errand.program space

/-- Where a client can be with an errand. Only those that are no workers look at types, and only those fail
for the type of a key. -/
inductive Engaged (space : Keyspace) (errand : Errand) : Task QueueError (Option String) → Prop
  | writing : Engaged space errand (errand.writing space)
  | looking (others : errand.isWorkers = false) (key : String)
    {next : Except StoreError KeyType → Task QueueError (Option String)}
    (leads : ∀ answer, Operation.Preparing (errand.writing space) (next answer)) :
    Engaged space errand (.call (.keyType key) next)
  | answered (payload? : Option String) : Engaged space errand (.done payload?)
  | failed {error : QueueError}
    (spared : errand.isWorkers = true → ∀ key, error ≠ .store (.wrongType key)) :
    Engaged space errand (.fail error)

section Engaged

variable {errand : Errand}

theorem Engaged.of_preparing {program : Task QueueError (Option String)} (others : errand.isWorkers = false)
    (preparing : Operation.Preparing (errand.writing space) program) : Engaged space errand program := by
  cases preparing with
  | last => exact .writing
  | look key leads => exact .looking others key leads
  | done payload? => exact .answered payload?
  | fail error => exact .failed fun workers => Bool.noConfusion (others.symm.trans workers)

/-- A worker's operation asks nothing but its one request. -/
theorem program_of_workers {queue : String} {operation : Operation} (workers : operation.isWorkers = true) :
    operation.program space queue = operation.writing space queue ∨
      ∃ cause, operation.program space queue = .fail (.argument cause) := by
  cases operation with
  | list operation =>
    cases operation with
    | dequeue worker now =>
      by_cases empty : queue = ""
      · subst empty
        exact .inr ⟨.emptyQueue, rfl⟩
      · exact .inl (ListOperation.program_dequeue empty worker now)
    | removeInflight worker => exact .inl (ask_eq _)
    | restoreInflight worker now => exact .inl (ask_eq _)
    | enqueue | enqueueFirst | enqueueAll => contradiction
  | enqueueDelayed | removeDelayed | enqueueRecurring | removeRecurring => contradiction

/-- Where an errand begins. -/
theorem engaged_program (errand : Errand) : Engaged space errand (errand.program space) := by
  cases errand with
  | on queue operation =>
    cases workers : operation.isWorkers with
    | true =>
      rcases @program_of_workers space queue operation workers with writes | ⟨cause, fails⟩
      · rw [Errand.program, writes]
        exact .writing
      · rw [Errand.program, fails]
        exact .failed nofun
    | false => exact .of_preparing workers (Operation.preparing_program operation)
  | ping =>
    have writes : Errand.ping.program space = Errand.ping.writing space := ask_bind _ _
    rw [writes]
    exact .writing

/-- The last request of an errand leaves the layout, and a worker's does not fail for the type of a key. -/
theorem Layout.wrote {memory : Memory} (layout : Layout space memory.slots) (errand : Errand) :
    Layout space (memory.perform (errand.request space)).2.slots ∧
      (errand.isWorkers = true → ∀ cause, (memory.perform (errand.request space)).1 = .error cause →
        cause = .refused) := by
  cases errand with
  | on queue operation =>
    exact ⟨layout.perform queue operation, fun workers => (layout.performWorkers queue workers).2⟩
  | ping =>
    refine ⟨?_, nofun⟩
    simp only [Errand.request, Memory.perform]
    split <;> exact layout

/-- A client that is answered goes on with its errand, and the layout is kept. -/
theorem Engaged.advance {memory : Memory} (layout : Layout space memory.slots) {request : Request}
    {rest : Except StoreError request.Reply → Task QueueError (Option String)}
    (engaged : Engaged space errand (.call request rest)) :
    Layout space (memory.perform request).2.slots ∧
      Engaged space errand (rest (memory.perform request).1) := by
  generalize same : Task.call request rest = program at engaged
  cases engaged with
  | writing =>
    rw [Errand.writing, asking] at same
    cases same
    obtain ⟨left, spared⟩ := layout.wrote errand
    refine ⟨left, ?_⟩
    cases answer : (memory.perform (errand.request space)).1 with
    | ok reply => exact .answered _
    | error cause =>
      refine .failed ?_
      rintro workers key ⟨⟩
      cases spared workers _ answer
  | looking others key leads =>
    cases same
    exact ⟨(Memory.look layout.lasting key).symm ▸ layout, .of_preparing others (leads _)⟩
  | answered | failed => contradiction

end Engaged

/-- The store has the layout, and every client is where it can be. -/
structure Orderly {ι : Type} (space : Keyspace) (world : Clients ι) : Prop where
  layout : Layout space world.memory.slots
  engaged : ∀ who process, world.process who = some process →
    Engaged space process.operation process.program

section Runs

variable {ι : Type} {world after : Clients ι}

/-- No worker's operation has failed for the type of a key. -/
theorem Orderly.spared (orderly : Orderly space world) (who : ι) {errand : Errand}
    (workers : errand.isWorkers = true) (key : String) :
    world.returned? who ≠ some (errand, .error (.store (.wrongType key))) := by
  intro returned
  obtain ⟨since, found⟩ := World.failed_of_returned? returned
  cases orderly.engaged who _ found with
  | failed spared => exact spared workers key rfl

variable [DecidableEq ι]

/-- Whatever happens next, the layout is kept. -/
theorem Orderly.step (orderly : Orderly space world) {move : Move ι Errand}
    (step : world.step? (Errand.programs space) move = some after) : Orderly space after := by
  obtain ⟨layout, engaged⟩ := orderly
  cases move with
  | tick millis | reach available | spoil =>
    cases step
    exact ⟨layout, engaged⟩
  | start who errand =>
    obtain ⟨-, rfl⟩ := World.step?_start step
    exact ⟨layout, World.forall_put engaged (engaged_program errand)⟩
  | advance who =>
    rcases World.step?_advance step with ⟨_, _, _, _, found, rfl⟩ | ⟨_, _, _, _, found, rfl⟩
    · obtain ⟨left, goes⟩ := (engaged who _ found).advance layout
      exact ⟨left, World.forall_put engaged goes⟩
    · -- no errand waits
      have sleeping := engaged who _ found
      cases sleeping

/-- What can be relied on in a store that clients of queues share. -/
structure Kept (space : Keyspace) (world : Clients ι) : Prop where
  layout : Layout space world.memory.slots
  /-- No worker's operation fails for the type of a key. -/
  spared : ∀ who errand key, errand.isWorkers = true →
    world.returned? who ≠ some (errand, .error (.store (.wrongType key)))

/-- In every run from an empty store, whatever clients do with queues and whatever the store refuses, places
hold what may be there, queues that have payloads are registered, and workers never meet a wrong type. -/
theorem kept_run {moves : List (Move ι Errand)}
    (run : World.fresh.run? (Errand.programs space) moves = some world) : Kept space world := by
  have start : Orderly space (World.fresh : Clients ι) := by
    refine ⟨Layout.nil, ?_⟩
    intro who process absent
    contradiction
  have orderly : Orderly space world :=
    World.run?_invariant (Orderly space) (fun _ _ _ _ orderly => orderly.step) start run
  exact ⟨orderly.layout, fun who _ key workers => orderly.spared who workers key⟩

end Runs

/-- A queue becomes a sorted set between a look and a write to it as a list; then it vanishes and becomes a
list, while one transaction is discarded and one request is refused. -/
def retyped : List (Move Nat Errand) :=
  let mail : PlainName := ⟨"mail", by decide⟩
  let post : PlainName := ⟨"post", by decide⟩
  [.start 0 (.on mail (.list (.enqueue "a"))), .advance 0,
    .start 1 (.on mail (.enqueueDelayed "t" 5)), .advance 1, .advance 1, .advance 0,
    .start 2 (.on mail (.list (.dequeue "w:mail" 5))), .advance 2,
    .spoil, .start 1 (.on post (.enqueueRecurring "r" 1 2)), .advance 1, .advance 1, .advance 1,
    .reach false, .start 2 (.on mail (.list (.restoreInflight "w:mail" 6))), .advance 2,
    .reach true, .start 2 (.on mail (.list (.restoreInflight "w:mail" 6))), .advance 2,
    .start 3 .ping, .advance 3]

theorem kept_run_retyped : ∃ world, World.fresh.run? (Errand.programs ⟨"app"⟩) retyped = some world ∧
    (world.returned? 0).map Prod.snd = some (.error (.store (.wrongType "app:queue:mail"))) ∧
    (world.returned? 2).map Prod.snd = some (.ok (some "t")) ∧ Kept ⟨"app"⟩ world := by
  have failed : (World.fresh.run? (Errand.programs ⟨"app"⟩) retyped).map
      (fun world => (world.returned? 0).map Prod.snd) =
        some (some (.error (.store (.wrongType "app:queue:mail")))) := by decide +kernel
  have restored : (World.fresh.run? (Errand.programs ⟨"app"⟩) retyped).map
      (fun world => (world.returned? 2).map Prod.snd) = some (some (.ok (some "t"))) := by decide +kernel
  obtain ⟨world, run, fails⟩ := Option.map_eq_some_iff.mp failed
  rw [run] at restored
  exact ⟨world, run, fails, Option.some.inj restored, kept_run run⟩

end JobQueue.Queue
