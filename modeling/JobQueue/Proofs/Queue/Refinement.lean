import JobQueue.Proofs.Queue.History

/-! # Processes that share a simple queue

Any number of producers and workers share one simple queue, and their requests interleave in any order. What
they see is a deque with a stack for each worker: the operations take effect in the order in which they end,
each at its one request that writes.
-/

namespace JobQueue.Queue

/-- The processes that share a simple queue, and the store that holds it. -/
abbrev Sharers (ι : Type) := World ι ListOperation QueueError (Option String)

/-- Every process runs the operations on one queue. -/
abbrev programs {ι : Type} (space : Keyspace) (queue : String) :
    ι → ListOperation → Task QueueError (Option String) :=
  fun _ operation => operation.program space queue

/-- Where a process can be in its operation: it looks at the queue, or it is about to write and then to
answer, or it has ended. Only an error of the store that is allowed for ends it without an answer. -/
inductive Working (space : Keyspace) (queue : String) (allowed : StoreError → Prop) :
    Process ListOperation QueueError (Option String) → Prop
  | looking (operation : ListOperation) (since : Nat) :
    Working space queue allowed ⟨operation, operation.looking space queue, since⟩
  | writing (operation : ListOperation) (since : Nat) :
    Working space queue allowed ⟨operation, operation.writing space queue, since⟩
  | answered (operation : ListOperation) (payload? : Option String) (since : Nat) :
    Working space queue allowed ⟨operation, .done payload?, since⟩
  | failed (operation : ListOperation) {cause : StoreError} (excused : allowed cause) (since : Nat) :
    Working space queue allowed ⟨operation, .fail (.store cause), since⟩

/-- The processes are where they can be, and the store holds a deque. -/
structure Simulates {ι : Type} (space : Keyspace) (queue : String) (allowed : StoreError → Prop)
    (world : Sharers ι) (jobs : Jobs) : Prop where
  holds : Holds space queue world.memory.slots jobs
  working : ∀ who process, world.process who = some process → Working space queue allowed process
  arranged : ∀ cause, world.memory.Arranged cause → allowed cause

variable {ι : Type} [DecidableEq ι] {space : Keyspace} {queue : String} {allowed : StoreError → Prop}

/-- A process that begins has no effect yet, or has ended with none. -/
theorem Working.begun (named : queue ≠ "") (operation : ListOperation) (since : Nat) :
    Working space queue allowed ⟨operation, operation.program space queue, since⟩ := by
  rcases ListOperation.program_cases named operation with rfl | looks | writes
  · rw [ListOperation.program_enqueueAll_nil named]
    exact .answered _ _ _
  · rw [looks]
    exact .looking _ _
  · rw [writes]
    exact .writing _ _

theorem Working.weaken {more : StoreError → Prop} (implies : ∀ cause, allowed cause → more cause)
    {process : Process ListOperation QueueError (Option String)}
    (working : Working space queue allowed process) :
    Working space queue more process := by
  cases working with
  | looking => exact .looking _ _
  | writing => exact .writing _ _
  | answered => exact .answered _ _ _
  | failed operation excused since => exact .failed operation (implies _ excused) since

namespace Simulates

variable {world next : Sharers ι} {jobs later : Jobs}

/-- One process goes on, and the store holds what it left there. -/
theorem put (simulates : Simulates space queue allowed world jobs) {memory : Memory}
    (holds : Holds space queue memory.slots later) (arranged : ∀ cause, memory.Arranged cause → allowed cause)
    {who : ι} {process : Process ListOperation QueueError (Option String)}
    (working : Working space queue allowed process) :
    Simulates space queue allowed (World.put ⟨memory, world.process⟩ who process) later where
  holds := holds
  working := World.forall_put simulates.working working
  arranged := arranged

/-- A process that looks at a simple queue may write to it, unless the store fails as was arranged. -/
theorem looked (simulates : Simulates space queue allowed world jobs) {who : ι} {operation : ListOperation}
    {since : Nat} (process : world.process who = some ⟨operation, operation.looking space queue, since⟩)
    (step : world.step? (programs space queue) (.advance who) = some next)
    (arranged : ∀ cause, next.memory.Arranged cause → allowed cause) :
    next.completed? (.advance who) = none ∧ next.memory.slots = world.memory.slots ∧
      Simulates space queue allowed next jobs := by
  rw [ListOperation.looking, asking] at process
  rw [World.step?_call process] at step
  cases step
  rw [World.completed?_advance]
  rcases simulates.holds.perform_keyType with ⟨refused, performed⟩ | ⟨found, simple, performed⟩
  · rw [performed] at arranged ⊢
    exact ⟨rfl, rfl, simulates.put simulates.holds arranged (.failed _ (simulates.arranged _ refused) _)⟩
  · rw [performed] at arranged ⊢
    simp only [if_pos simple]
    exact ⟨rfl, rfl, simulates.put simulates.holds arranged (.writing _ _)⟩

/-- A process that writes has the effect of its operation and ends with its answer, unless the store fails as
was arranged; then it has no effect. -/
theorem wrote (simulates : Simulates space queue allowed world jobs) {who : ι} {operation : ListOperation}
    {since : Nat} (process : world.process who = some ⟨operation, operation.writing space queue, since⟩)
    (step : world.step? (programs space queue) (.advance who) = some next)
    (arranged : ∀ cause, next.memory.Arranged cause → allowed cause) :
    (next.completed? (.advance who) = none ∧ next.memory.slots = world.memory.slots ∧
      Simulates space queue allowed next jobs) ∨
    (next.completed? (.advance who) = some ⟨who, operation, (operation.apply jobs).1⟩ ∧
      Simulates space queue allowed next (operation.apply jobs).2) := by
  rw [ListOperation.writing, asking] at process
  rw [World.step?_call process] at step
  cases step
  rw [World.completed?_advance]
  rcases simulates.holds.perform operation with
    ⟨cause, memory, failed, performed, same⟩ | ⟨reply, memory, performed, answered, holds⟩
  · rw [performed] at arranged ⊢
    have kept : Holds space queue memory.slots jobs := by
      rw [same]
      exact simulates.holds
    exact .inl ⟨rfl, same, simulates.put kept arranged (.failed _ (simulates.arranged _ failed) _)⟩
  · rw [performed] at arranged ⊢
    simp only [answered]
    exact .inr ⟨rfl, simulates.put holds arranged (.answered _ _ _)⟩

/-- A move that ends an operation with an answer has the effect of the operation on the deque, and the
answer is that of the deque. Any other move leaves the store as it is. -/
theorem step (named : queue ≠ "") (simulates : Simulates space queue allowed world jobs)
    {move : Move ι ListOperation} (step : world.step? (programs space queue) move = some next)
    (covered : ∀ cause, move.arranges = some cause → allowed cause) :
    ∃ later, replay jobs (next.completed? move).toList = some later ∧
      Simulates space queue allowed next later ∧
      (next.completed? move = none → next.memory.slots = world.memory.slots) := by
  have arranged (cause) (found : next.memory.Arranged cause) : allowed cause :=
    (World.arranged_step step found).elim (simulates.arranged cause) (covered cause)
  cases move with
  | tick millis | reach available | spoil =>
    cases step
    exact ⟨jobs, rfl, ⟨simulates.holds, simulates.working, arranged⟩, fun _ => rfl⟩
  | start who operation =>
    obtain ⟨-, rfl⟩ := World.step?_start step
    refine ⟨jobs, ?_, simulates.put simulates.holds arranged (.begun named _ _), fun _ => rfl⟩
    rw [World.completed?_start, Process.completion?, programs]
    rcases ListOperation.program_cases named operation with rfl | looks | writes
    · rw [ListOperation.program_enqueueAll_nil named]
      refine (if_pos rfl).trans ?_
      rw [apply_enqueueAll_nil]
      rfl
    · rw [looks]
      rfl
    · rw [writes]
      rfl
  | advance who =>
    cases found : world.process who with
    | none => simp [World.step?, found] at step
    | some process =>
      cases simulates.working who process found with
      | looking operation since =>
        obtain ⟨none, unchanged, after⟩ := simulates.looked found step arranged
        exact ⟨jobs, by rw [none]; rfl, after, fun _ => unchanged⟩
      | writing operation since =>
        rcases simulates.wrote found step arranged with ⟨none, unchanged, after⟩ | ⟨some, after⟩
        · exact ⟨jobs, by rw [none]; rfl, after, fun _ => unchanged⟩
        · rw [some]
          refine ⟨_, if_pos rfl, after, ?_⟩
          intro none
          contradiction
      | answered | failed => simp [World.step?, found] at step

/-- While some moves happen the deque answers every operation as the store does, in the order in which they
end. -/
theorem run (named : queue ≠ "") {moves : List (Move ι ListOperation)} {last : Sharers ι}
    (simulates : Simulates space queue allowed world jobs)
    (covered : ∀ move ∈ moves, ∀ cause, move.arranges = some cause → allowed cause)
    (run : world.run? (programs space queue) moves = some last) :
    ∃ later, replay jobs (world.completions (programs space queue) moves) = some later ∧
      Simulates space queue allowed last later := by
  induction moves generalizing world jobs with
  | nil =>
    cases run
    exact ⟨jobs, rfl, simulates⟩
  | cons move moves ih =>
    obtain ⟨next, step, rest⟩ := Option.bind_eq_some_iff.mp run
    obtain ⟨middle, replayed, after, -⟩ := simulates.step named step (covered move (List.mem_cons_self ..))
    obtain ⟨later, others, final⟩ := ih after
      (fun other found => covered other (List.mem_cons_of_mem _ found)) rest
    refine ⟨later, ?_, final⟩
    rw [World.completions_cons step, replay_append, replayed]
    exact others

end Simulates

/-- What a run of processes that share a simple queue amounts to, on a deque with a stack for each worker. -/
structure Refines (space : Keyspace) (queue : String) (moves : List (Move ι ListOperation))
    (world : Sharers ι) (jobs : Jobs) : Prop where
  /-- The operations that have ended with an answer, in the order of their writes, had it from the deque. -/
  replayed : replay {} (World.fresh.completions (programs space queue) moves) = some jobs
  /-- The lists of the store are those of the deque. -/
  holds : Holds space queue world.memory.slots jobs
  /-- An operation writes with its last request, and ends with the reply; it fails only as was arranged. -/
  working : ∀ who process, world.process who = some process →
    Working space queue (fun cause => ∃ move ∈ moves, move.arranges = some cause) process
  /-- A move that ends an operation with an answer has the effect of the operation, and any other has none. -/
  steps : ∀ move next, world.step? (programs space queue) move = some next →
    ∃ later, replay jobs (next.completed? move).toList = some later ∧
      Holds space queue next.memory.slots later ∧
      (next.completed? move = none → next.memory.slots = world.memory.slots)
  /-- No payload is lost, doubled or delivered twice. -/
  conserved : History.Conserved (World.fresh.completions (programs space queue) moves) jobs

/-- Every run of producers and workers on a simple queue is one of a deque with a stack for each worker. -/
theorem refines_deque (named : queue ≠ "") {moves : List (Move ι ListOperation)} {world : Sharers ι}
    (run : World.fresh.run? (programs space queue) moves = some world) :
    ∃ jobs, Refines space queue moves world jobs := by
  have start : Simulates space queue (fun cause => ∃ move ∈ moves, move.arranges = some cause)
      (World.fresh : Sharers ι) {} := by
    refine ⟨holds_nil, ?_, ?_⟩
    · intro who process absent
      contradiction
    · intro cause arranged
      cases cause with
      | refused | discarded => contradiction
      | _ => exact arranged.elim
  obtain ⟨jobs, replayed, after⟩ := start.run named (fun move found _ same => ⟨move, found, same⟩) run
  refine ⟨jobs, replayed, after.holds, after.working, ?_, conserved_of_replay replayed⟩
  intro move next step
  have anything : Simulates space queue (fun _ => True) world jobs :=
    ⟨after.holds, fun who process found => (after.working who process found).weaken fun _ _ => trivial,
      fun _ _ => trivial⟩
  obtain ⟨later, replayed, simulates, unchanged⟩ := anything.step named step fun _ _ => trivial
  exact ⟨later, replayed, simulates.holds, unchanged⟩

/-- A producer and two workers: the queue runs empty between a look and a write, one transaction is
discarded, and one worker does not reach the store at first. -/
def handover : List (Move Nat ListOperation) :=
  [.start 0 (.enqueueAll ["a", "b"]), .advance 0, .start 1 (.dequeue "w" 0), .advance 0, .advance 1,
    .start 2 (.dequeue "v" 0), .start 0 (.enqueueFirst "c"), .advance 0, .advance 2,
    .start 1 (.restoreInflight "w" 0), .advance 1, .spoil, .advance 0, .start 2 (.removeInflight "v"),
    .reach false, .advance 2, .reach true, .start 2 (.removeInflight "v"), .advance 2]

theorem refines_deque_handover :
    ∃ world, World.fresh.run? (programs ⟨"app"⟩ "mail") handover = some world ∧
      (World.fresh.completions (programs ⟨"app"⟩ "mail") handover).map (·.answer) =
        [none, some "a", some "b", some "a", some "b"] ∧
      ∃ jobs, Refines ⟨"app"⟩ "mail" handover world jobs :=
  ⟨_, rfl, rfl, refines_deque (by decide) rfl⟩

end JobQueue.Queue
