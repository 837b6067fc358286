import JobQueue.Proofs.Interleaving
import JobQueue.Queue

/-! # Operations that take effect at one request

A program may look around first, and then makes the one request that has its whole effect; with the reply it
is over. However the requests of such programs interleave, everything happens as if each operation were done
at the moment in which it ends. So it is enough to know, for one request at a time, what an operation does to
an abstract state that the store represents.
-/

namespace JobQueue

/-- Completed operations take a state to another, one after the other. -/
inductive Replays {ι Op α State : Type} (Effect : Op → State → α → State → Prop) :
    State → List (Completion ι Op α) → State → Prop
  | nil (state : State) : Replays Effect state [] state
  | cons {done : Completion ι Op α} {rest : List (Completion ι Op α)} {state middle last : State}
    (takes : Effect done.operation state done.answer middle) (others : Replays Effect middle rest last) :
    Replays Effect state (done :: rest) last

namespace Replays

variable {ι Op α State : Type} {Effect : Op → State → α → State → Prop} {state middle last : State}
  {first rest : List (Completion ι Op α)}

theorem one {done : Completion ι Op α} (takes : Effect done.operation state done.answer last) :
    Replays Effect state [done] last := .cons takes (.nil last)

theorem append (one : Replays Effect state first middle) (other : Replays Effect middle rest last) :
    Replays Effect state (first ++ rest) last := by
  induction one with
  | nil => exact other
  | cons takes _ ih => exact .cons takes (ih other)

/-- What is replayed can be stopped anywhere. -/
theorem split (replays : Replays Effect state (first ++ rest) last) :
    ∃ middle, Replays Effect state first middle ∧ Replays Effect middle rest last := by
  induction first generalizing state with
  | nil => exact ⟨state, .nil state, replays⟩
  | cons done first ih =>
    cases replays with
    | cons takes others =>
      obtain ⟨middle, one, other⟩ := ih others
      exact ⟨middle, .cons takes one, other⟩

end Replays

/-- What a reply leads an operation to that has had no effect before: the store fails as was arranged, or the
operation goes on without an effect, or it has its effect and ends. -/
inductive Answered {Op α State : Type} (Pending : Op → Task QueueError α → Prop)
    (Represents : Slots → State → Prop) (Effect : Op → State → α → State → Prop) (operation : Op)
    (memory : Memory) (state : State) : Task QueueError α → Memory → Prop
  | excused {cause : StoreError} {after : Memory} (arranged : memory.Arranged cause)
    (same : after.slots = memory.slots) :
    Answered Pending Represents Effect operation memory state (.fail (.store cause)) after
  | goesOn {program : Task QueueError α} {after : Memory} (pending : Pending operation program)
    (same : after.slots = memory.slots) :
    Answered Pending Represents Effect operation memory state program after
  | takesEffect {answer : α} {after : Memory} {later : State} (effect : Effect operation state answer later)
    (represents : Represents after.slots later) :
    Answered Pending Represents Effect operation memory state (.done answer) after

/-- Operations on an abstract state, how a store represents the state, and programs that have the effects of
the operations at one request each. -/
structure Atomic (Op α State : Type) where
  program : Op → Task QueueError α
  /-- What may be left of an operation that has had no effect yet. -/
  Pending : Op → Task QueueError α → Prop
  Represents : Slots → State → Prop
  /-- What an operation answers in a state, and what it leaves. -/
  Effect : Op → State → α → State → Prop
  begun : ∀ operation, Pending operation (program operation)
  asks : ∀ {operation : Op} {program : Task QueueError α}, Pending operation program →
    ∃ request rest, program = .call request rest
  answered : ∀ {operation : Op} {request : Request}
    {rest : Except StoreError request.Reply → Task QueueError α},
    Pending operation (.call request rest) → ∀ {memory : Memory} {state : State},
    Represents memory.slots state →
    Answered Pending Represents Effect operation memory state (rest (memory.perform request).1)
      (memory.perform request).2

namespace Atomic

variable {ι Op α State : Type} (atomic : Atomic Op α State)

/-- Every process runs the operations. -/
abbrev programs : ι → Op → Task QueueError α := fun _ => atomic.program

/-- Where a process can be. Only an error of the store that is allowed for ends it without an answer. -/
inductive Engaged (allowed : StoreError → Prop) (operation : Op) : Task QueueError α → Prop
  | pending {program : Task QueueError α} (pending : atomic.Pending operation program) :
    Engaged allowed operation program
  | answered (answer : α) : Engaged allowed operation (.done answer)
  | failed {cause : StoreError} (excused : allowed cause) : Engaged allowed operation (.fail (.store cause))

/-- The store represents a state, and the processes are where they can be. -/
structure Simulates (allowed : StoreError → Prop) (world : World ι Op QueueError α) (state : State) :
    Prop where
  represents : atomic.Represents world.memory.slots state
  engaged : ∀ who process, world.process who = some process →
    atomic.Engaged allowed process.operation process.program
  arranged : ∀ cause, world.memory.Arranged cause → allowed cause

/-- What a run amounts to on the abstract state. -/
structure Refines [DecidableEq ι] (start : State) (moves : List (Move ι Op)) (world : World ι Op QueueError α)
    (state : State) : Prop where
  /-- The operations that have ended with an answer had it, and their effects, in the order of their ends. -/
  replayed : Replays atomic.Effect start (World.fresh.completions atomic.programs moves) state
  represents : atomic.Represents world.memory.slots state
  /-- An operation fails only as was arranged. -/
  unfailing : ∀ who operation error, world.returned? who = some (operation, .error error) →
    ∃ cause, error = .store cause ∧ ∃ move ∈ moves, move.arranges = some cause
  /-- An operation that has not ended can go on. -/
  going : ∀ who, world.isIdle who = true ∨ ∃ next, world.step? atomic.programs (.advance who) = some next
  /-- A move that ends an operation with an answer has the effect of the operation, and any other has none. -/
  steps : ∀ move next, world.step? atomic.programs move = some next →
    ∃ later, Replays atomic.Effect state (next.completed? move).toList later ∧
      atomic.Represents next.memory.slots later ∧
      (next.completed? move = none → next.memory.slots = world.memory.slots)

section Runs

variable {atomic} {allowed more : StoreError → Prop} {world next last : World ι Op QueueError α}
  {state : State}

theorem Engaged.weaken (implies : ∀ cause, allowed cause → more cause) {operation : Op}
    {program : Task QueueError α} (engaged : atomic.Engaged allowed operation program) :
    atomic.Engaged more operation program := by
  cases engaged with
  | pending pending => exact .pending pending
  | answered answer => exact .answered answer
  | failed excused => exact .failed (implies _ excused)

/-- An operation fails only as is allowed. -/
theorem Simulates.unfailing (simulates : atomic.Simulates allowed world state) {who : ι} {operation : Op}
    {error : QueueError} (returned : world.returned? who = some (operation, .error error)) :
    ∃ cause, error = .store cause ∧ allowed cause := by
  obtain ⟨since, found⟩ := World.failed_of_returned? returned
  cases simulates.engaged who _ found with
  | pending pending =>
    obtain ⟨_, _, asked⟩ := atomic.asks pending
    contradiction
  | failed excused => exact ⟨_, rfl, excused⟩

variable [DecidableEq ι]

/-- An operation that has not ended can go on. -/
theorem Simulates.going (simulates : atomic.Simulates allowed world state) (who : ι) :
    world.isIdle who = true ∨ ∃ next, world.step? atomic.programs (.advance who) = some next := by
  cases found : world.process who with
  | none => exact .inl (by simp [World.isIdle, found])
  | some process =>
    obtain ⟨operation, program, since⟩ := process
    have engaged := simulates.engaged who _ found
    cases engaged with
    | pending pending =>
      obtain ⟨_, _, rfl⟩ := atomic.asks pending
      exact .inr ⟨_, World.step?_call found⟩
    | answered | failed => exact .inl (by simp [World.isIdle, found, Task.outcome?])

/-- One process goes on, and the store represents what it left there. -/
theorem Simulates.put (simulates : atomic.Simulates allowed world state) {memory : Memory} {later : State}
    (represents : atomic.Represents memory.slots later)
    (arranged : ∀ cause, memory.Arranged cause → allowed cause) {who : ι} {process : Process Op QueueError α}
    (engaged : atomic.Engaged allowed process.operation process.program) :
    atomic.Simulates allowed (World.put ⟨memory, world.process⟩ who process) later where
  represents := represents
  engaged := World.forall_put simulates.engaged engaged
  arranged := arranged

/-- A process that is answered goes on without an effect, or has its effect and ends. -/
theorem Simulates.answered (simulates : atomic.Simulates allowed world state) {who : ι} {operation : Op}
    {request : Request} {rest : Except StoreError request.Reply → Task QueueError α} {since : Nat}
    (found : world.process who = some ⟨operation, .call request rest, since⟩)
    (step : world.step? atomic.programs (.advance who) = some next)
    (arranged : ∀ cause, next.memory.Arranged cause → allowed cause) :
    ∃ later, Replays atomic.Effect state (next.completed? (.advance who)).toList later ∧
      atomic.Simulates allowed next later ∧
      (next.completed? (.advance who) = none → next.memory.slots = world.memory.slots) := by
  have engaged := simulates.engaged who _ found
  rw [World.step?_call found] at step
  cases step
  rw [World.completed?_advance]
  cases engaged with
  | pending pending =>
    have answered := atomic.answered pending simulates.represents
    generalize rest (world.memory.perform request).1 = program at answered arranged ⊢
    generalize (world.memory.perform request).2 = after at answered arranged ⊢
    cases answered with
    | excused fails same =>
      have represents := simulates.represents
      rw [← same] at represents
      exact ⟨state, .nil state, simulates.put represents arranged (.failed (simulates.arranged _ fails)),
        fun _ => same⟩
    | goesOn goes same =>
      have represents := simulates.represents
      rw [← same] at represents
      obtain ⟨_, _, rfl⟩ := atomic.asks goes
      exact ⟨state, .nil state, simulates.put represents arranged (.pending goes), fun _ => same⟩
    | takesEffect effect represents =>
      exact ⟨_, .one effect, simulates.put represents arranged (.answered _), nofun⟩

/-- A move that ends an operation with an answer has the effect of the operation, and any other has none. -/
theorem Simulates.step (simulates : atomic.Simulates allowed world state) {move : Move ι Op}
    (step : world.step? atomic.programs move = some next)
    (covered : ∀ cause, move.arranges = some cause → allowed cause) :
    ∃ later, Replays atomic.Effect state (next.completed? move).toList later ∧
      atomic.Simulates allowed next later ∧
      (next.completed? move = none → next.memory.slots = world.memory.slots) := by
  have arranged (cause) (found : next.memory.Arranged cause) : allowed cause :=
    (World.arranged_step step found).elim (simulates.arranged cause) (covered cause)
  cases move with
  | tick millis | reach available | spoil =>
    cases step
    exact ⟨state, .nil state, ⟨simulates.represents, simulates.engaged, arranged⟩, fun _ => rfl⟩
  | start who operation =>
    obtain ⟨-, rfl⟩ := World.step?_start step
    have pending := atomic.begun operation
    refine ⟨state, ?_, simulates.put simulates.represents arranged (.pending pending), fun _ => rfl⟩
    obtain ⟨_, _, same⟩ := atomic.asks pending
    rw [World.completed?_start, programs, same]
    exact .nil state
  | advance who =>
    rcases World.step?_advance step with ⟨_, _, _, _, found, -⟩ | ⟨_, _, _, _, found, -⟩
    · exact simulates.answered found step arranged
    · -- an operation that is pending asks, and does not wait
      have engaged := simulates.engaged who _ found
      cases engaged with
      | pending pending =>
        obtain ⟨_, _, same⟩ := atomic.asks pending
        cases same

/-- While some moves happen, the operations that end with an answer have it from the abstract state, in the
order of their ends. -/
theorem Simulates.run (simulates : atomic.Simulates allowed world state) {moves : List (Move ι Op)}
    (covered : ∀ move ∈ moves, ∀ cause, move.arranges = some cause → allowed cause)
    (run : world.run? atomic.programs moves = some last) :
    ∃ later, Replays atomic.Effect state (world.completions atomic.programs moves) later ∧
      atomic.Simulates allowed last later := by
  induction moves generalizing world state with
  | nil =>
    cases run
    exact ⟨state, .nil state, simulates⟩
  | cons move moves ih =>
    obtain ⟨next, step, rest⟩ := Option.bind_eq_some_iff.mp run
    obtain ⟨middle, one, after, -⟩ := simulates.step step (covered move (List.mem_cons_self ..))
    obtain ⟨later, others, final⟩ := ih after
      (fun other found => covered other (List.mem_cons_of_mem _ found)) rest
    rw [World.completions_cons step]
    exact ⟨later, one.append others, final⟩

/-- Every run from an empty store is one of the abstract state that the empty store represents. -/
theorem refines {start : State} (empty : atomic.Represents [] start) {moves : List (Move ι Op)}
    (run : World.fresh.run? atomic.programs moves = some world) :
    ∃ state, atomic.Refines start moves world state := by
  have begins : atomic.Simulates (fun cause => ∃ move ∈ moves, move.arranges = some cause)
      (World.fresh : World ι Op QueueError α) start := by
    refine ⟨empty, ?_, ?_⟩
    · intro who process absent
      contradiction
    · intro cause arranged
      cases cause with
      | refused | discarded => contradiction
      | _ => exact arranged.elim
  obtain ⟨state, replayed, after⟩ := begins.run (fun move found _ same => ⟨move, found, same⟩) run
  refine ⟨state, replayed, after.represents, fun _ _ _ => after.unfailing, after.going, ?_⟩
  intro move next step
  have anything : atomic.Simulates (fun _ => True) world state :=
    ⟨after.represents, fun who process found => (after.engaged who process found).weaken fun _ _ => trivial,
      fun _ _ => trivial⟩
  obtain ⟨later, replays, simulates, unchanged⟩ := anything.step step fun _ _ => trivial
  exact ⟨later, replays, simulates.represents, unchanged⟩

end Runs

end Atomic

end JobQueue
