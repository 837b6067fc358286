import JobQueue.Proofs.Store.Held
import JobQueue.Proofs.Task
import JobQueue.Task.Run

/-! # Processes that share a store

Any number of processes run operations, each one operation after the other. A move of a process asks one
request, so the requests of different processes interleave in any order. Between the moves time passes, the
store may go out of reach and come back, and it may be made to discard a transaction.
-/

namespace JobQueue

/-- An operation, what is left of its program, and when the program moved last. -/
structure Process (Op ε α : Type) where
  operation : Op
  program : Task ε α
  since : Nat

/-- A store in memory and the processes at work on it. -/
structure World (ι Op ε α : Type) where
  memory : Memory
  process : ι → Option (Process Op ε α) := fun _ => none

/-- What happens next. -/
inductive Move (ι Op : Type) where
  | tick (millis : Nat)
  /-- The store goes out of reach or comes back. -/
  | reach (available : Bool)
  /-- The next transaction is to be discarded. -/
  | spoil
  | start (who : ι) (operation : Op)
  | advance (who : ι)
deriving DecidableEq, Repr

/-- Whether a move is the next one of a process. -/
def Move.isOf {ι Op : Type} [DecidableEq ι] (who : ι) : Move ι Op → Bool
  | start other _ | advance other => other = who
  | _ => false

/-- Whether a move starts an operation of a process. -/
def Move.starts {ι Op : Type} [DecidableEq ι] (who : ι) : Move ι Op → Bool
  | start other _ => other = who
  | _ => false

/-- An operation of a process that has ended with an answer. -/
structure Completion (ι Op α : Type) where
  who : ι
  operation : Op
  answer : α
deriving DecidableEq, Repr

/-- The operation of a process, if it has ended with an answer. -/
def Process.completion? {ι Op ε α : Type} (who : ι) (process : Process Op ε α) : Option (Completion ι Op α) :=
  match process.program with
  | .done answer => some ⟨who, process.operation, answer⟩
  | _ => none

theorem Process.program_of_completion? {ι Op ε α : Type} {who : ι} {process : Process Op ε α}
    {done : Completion ι Op α} (completed : process.completion? who = some done) :
    process.program = .done done.answer ∧ process.operation = done.operation := by
  unfold completion? at completed
  split at completed
  · next answer ended =>
    cases completed
    exact ⟨ended, rfl⟩
  · contradiction

/-- The error that a move arranges for. -/
def Move.arranges {ι Op : Type} : Move ι Op → Option StoreError
  | reach false => some .refused
  | spoil => some .discarded
  | _ => none

/-- The errors that are arranged for. -/
def Memory.Arranged (memory : Memory) : StoreError → Prop
  | .refused => memory.unavailable = true
  | .discarded => memory.discardNext = true
  | _ => False

namespace World

variable {ι Op ε α : Type}

/-- An empty store, and nobody at work on it. -/
abbrev fresh : World ι Op ε α := ⟨{}, fun _ => none⟩

/-- The latest operation of a process and how it ended, if it has. -/
def returned? (world : World ι Op ε α) (who : ι) : Option (Op × Except ε α) :=
  (world.process who).bind fun process =>
    process.program.outcome?.map fun outcome => (process.operation, outcome)

/-- An operation that has ended with an error has failed. -/
theorem failed_of_returned? {world : World ι Op ε α} {who : ι} {operation : Op} {error : ε}
    (returned : world.returned? who = some (operation, .error error)) :
    ∃ since, world.process who = some ⟨operation, .fail error, since⟩ := by
  obtain ⟨⟨_, program, since⟩, found, ended⟩ := Option.bind_eq_some_iff.mp returned
  obtain ⟨outcome, ends, same⟩ := Option.map_eq_some_iff.mp ended
  cases same
  cases program with
  | fail =>
    cases ends
    exact ⟨since, found⟩
  | done | call | sleep => cases ends

variable [DecidableEq ι]

/-- Replaces what a process does. -/
def put (world : World ι Op ε α) (who : ι) (process : Process Op ε α) : World ι Op ε α :=
  { world with process := fun other => if other = who then some process else world.process other }

@[simp] theorem put_memory (world : World ι Op ε α) (who : ι) (process : Process Op ε α) :
    (world.put who process).memory = world.memory := rfl

@[simp] theorem put_same (world : World ι Op ε α) (who : ι) (process : Process Op ε α) :
    (world.put who process).process who = some process := if_pos rfl

theorem put_other (world : World ι Op ε α) {who other : ι} (process : Process Op ε α) (differ : other ≠ who) :
    (world.put who process).process other = world.process other := if_neg differ

/-- What holds of every process, and of one as it goes on, holds of every process behind that. -/
theorem forall_put {world : World ι Op ε α} {property : ι → Process Op ε α → Prop}
    (all : ∀ other process, world.process other = some process → property other process) {memory : Memory}
    {who : ι} {process : Process Op ε α} (one : property who process) (other : ι) (found : Process Op ε α)
    (same : (put ⟨memory, world.process⟩ who process).process other = some found) :
    property other found := by
  by_cases equal : other = who
  · subst equal
    rw [put_same] at same
    cases same
    exact one
  · rw [put_other _ _ equal] at same
    exact all other found same

theorem returned?_put (world : World ι Op ε α) (who : ι) (process : Process Op ε α) :
    (world.put who process).returned? who =
      process.program.outcome?.map fun outcome => (process.operation, outcome) := by
  rw [returned?, put_same, Option.bind_some]

theorem returned?_put_other (world : World ι Op ε α) {who other : ι} (process : Process Op ε α)
    (differ : other ≠ who) : (world.put who process).returned? other = world.returned? other := by
  rw [returned?, put_other _ _ differ]
  rfl

/-- The operation that a move has just ended with an answer. -/
def completed? (world : World ι Op ε α) : Move ι Op → Option (Completion ι Op α)
  | .start who _ | .advance who => (world.process who).bind (Process.completion? who)
  | _ => none

theorem completed?_start (world : World ι Op ε α) (who : ι) (operation : Op) (process : Process Op ε α) :
    (world.put who process).completed? (.start who operation) = process.completion? who := by
  rw [completed?, put_same, Option.bind_some]

theorem completed?_advance (world : World ι Op ε α) (who : ι) (process : Process Op ε α) :
    (world.put who process).completed? (.advance who) = process.completion? who := by
  rw [completed?, put_same, Option.bind_some]

/-- A process that has not begun or has ended its operation. -/
def isIdle (world : World ι Op ε α) (who : ι) : Bool :=
  match world.process who with
  | none => true
  | some process => process.program.outcome?.isSome

section Steps

variable (program : ι → Op → Task ε α)

/-- The world after a move, if the move can happen. A sleeping process moves when its time has passed. -/
def step? (world : World ι Op ε α) : Move ι Op → Option (World ι Op ε α)
  | .tick millis => some { world with memory := world.memory.advance millis }
  | .reach available => some { world with memory := { world.memory with unavailable := !available } }
  | .spoil => some { world with memory := { world.memory with discardNext := true } }
  | .start who operation =>
    if world.isIdle who then some (world.put who ⟨operation, program who operation, world.memory.clock⟩)
    else none
  | .advance who => match world.process who with
    | some ⟨operation, .call request next, _⟩ =>
      let (answer, memory) := world.memory.perform request
      some ({ world with memory }.put who ⟨operation, next answer, memory.clock⟩)
    | some ⟨operation, .sleep millis next, since⟩ =>
      if since + millis ≤ world.memory.clock then
        some (world.put who ⟨operation, next, world.memory.clock⟩)
      else none
    | _ => none

/-- The world after some moves, if they can happen. -/
def run? : World ι Op ε α → List (Move ι Op) → Option (World ι Op ε α)
  | world, [] => some world
  | world, move :: moves => (world.step? program move).bind fun next => run? next moves

/-- The worlds that some moves lead through, up to the first move that cannot happen. -/
def visits : World ι Op ε α → List (Move ι Op) → List (World ι Op ε α)
  | world, [] => [world]
  | world, move :: moves => world :: match world.step? program move with
    | some next => visits next moves
    | none => []

/-- Some moves with the worlds that they are made in, up to the first move that cannot happen. -/
def trace : World ι Op ε α → List (Move ι Op) → List (World ι Op ε α × Move ι Op)
  | _, [] => []
  | world, move :: moves => (world, move) :: match world.step? program move with
    | some next => trace next moves
    | none => []

/-- The operations that end with an answer while some moves happen, in their order. -/
def completions : World ι Op ε α → List (Move ι Op) → List (Completion ι Op α)
  | _, [] => []
  | world, move :: moves => match world.step? program move with
    | some next => (next.completed? move).toList ++ completions next moves
    | none => []

variable {program}

/-- Moves lead through the world that they are made in. -/
theorem mem_visits (world : World ι Op ε α) (moves : List (Move ι Op)) :
    world ∈ world.visits program moves := by
  cases moves <;> exact List.mem_cons_self ..

theorem completions_cons {world next : World ι Op ε α} {move : Move ι Op}
    (step : world.step? program move = some next) (moves : List (Move ι Op)) :
    world.completions program (move :: moves) =
      (next.completed? move).toList ++ next.completions program moves := by
  rw [completions, step]

theorem run?_append (world : World ι Op ε α) (first second : List (Move ι Op)) :
    world.run? program (first ++ second) = (world.run? program first).bind (run? program · second) := by
  induction first generalizing world with
  | nil => rfl
  | cons move moves ih =>
    rw [List.cons_append, run?, run?, Option.bind_assoc]
    exact congrArg _ (funext ih)

/-- What holds at first and is kept by every move of a run holds at its end. -/
theorem run?_invariant (invariant : World ι Op ε α → Prop) {moves : List (Move ι Op)}
    (kept : ∀ move ∈ moves, ∀ world next, invariant world →
      world.step? program move = some next → invariant next)
    {world last : World ι Op ε α} (first : invariant world) (run : world.run? program moves = some last) :
    invariant last := by
  induction moves generalizing world with
  | nil =>
    cases run
    exact first
  | cons move moves ih =>
    obtain ⟨next, step, rest⟩ := Option.bind_eq_some_iff.mp run
    refine ih (fun other member => kept other (List.mem_cons_of_mem _ member)) ?_ rest
    exact kept move (List.mem_cons_self ..) world next first step

theorem step?_start {world next : World ι Op ε α} {who : ι} {operation : Op}
    (step : world.step? program (.start who operation) = some next) :
    world.isIdle who = true ∧
      next = world.put who ⟨operation, program who operation, world.memory.clock⟩ := by
  simp only [step?] at step
  split at step
  · next idle => exact ⟨idle, (Option.some.inj step).symm⟩
  · contradiction

/-- A process moves by asking its next request or by waking up. -/
theorem step?_advance {world next : World ι Op ε α} {who : ι}
    (step : world.step? program (.advance who) = some next) :
    (∃ operation request rest since, world.process who = some ⟨operation, .call request rest, since⟩ ∧
      next = { world with memory := (world.memory.perform request).2 }.put who
        ⟨operation, rest (world.memory.perform request).1, (world.memory.perform request).2.clock⟩) ∨
    (∃ operation millis rest since, world.process who = some ⟨operation, .sleep millis rest, since⟩ ∧
      next = world.put who ⟨operation, rest, world.memory.clock⟩) := by
  simp only [step?] at step
  split at step
  · next operation request rest since process => exact .inl ⟨_, _, _, _, process, (Option.some.inj step).symm⟩
  · next operation millis rest since process =>
    split at step
    · exact .inr ⟨_, _, _, _, process, (Option.some.inj step).symm⟩
    · contradiction
  · contradiction

theorem step?_call {world : World ι Op ε α} {who : ι} {operation : Op} {request : Request}
    {rest : Except StoreError request.Reply → Task ε α} {since : Nat}
    (process : world.process who = some ⟨operation, .call request rest, since⟩) :
    world.step? program (.advance who) =
      some ({ world with memory := (world.memory.perform request).2 }.put who
        ⟨operation, rest (world.memory.perform request).1, (world.memory.perform request).2.clock⟩) := by
  simp only [step?, process]

/-- Only its own moves change what a process does. -/
theorem process_step {world next : World ι Op ε α} {who : ι} {move : Move ι Op}
    (others : move.isOf who = false)
    (step : world.step? program move = some next) : next.process who = world.process who := by
  cases move with
  | tick millis | reach available | spoil =>
    cases step
    rfl
  | start other operation =>
    obtain ⟨-, rfl⟩ := step?_start step
    have differ : who ≠ other := by simpa [Move.isOf, eq_comm] using others
    exact put_other _ _ differ
  | advance other =>
    have differ : who ≠ other := by simpa [Move.isOf, eq_comm] using others
    rcases step?_advance step with ⟨_, _, _, _, _, rfl⟩ | ⟨_, _, _, _, _, rfl⟩
    · exact put_other _ _ differ
    · exact put_other _ _ differ

/-- Time never runs back. -/
theorem clock_le_step {world next : World ι Op ε α} {move : Move ι Op}
    (step : world.step? program move = some next) : world.memory.clock ≤ next.memory.clock := by
  cases move with
  | tick millis =>
    cases step
    exact Nat.le_add_right _ _
  | reach available | spoil =>
    cases step
    exact Nat.le_refl _
  | start who operation =>
    obtain ⟨-, rfl⟩ := step?_start step
    exact Nat.le_refl _
  | advance who =>
    rcases step?_advance step with ⟨_, _, _, _, _, rfl⟩ | ⟨_, _, _, _, _, rfl⟩
    · exact Nat.le_of_eq (Memory.clock_perform _ _).symm
    · exact Nat.le_refl _

/-- Only moves that arrange for an error bring it about. -/
theorem arranged_step {world next : World ι Op ε α} {move : Move ι Op} {cause : StoreError}
    (step : world.step? program move = some next) (arranged : next.memory.Arranged cause) :
    world.memory.Arranged cause ∨ move.arranges = some cause := by
  cases move with
  | tick millis =>
    cases step
    exact .inl arranged
  | reach available =>
    cases step
    cases cause with
    | refused =>
      cases available with
      | true => contradiction
      | false => exact .inr rfl
    | discarded => exact .inl arranged
    | _ => exact arranged.elim
  | spoil =>
    cases step
    cases cause with
    | refused => exact .inl arranged
    | discarded => exact .inr rfl
    | _ => exact arranged.elim
  | start who operation =>
    obtain ⟨-, rfl⟩ := step?_start step
    exact .inl arranged
  | advance who =>
    rcases step?_advance step with ⟨_, request, _, _, _, rfl⟩ | ⟨_, _, _, _, _, rfl⟩
    · cases cause with
      | refused => exact .inl ((Memory.unavailable_perform _ request).symm.trans arranged)
      | discarded => exact .inl ((Memory.framed_perform _ _).discardNext arranged)
      | _ => exact arranged.elim
    · exact .inl arranged

end Steps

end World

end JobQueue
