import Mathlib.Control.Monad.Basic
import JobQueue.Proofs.Interleaving
import JobQueue.Proofs.Queue.Coupling

/-! # When a queue and its frequencies come apart

Any number of processes run the operations on one queue, and their requests interleave in any order. The
queue and its frequencies stay together until a payload that has a frequency is removed as if it had none:
its frequency stays behind, while a recurring payload that is stopped loses both.
-/

namespace JobQueue.Queue

/-- The processes that work on one queue, and the store that holds it. -/
abbrev Users (ι : Type) := World ι Operation QueueError (Option String)

/-- Every process runs the operations on one queue. -/
abbrev Operation.programs {ι : Type} (space : Keyspace) (queue : String) :
    ι → Operation → Task QueueError (Option String) :=
  fun _ operation => operation.program space queue

/-- What can be relied on while a queue and its frequencies are together. -/
structure Consistent (space : Keyspace) (queue : String) (memory : Memory) : Prop where
  coupled : Coupled space queue memory.slots
  /-- What is restored waits in the queue behind that. -/
  restores : ∀ worker now payload next,
    memory.perform (.restoreInflight (route space worker queue) now) = (.ok (some payload), next) →
    Waits space queue next.slots payload
  /-- A queue with a companion is one that recurring payloads can be added to and removed from. -/
  accepted : memory.unavailable = false → memory.slots.entry? (space.recurring queue) = none ∨
    ((requireRecurring space queue).run memory).1 = .ok ()

section Steps

variable {ι : Type} [DecidableEq ι] {space : Keyspace} {queue : String}

/-- A process is about to take a payload out of the schedule and to leave its frequency. -/
def Severing (space : Keyspace) (queue : String) (world : Users ι) (move : Move ι Operation) : Prop :=
  ∃ who operation since, move = .advance who ∧
    world.process who = some ⟨operation, operation.writing space queue, since⟩ ∧
    operation.Severs space queue world.memory

/-- Every process looks at types, is about to write, or has ended. -/
def Prepared (space : Keyspace) (queue : String) (world : Users ι) : Prop :=
  ∀ who process, world.process who = some process →
    Operation.Preparing (process.operation.writing space queue) process.program

variable {world next : Users ι} {move : Move ι Operation}

theorem Prepared.put (prepared : Prepared space queue world) {memory : Memory} {who : ι}
    {process : Process Operation QueueError (Option String)}
    (one : Operation.Preparing (process.operation.writing space queue) process.program) :
    Prepared space queue (World.put ⟨memory, world.process⟩ who process) :=
  World.forall_put prepared one

/-- A process that is about to write makes the request of its operation, and ends. -/
theorem Prepared.wrote (prepared : Prepared space queue world) {who : ι} {operation : Operation} {since : Nat}
    (found : world.process who = some ⟨operation, operation.writing space queue, since⟩)
    (step : world.step? (Operation.programs space queue) (.advance who) = some next) :
    Prepared space queue next ∧ next.memory = (world.memory.perform (operation.request space queue)).2 := by
  simp only [Operation.writing, asking] at found
  rw [World.step?_call found] at step
  cases step
  refine ⟨prepared.put ?_, rfl⟩
  cases (world.memory.perform (operation.request space queue)).1 with
  | ok reply => exact .done _
  | error cause => exact .fail _

/-- Any other process that moves looks at a type, which changes nothing. -/
theorem Prepared.looked (prepared : Prepared space queue world) (sound : Sound space queue world.memory.slots)
    {who : ι} (other : ∀ operation since,
      world.process who ≠ some ⟨operation, operation.writing space queue, since⟩)
    (step : world.step? (Operation.programs space queue) (.advance who) = some next) :
    Prepared space queue next ∧ next.memory = world.memory := by
  cases found : world.process who with
  | none => simp [World.step?, found] at step
  | some process =>
    obtain ⟨operation, program, since⟩ := process
    have preparing : Operation.Preparing (operation.writing space queue) program := prepared who _ found
    cases preparing with
    | last => exact absurd found (other operation since)
    | look key leads =>
      rw [World.step?_call found] at step
      cases step
      exact ⟨prepared.put (leads _), Memory.look sound.lasting key⟩
    | done | fail => simp [World.step?, found] at step

/-- A move that severs nothing leaves a sound store, and one that severs leaves one that is not coupled. -/
theorem Prepared.step (prepared : Prepared space queue world) (sound : Sound space queue world.memory.slots)
    (step : world.step? (Operation.programs space queue) move = some next) :
    Prepared space queue next ∧
      ((¬ Severing space queue world move ∧ Sound space queue next.memory.slots) ∨
        (Severing space queue world move ∧ ¬ Coupled space queue next.memory.slots)) := by
  have harmless {move : Move ι Operation} (other : ∀ who, move ≠ .advance who) :
      ¬ Severing space queue world move := fun ⟨who, _, _, same, _⟩ => other who same
  cases move with
  | tick millis | reach available | spoil =>
    cases step
    exact ⟨prepared, .inl ⟨harmless (by simp), sound⟩⟩
  | start who operation =>
    obtain ⟨-, rfl⟩ := World.step?_start step
    exact ⟨prepared.put (Operation.preparing_program operation), .inl ⟨harmless (by simp), sound⟩⟩
  | advance who =>
    by_cases writes : ∃ operation since,
        world.process who = some ⟨operation, operation.writing space queue, since⟩
    · obtain ⟨operation, since, found⟩ := writes
      obtain ⟨after, performed⟩ := prepared.wrote found step
      refine ⟨after, ?_⟩
      rw [performed]
      by_cases severs : operation.Severs space queue world.memory
      · exact .inr ⟨⟨who, operation, since, rfl, found, severs⟩, sound.severed severs⟩
      · refine .inl ⟨?_, sound.perform severs⟩
        rintro ⟨_, _, _, same, other, severing⟩
        cases same
        cases found.symm.trans other
        exact severs severing
    · have other operation since
          (found : world.process who = some ⟨operation, operation.writing space queue, since⟩) :
          False := writes ⟨operation, since, found⟩
      obtain ⟨after, same⟩ := prepared.looked sound other step
      refine ⟨after, .inl ⟨?_, same ▸ sound⟩⟩
      rintro ⟨_, operation, since, equal, found, -⟩
      cases equal
      exact other operation since found

/-- A move that would sever can happen. -/
theorem Severing.step (severing : Severing space queue world move) :
    ∃ next, world.step? (Operation.programs space queue) move = some next := by
  obtain ⟨who, operation, since, rfl, found, -⟩ := severing
  simp only [Operation.writing, asking] at found
  exact ⟨_, World.step?_call found⟩

end Steps

/-- While a store is sound, it can be relied on. -/
theorem Sound.consistent {space : Keyspace} {queue : String} {memory : Memory}
    (sound : Sound space queue memory.slots) : Consistent space queue memory where
  coupled := sound.coupled
  restores _ _ _ _ restored := sound.waits_of_restoreInflight restored
  accepted := sound.requireRecurring_run

section Runs

variable {ι : Type} [DecidableEq ι] {space : Keyspace} {queue : String}

/-- From a sound store on, a queue and its frequencies stay together exactly if nothing severs them. -/
theorem consistent_iff_of_sound {world : Users ι} (prepared : Prepared space queue world)
    (sound : Sound space queue world.memory.slots) (moves : List (Move ι Operation)) :
    (∀ visited ∈ world.visits (Operation.programs space queue) moves, Consistent space queue visited.memory) ↔
      ∀ made ∈ world.trace (Operation.programs space queue) moves, ¬ Severing space queue made.1 made.2 := by
  induction moves generalizing world with
  | nil => exact ⟨fun _ => List.forall_mem_nil _, fun _ => List.forall_mem_singleton.mpr sound.consistent⟩
  | cons move moves ih =>
    rw [World.visits, World.trace, List.forall_mem_cons, List.forall_mem_cons]
    cases step : world.step? (Operation.programs space queue) move with
    | none =>
      constructor
      · intro _
        refine ⟨?_, List.forall_mem_nil _⟩
        intro severing
        obtain ⟨next, happens⟩ := severing.step
        cases step.symm.trans happens
      · intro _
        exact ⟨sound.consistent, List.forall_mem_nil _⟩
    | some next =>
      obtain ⟨after, ⟨harmless, kept⟩ | ⟨severing, broken⟩⟩ := prepared.step sound step
      · have rest := ih after kept
        constructor
        · intro all
          exact ⟨harmless, rest.mp all.2⟩
        · intro none
          exact ⟨sound.consistent, rest.mpr none.2⟩
      · constructor
        · intro all
          exact absurd (all.2 next (World.mem_visits next moves)).coupled broken
        · intro none
          exact absurd severing none.1

/-- In a run from an empty store a queue and its frequencies stay together exactly if no payload that has a
frequency is ever removed as if it had none. -/
theorem consistent_iff_not_severing (space : Keyspace) (queue : String) (moves : List (Move ι Operation)) :
    (∀ world ∈ World.fresh.visits (Operation.programs space queue) moves,
      Consistent space queue world.memory) ↔
      ∀ made ∈ World.fresh.trace (Operation.programs space queue) moves,
        ¬ Severing space queue made.1 made.2 := by
  have prepared : Prepared space queue (World.fresh : Users ι) := by
    intro who process absent
    contradiction
  exact consistent_iff_of_sound prepared ⟨Slots.lasting_nil, .alone _⟩ moves

end Runs

/-- A recurring payload is taken by a worker, and removed as if it had no frequency. -/
def cancelled : List (Move Nat Operation) :=
  [.start 0 (.enqueueRecurring "tick" 0 1000), .advance 0, .advance 0, .advance 0,
    .start 0 (.list (.dequeue "w" 0)), .advance 0,
    .start 0 (.removeDelayed "tick"), .advance 0, .advance 0]

/-- The store after that. -/
def cancelled? : Option Memory :=
  (World.fresh.run? (Operation.programs ⟨"app"⟩ "mail") cancelled).map World.memory

/-- What the worker of `cancelled` gets when it restores the payload, and the store behind that. -/
def restored (memory : Memory) : Except StoreError (Option String) × Memory :=
  memory.perform (.restoreInflight (route ⟨"app"⟩ "w" "mail") 5)

/-- The frequency stays behind without a queue: what the worker restores is dropped, and the queue takes no
recurring payload any more. -/
theorem cancelled_not_coupled :
    ∃ memory, cancelled? = some memory ∧ ¬ Coupled ⟨"app"⟩ "mail" memory.slots ∧
      (restored memory).1 = .ok (some "tick") ∧ ¬ Waits ⟨"app"⟩ "mail" (restored memory).2.slots "tick" ∧
      ((requireRecurring ⟨"app"⟩ "mail").run memory).1 =
        .error (.wrongKind "mail" .recurring (.withCompanion .absent .hash)) := by
  have gone : cancelled?.bind (·.slots.entry? (Keyspace.queue ⟨"app"⟩ "mail")) = none := by decide +kernel
  have companion : cancelled?.bind (·.slots.entry? (Keyspace.recurring ⟨"app"⟩ "mail")) =
      some (.hash [("tick", "1000")]) := by decide +kernel
  have answer : cancelled?.map (restored · |>.1) = some (.ok (some "tick")) := by decide +kernel
  have still : cancelled?.bind (restored · |>.2.slots.entry? (Keyspace.queue ⟨"app"⟩ "mail")) = none := by
    decide +kernel
  have refused : cancelled?.map (fun memory => ((requireRecurring ⟨"app"⟩ "mail").run memory).1) =
      some (.error (.wrongKind "mail" .recurring (.withCompanion .absent .hash))) := by decide +kernel
  cases stored : cancelled? with
  | none =>
    rw [stored] at companion
    cases companion
  | some memory =>
    rw [stored] at gone companion answer still refused
    refine ⟨memory, rfl, ?_, Option.some.inj answer, ?_, Option.some.inj refused⟩
    · intro coupled
      obtain ⟨_, _, _, held, _⟩ := coupled _ companion
      cases gone.symm.trans held
    · rintro (⟨_, held, _⟩ | ⟨_, held, _⟩) <;> cases still.symm.trans held

end JobQueue.Queue
