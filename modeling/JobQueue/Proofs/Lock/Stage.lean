import JobQueue.Lock
import JobQueue.Proofs.Interleaving

/-! # The stages of taking a lock

A program that takes a lock is a small machine: before each of its requests it is at one of a few stages,
and the answer decides on the next. The machine is written out here, and shown to be the program. What
others can catch a program at, while it takes a lock, are its stages and nothing else.
-/

namespace JobQueue.Lock

open Queue (ask asking ask_eq)

/-- What a holder may do with a lock. -/
inductive Operation where
  | acquiring (seconds : Nat)
  | releasing
deriving DecidableEq, Repr

/-- The program of an operation of a holder. -/
def Operation.program (space : Keyspace) (lock holder : String) : Operation → Task QueueError Bool
  | .acquiring seconds => acquire space lock holder seconds
  | .releasing => release space lock holder

/-- The programs of all holders of a lock. -/
abbrev programs (space : Keyspace) (lock : String) : String → Operation → Task QueueError Bool :=
  fun holder operation => operation.program space lock holder

/-- What a program that takes a lock is about to ask. -/
inductive Stage where
  /-- Whose the lock is. -/
  | look
  /-- For more time, the lock being the holder's, and whether it still is. -/
  | renew
  | confirmRenewal
  /-- Whether the lock expires, and again after a wait. -/
  | probe
  | probeAgain
  /-- Whose the lock is that received no time to live. -/
  | inspect
  /-- For the time to live that the lock, being the holder's, did not receive, and whether it still is. -/
  | adopt
  | confirmAdoption
  /-- To delete the lock that `current` left. -/
  | drop (current : String)
  /-- To create the lock, to give it its time to live, and whether it still is the holder's. -/
  | create
  | limit
  | confirm
deriving DecidableEq, Repr

/-- Where a program that takes a lock may be. -/
inductive Point where
  | before (stage : Stage)
  | sleeping
  | ended (answer : Bool)
deriving DecidableEq, Repr

/-- Whether a lock is in the name of a holder. -/
def named (holder : String) (value? : Option String) : Bool := value? = some holder

section Machine

variable (key holder : String) (seconds : Nat)

/-- What a stage asks. -/
def Stage.request : Stage → Request
  | look | confirmRenewal | inspect | confirmAdoption | confirm => .get key
  | renew | adopt | limit => .expire key seconds
  | probe | probeAgain => .timeToLive key
  | drop current => .compareAndDelete key current
  | create => .setIfAbsent key holder

/-- Where an answer leads. -/
def Stage.react : (stage : Stage) → (stage.request key holder seconds).Reply → Point
  | look, value? => if named holder value? then .before renew else .before probe
  | renew, true => .before confirmRenewal
  | renew, false => .before probe
  | confirmRenewal, value? => if named holder value? then .ended true else .before probe
  | probe, .persistent => .sleeping
  | probe, _ => .before create
  | probeAgain, .persistent => .before inspect
  | probeAgain, .expires _ => .ended false
  | probeAgain, .missing => .before create
  | inspect, some current => if current = holder then .before adopt else .before (drop current)
  | inspect, none => .before create
  | adopt, true => .before confirmAdoption
  | adopt, false => .before create
  | confirmAdoption, value? => if named holder value? then .ended true else .before create
  | drop _, _ => .before create
  | create, true => .before limit
  | create, false => .ended false
  | limit, true => .before confirm
  | limit, false => .ended false
  | confirm, value? => .ended (named holder value?)

/-- What is left of the program at a stage. -/
def Stage.program : Stage → Task QueueError Bool
  | look => do
    if ← holds key holder then
      if ← extend key holder seconds then return true else contend key holder seconds
    else contend key holder seconds
  | renew => do if ← extend key holder seconds then return true else contend key holder seconds
  | confirmRenewal => do if ← holds key holder then return true else contend key holder seconds
  | probe => contend key holder seconds
  | probeAgain => do
    match ← ask (.timeToLive key) with
    | .persistent => reclaim key holder seconds
    | .expires _ => return false
    | .missing => Lock.create key holder seconds
  | inspect => reclaim key holder seconds
  | adopt => do if ← extend key holder seconds then return true else Lock.create key holder seconds
  | confirmAdoption => do if ← holds key holder then return true else Lock.create key holder seconds
  | drop current => do
    let _ ← ask (.compareAndDelete key current)
    Lock.create key holder seconds
  | create => Lock.create key holder seconds
  | limit => extend key holder seconds
  | confirm => holds key holder

def Point.program : Point → Task QueueError Bool
  | .before stage => stage.program key holder seconds
  | sleeping => .sleep gracePeriod (Stage.probeAgain.program key holder seconds)
  | ended answer => .done answer

end Machine

section Machine

variable {key holder : String} {seconds : Nat}

theorem Point.program_ite (condition : Bool) (first second : Point) :
    (if condition then first else second).program key holder seconds =
      if condition then first.program key holder seconds else second.program key holder seconds := by
  cases condition <;> rfl

/-- At every stage the program asks what the machine asks and goes where the machine goes. -/
theorem Stage.program_eq (stage : Stage) :
    stage.program key holder seconds =
      asking (stage.request key holder seconds) fun reply =>
        (stage.react key holder seconds reply).program key holder seconds := by
  have asked {request : Request} {rest : Except StoreError request.Reply → Task QueueError Bool}
      {next : request.Reply → Task QueueError Bool}
      (failed : ∀ cause, rest (.error cause) = .fail (.store cause))
      (replied : ∀ reply, rest (.ok reply) = next reply) :
      Task.call request rest = asking request next := by
    apply congrArg (Task.call request)
    funext answer
    cases answer with
    | ok reply => exact replied reply
    | error cause => exact failed cause
  cases stage with
  | look | confirmRenewal | confirmAdoption =>
    apply asked (fun _ => rfl)
    intro reply
    simp only [react]
    rw [Point.program_ite]
    rfl
  | renew | adopt | limit | create =>
    apply asked (fun _ => rfl)
    intro reply
    cases reply <;> rfl
  | probe | probeAgain =>
    apply asked (fun _ => rfl)
    intro reply
    cases reply <;> rfl
  | inspect =>
    apply asked (fun _ => rfl)
    intro reply
    cases reply with
    | none => rfl
    | some current =>
      simp only [react]
      split
      · next same => exact if_pos same
      · next other => exact if_neg other
  | drop current => exact asked (fun _ => rfl) fun _ => rfl
  | confirm => exact asked (fun _ => rfl) fun _ => rfl

end Machine

/-- A program has ended only where the machine has. -/
theorem Point.outcome?_program (key holder : String) (seconds : Nat) (point : Point) :
    (point.program key holder seconds).outcome? = match point with
      | ended answer => some (.ok answer)
      | _ => none := by
  cases point with
  | before stage =>
    rw [program, Stage.program_eq]
    rfl
  | sleeping => rfl
  | ended answer => rfl

/-! ## Processes at their stages -/

/-- The processes that take and release one lock, and the store they share. -/
abbrev Holders := World String Operation QueueError Bool

/-- A process that takes the lock, at some point of it. -/
def IsAt (key holder : String) (seconds : Nat) (point : Point)
    (process : Process Operation QueueError Bool) : Prop :=
  process.operation = .acquiring seconds ∧ process.program = point.program key holder seconds

/-- Where a process can be at all. -/
inductive Caught (space : Keyspace) (lock holder : String)
    (process : Process Operation QueueError Bool) : Prop
  | acquiring {seconds : Nat} (point : Point) (positive : 0 < seconds) (named : lock != "" ∧ holder != "")
      (isAt : IsAt (space.lock lock) holder seconds point process)
  | releasing (operation : process.operation = .releasing)
      (program : process.program = asking (.compareAndDelete (space.lock lock) holder) Task.done)
  | released (operation : process.operation = .releasing) {answer : Bool}
      (program : process.program = .done answer)
  | failed {error : QueueError} (program : process.program = .fail error)

/-- Every process is where a process can be. -/
def AllCaught (space : Keyspace) (lock : String) (world : Holders) : Prop :=
  ∀ holder process, world.process holder = some process → Caught space lock holder process

section Programs

variable {space : Keyspace} {lock holder : String}

/-- With good arguments, taking a lock begins with looking whose it is. -/
theorem acquire_eq (named : lock != "" ∧ holder != "") {seconds : Nat} (positive : 0 < seconds) :
    acquire space lock holder seconds = Stage.look.program (space.lock lock) holder seconds := by
  have some : (seconds != 0) = true := by simpa using Nat.pos_iff_ne_zero.mp positive
  unfold acquire demandNames Queue.demand
  rw [if_pos named.1, if_pos named.2, if_pos some]
  rfl

/-- Without good arguments, taking a lock fails at once. -/
theorem acquire_cases (seconds : Nat) :
    (∃ error, acquire space lock holder seconds = .fail error) ∨
      (lock != "" ∧ holder != "") ∧ 0 < seconds := by
  by_cases lockNamed : (lock != "") = true
  · by_cases holderNamed : (holder != "") = true
    · by_cases positive : (seconds != 0) = true
      · exact .inr ⟨⟨lockNamed, holderNamed⟩, Nat.pos_of_ne_zero (by simpa using positive)⟩
      · unfold acquire demandNames Queue.demand
        rw [if_pos lockNamed, if_pos holderNamed, if_neg positive]
        exact .inl ⟨_, rfl⟩
    · unfold acquire demandNames Queue.demand
      rw [if_pos lockNamed, if_neg holderNamed]
      exact .inl ⟨_, rfl⟩
  · unfold acquire demandNames Queue.demand
    rw [if_neg lockNamed]
    exact .inl ⟨_, rfl⟩

theorem release_eq :
    (∃ error, release space lock holder = .fail error) ∨
      release space lock holder = asking (.compareAndDelete (space.lock lock) holder) Task.done := by
  unfold release demandNames Queue.demand
  by_cases lockNamed : (lock != "") = true
  · by_cases holderNamed : (holder != "") = true
    · rw [if_pos lockNamed, if_pos holderNamed]
      exact .inr (ask_eq _)
    · rw [if_pos lockNamed, if_neg holderNamed]
      exact .inl ⟨_, rfl⟩
  · rw [if_neg lockNamed]
    exact .inl ⟨_, rfl⟩

end Programs

section Kept

variable {space : Keyspace} {lock : String}

/-- A process that begins is where a process can be. -/
theorem caught_begun (holder : String) (operation : Operation) (since : Nat) :
    Caught space lock holder ⟨operation, operation.program space lock holder, since⟩ := by
  cases operation with
  | acquiring seconds =>
    rcases acquire_cases seconds with ⟨error, failed⟩ | ⟨named, positive⟩
    · exact .failed failed
    · exact .acquiring (.before .look) positive named ⟨rfl, acquire_eq named positive⟩
  | releasing =>
    rcases release_eq with ⟨error, failed⟩ | begins
    · exact .failed failed
    · exact .releasing rfl begins

/-- Where a process goes when it is answered. -/
theorem Caught.answered {holder : String} {operation : Operation} {request : Request}
    {rest : Except StoreError request.Reply → Task QueueError Bool} {since now : Nat}
    (caught : Caught space lock holder ⟨operation, .call request rest, since⟩)
    (answer : Except StoreError request.Reply) : Caught space lock holder ⟨operation, rest answer, now⟩ := by
  cases caught with
  | acquiring point positive named isAt =>
    obtain ⟨rfl, program⟩ := isAt
    cases point with
    | before stage =>
      rw [Point.program, Stage.program_eq, asking] at program
      cases program
      cases answer with
      | ok reply => exact .acquiring _ positive named ⟨rfl, rfl⟩
      | error cause => exact .failed rfl
    | sleeping => contradiction
    | ended answer => contradiction
  | releasing releasing program =>
    rw [asking] at program
    cases program
    cases answer with
    | ok reply => exact .released releasing rfl
    | error cause => exact .failed rfl
  | released _ program => contradiction
  | failed program => contradiction

/-- A process that wakes up goes on where it can be. -/
theorem Caught.woken {holder : String} {operation : Operation} {millis : Nat} {rest : Task QueueError Bool}
    {since now : Nat} (caught : Caught space lock holder ⟨operation, .sleep millis rest, since⟩) :
    Caught space lock holder ⟨operation, rest, now⟩ := by
  cases caught with
  | acquiring point positive named isAt =>
    obtain ⟨rfl, program⟩ := isAt
    cases point with
    | before stage =>
      rw [Point.program, Stage.program_eq, asking] at program
      contradiction
    | sleeping =>
      cases program
      exact .acquiring (.before .probeAgain) positive named ⟨rfl, rfl⟩
    | ended answer => contradiction
  | releasing _ program =>
    rw [asking] at program
    contradiction
  | released _ program => contradiction
  | failed program => contradiction

/-- Whatever happens, every process stays where a process can be. -/
theorem allCaught_step {world next : Holders} (caught : AllCaught space lock world)
    {move : Move String Operation} (step : world.step? (programs space lock) move = some next) :
    AllCaught space lock next := by
  cases move with
  | tick millis | reach available | spoil =>
    cases step
    exact caught
  | start who operation =>
    obtain ⟨-, rfl⟩ := World.step?_start step
    exact World.forall_put caught (caught_begun who operation _)
  | advance who =>
    rcases World.step?_advance step with ⟨_, _, _, _, process, rfl⟩ | ⟨_, _, _, _, process, rfl⟩
    · exact World.forall_put caught ((caught who _ process).answered _)
    · exact World.forall_put caught (caught who _ process).woken

/-- In every run every process is where a process can be. -/
theorem allCaught_run {memory : Memory} {moves : List (Move String Operation)} {world : Holders}
    (run : (World.mk memory fun _ => none).run? (programs space lock) moves = some world) :
    AllCaught space lock world := by
  refine World.run?_invariant (AllCaught space lock) ?_ ?_ run
  · intro move _ world next caught step
    exact allCaught_step caught step
  · intro who process absent
    contradiction

/-- A process at a stage asks what the stage asks, and goes where the reply leads. -/
theorem step?_replied {world : Holders} {who : String} {seconds since : Nat} {stage : Stage}
    (process : world.process who =
      some ⟨.acquiring seconds, stage.program (space.lock lock) who seconds, since⟩)
    {reply : (stage.request (space.lock lock) who seconds).Reply}
    (replied : (world.memory.perform (stage.request (space.lock lock) who seconds)).1 = .ok reply) :
    world.step? (programs space lock) (.advance who) =
      some (World.put
        ⟨(world.memory.perform (stage.request (space.lock lock) who seconds)).2, world.process⟩ who
        ⟨.acquiring seconds,
          (stage.react (space.lock lock) who seconds reply).program (space.lock lock) who seconds,
          world.memory.clock⟩) := by
  rw [Stage.program_eq] at process
  rw [World.step?_call process, Memory.clock_perform, replied]

/-- A process that is refused an answer ends. -/
theorem step?_refused {world : Holders} {who : String} {seconds since : Nat} {stage : Stage}
    (process : world.process who =
      some ⟨.acquiring seconds, stage.program (space.lock lock) who seconds, since⟩) {cause : StoreError}
    (refused : (world.memory.perform (stage.request (space.lock lock) who seconds)).1 = .error cause) :
    world.step? (programs space lock) (.advance who) =
      some (World.put
        ⟨(world.memory.perform (stage.request (space.lock lock) who seconds)).2, world.process⟩ who
        ⟨.acquiring seconds, .fail (.store cause), world.memory.clock⟩) := by
  rw [Stage.program_eq] at process
  rw [World.step?_call process, Memory.clock_perform, refused]

end Kept

end JobQueue.Lock
