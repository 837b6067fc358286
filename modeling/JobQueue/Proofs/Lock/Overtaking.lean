import JobQueue.Proofs.Lock.Exclusion

/-! # When a lock is taken while it is another's

A holder that was told it has the lock for some seconds is overtaken if another process is told so before
the seconds are over, although the holder did not begin anything new. This happens in some run exactly if
another process was a threat when the holder extended the lock.
-/

namespace JobQueue.Lock

open Queue (asking)

/-- A holder gives the lock its time to live, and its next request is the last: it is told it has the lock. -/
structure Grants (space : Keyspace) (lock : String) (world granted : Holders)
    (holder : String) (seconds : Nat) : Prop where
  asks : ∃ operation rest began, world.process holder =
    some ⟨operation, .call (.expire (space.lock lock) seconds) rest, began⟩
  step : world.step? (programs space lock) (.advance holder) = some granted
  returns : ∃ moves confirmed last taken, (∀ move ∈ moves, move.isOf holder = false) ∧
    granted.run? (programs space lock) moves = some confirmed ∧
    confirmed.step? (programs space lock) (.advance holder) = some last ∧
    last.returned? holder = some (.acquiring taken, .ok true)

/-- Another process is told it has the lock before a time, and the holder is told so as well, in a run in
which the holder begins nothing new. -/
def Overtaken (space : Keyspace) (lock : String) (world : Holders) (holder : String)
    (deadline : Nat) : Prop :=
  ∃ moves before other after taken more last own, other ≠ holder ∧
    (∀ move ∈ moves ++ more, move.starts holder = false) ∧
    world.run? (programs space lock) moves = some before ∧ before.memory.clock < deadline ∧
    before.step? (programs space lock) (.advance other) = some after ∧
    after.returned? other = some (.acquiring taken, .ok true) ∧
    after.run? (programs space lock) more = some last ∧
    last.returned? holder = some (.acquiring own, .ok true)

/-- The lock is not in the name of a holder. -/
def Foreign (key holder : String) (memory : Memory) : Prop :=
  (memory.held key).map Slot.entry ≠ some (.string holder)

section Names

variable {key holder : String} {memory : Memory}

/-- Releasing only takes a lock out of a name. -/
theorem Foreign.perform_release (foreign : Foreign key holder memory) (other : String) :
    Foreign key holder (memory.perform (.compareAndDelete key other)).2 := by
  by_cases available : memory.unavailable = false
  · unfold Foreign at foreign ⊢
    by_cases same : (memory.held key).map Slot.entry = some (.string other)
    · obtain ⟨⟨entry, time?⟩, held, equal⟩ := Option.map_eq_some_iff.mp same
      cases equal
      rw [(Memory.answers_compareAndDelete available held).held]
      intro same
      contradiction
    · rw [(Memory.answers_compareAndDelete_other available same).held]
      exact foreign
  · rw [Memory.perform_unavailable (eq_true_of_ne_false available)]
    exact foreign

/-- No other process puts the lock in the name of a holder. -/
theorem Foreign.perform (foreign : Foreign key holder memory) {other : String} (differ : other ≠ holder)
    {seconds : Nat} (positive : 0 < seconds) (stage : Stage) :
    Foreign key holder (memory.perform (stage.request key other seconds)).2 := by
  by_cases available : memory.unavailable = false
  · have time? := @Memory.answers_timeToLive memory key available
    have dropped := foreign.perform_release
    unfold Foreign at foreign ⊢
    cases stage with
    | drop current => exact dropped current
    | look | confirmRenewal | inspect | confirmAdoption | confirm =>
      rw [Stage.request, Memory.held_perform_get]
      exact foreign
    | probe | probeAgain =>
      rw [Stage.request, time?.held]
      exact foreign
    | renew | adopt | limit =>
      rw [Stage.request]
      cases held : memory.held key with
      | none =>
        rw [(Memory.answers_expire_none available held seconds).held]
        intro same
        contradiction
      | some slot =>
        rw [held] at foreign
        rw [(Memory.answers_expire available held positive).held]
        exact foreign
    | create =>
      rw [Stage.request]
      cases held : memory.held key with
      | none =>
        rw [(Memory.answers_setIfAbsent available held other).held]
        intro same
        cases same
        exact differ rfl
      | some slot =>
        rw [held] at foreign
        rw [(Memory.answers_setIfAbsent_held available held other).held]
        exact foreign
  · rw [Memory.perform_unavailable (eq_true_of_ne_false available)]
    exact foreign

/-- A reply that tells a process it has the lock is one that names it. -/
theorem Stage.react_taken {stage : Stage} {seconds : Nat} {reply : (stage.request key holder seconds).Reply}
    (taken : stage.react key holder seconds reply = .ended true)
    (replied : (memory.perform (stage.request key holder seconds)).1 = .ok reply) :
    stage.Confirms ∧ ¬ Foreign key holder memory := by
  have names {value? : Option String} (own : named holder value? = true)
      (got : (memory.perform (.get key)).1 = .ok value?) : ¬ Foreign key holder memory := by
    have some : value? = some holder := by simpa [named] using own
    rw [some] at got
    exact fun foreign => foreign (Memory.entry_of_get got)
  cases stage with
  | look =>
    simp only [react] at taken
    split at taken <;> cases taken
  | confirmRenewal =>
    simp only [react] at taken
    split at taken
    · next own => exact ⟨.inl rfl, names own replied⟩
    · contradiction
  | confirmAdoption =>
    simp only [react] at taken
    split at taken
    · next own => exact ⟨.inr (.inl rfl), names own replied⟩
    · contradiction
  | confirm => exact ⟨.inr (.inr rfl), names (Point.ended.inj taken) replied⟩
  | inspect =>
    cases reply with
    | none => contradiction
    | some current =>
      simp only [react] at taken
      split at taken <;> cases taken
  | renew | adopt | limit | create | probe | probeAgain => cases reply <;> cases taken
  | drop current => contradiction

end Names

section Runs

variable {space : Keyspace} {lock holder : String} {world next : Holders}

/-- What the others do keeps a lock out of the name of a holder, and does not move the holder. -/
theorem foreign_step (caught : AllCaught space lock world)
    (foreign : Foreign (space.lock lock) holder world.memory) {move : Move String Operation}
    (others : move.isOf holder = false) (step : world.step? (programs space lock) move = some next) :
    Foreign (space.lock lock) holder next.memory := by
  cases move with
  | tick millis =>
    cases step
    unfold Foreign
    rcases world.memory.held_advance_or (space.lock lock) millis with same | gone
    · rw [same]
      exact foreign
    · rw [gone]
      intro same
      contradiction
  | reach available | spoil =>
    cases step
    exact foreign
  | start who operation =>
    obtain ⟨-, rfl⟩ := World.step?_start step
    exact foreign
  | advance who =>
    have differ : who ≠ holder := by simpa [Move.isOf] using others
    rcases World.step?_advance step with ⟨operation, request, rest, began, found, rfl⟩ | ⟨_, _, _, _, _, rfl⟩
    · cases caught who _ found with
      | acquiring point positive named isAt =>
        obtain ⟨-, program⟩ := isAt
        cases point with
        | before stage =>
          rw [Point.program, Stage.program_eq, asking] at program
          cases program
          exact foreign.perform differ positive stage
        | sleeping => contradiction
        | ended answer => contradiction
      | releasing operation program =>
        rw [asking] at program
        cases program
        exact foreign.perform_release who
      | released _ program => contradiction
      | failed program => contradiction
    · exact foreign

/-- A process that is told it has the lock has confirmed that the lock is in its name. -/
theorem confirms_of_returned (caught : AllCaught space lock world)
    (step : world.step? (programs space lock) (.advance holder) = some next) {taken : Nat}
    (returned : next.returned? holder = some (.acquiring taken, .ok true)) :
    ∃ stage began, Stage.Confirms stage ∧
      world.process holder = some ⟨.acquiring taken, stage.program (space.lock lock) holder taken, began⟩ ∧
      ¬ Foreign (space.lock lock) holder world.memory := by
  have ended {memory : Memory} {process : Process Operation QueueError Bool}
      (same : next = World.put ⟨memory, world.process⟩ holder process) :
      process.operation = .acquiring taken ∧ process.program.outcome? = some (.ok true) := by
    rw [same, World.returned?_put] at returned
    obtain ⟨outcome, ended, equal⟩ := Option.map_eq_some_iff.mp returned
    obtain ⟨operation, rfl⟩ := Prod.mk.inj equal
    exact ⟨operation, ended⟩
  rcases World.step?_advance step with ⟨operation, request, rest, began, found, same⟩ |
    ⟨operation, millis, rest, began, found, same⟩
  · cases caught holder _ found with
    | @acquiring seconds point positive named isAt =>
      obtain ⟨rfl, program⟩ := isAt
      cases point with
      | before stage =>
        dsimp only [Point.program] at program
        rw [program] at found
        cases answer : (world.memory.perform (stage.request (space.lock lock) holder seconds)).1 with
        | error cause =>
          rw [step?_refused found answer] at step
          obtain ⟨-, ⟨⟩⟩ := ended (Option.some.inj step).symm
        | ok reply =>
          rw [step?_replied found answer] at step
          obtain ⟨operation, outcome⟩ := ended (Option.some.inj step).symm
          cases operation
          rw [Point.outcome?_program] at outcome
          split at outcome
          · next taken =>
            cases outcome
            obtain ⟨confirms, own⟩ := Stage.react_taken taken answer
            exact ⟨stage, began, confirms, found, own⟩
          · contradiction
      | sleeping => contradiction
      | ended answer => contradiction
    | releasing releasing program =>
      have acquiring := releasing.symm.trans (ended same).1
      contradiction
    | released _ program => contradiction
    | failed program => contradiction
  · cases caught holder _ found with
    | acquiring point positive named isAt =>
      obtain ⟨rfl, program⟩ := isAt
      cases point with
      | before stage =>
        rw [Point.program, Stage.program_eq] at program
        contradiction
      | sleeping =>
        cases program
        obtain ⟨-, ⟨⟩⟩ := ended same
      | ended answer => contradiction
    | releasing _ program => contradiction
    | released _ program => contradiction
    | failed program => contradiction

/-- A lock as its holder has just been given it: the holder has only to confirm that it is its own. -/
structure Given (key : String) (world granted : Holders) (holder : String) (seconds : Nat) : Prop where
  available : granted.memory.unavailable = false
  clock : granted.memory.clock = world.memory.clock
  held : granted.memory.held key = some ⟨.string holder, some (world.memory.clock + seconds * 1000)⟩
  own : ∃ stage began, Stage.Confirms stage ∧
    granted.process holder = some ⟨.acquiring seconds, stage.program key holder seconds, began⟩
  positive : 0 < seconds

/-- A holder that will be told it has the lock extended it while it was in its own name. -/
theorem Grants.given {granted : Holders} {seconds : Nat} (caught : AllCaught space lock world)
    (grants : Grants space lock world granted holder seconds) :
    Given (space.lock lock) world granted holder seconds := by
  obtain ⟨operation, rest, began, found⟩ := grants.asks
  obtain ⟨moves, confirmed, last, taken, others, run, step, returned⟩ := grants.returns
  have caughtGranted := allCaught_step caught grants.step
  -- nobody else moves the holder or puts the lock in its name, so what it confirms held from the start
  obtain ⟨caughtConfirmed, same, foreign⟩ := World.run?_invariant
    (fun world => AllCaught space lock world ∧ world.process holder = granted.process holder ∧
      (Foreign (space.lock lock) holder granted.memory → Foreign (space.lock lock) holder world.memory))
    (fun move member world next ⟨caught, same, foreign⟩ step =>
      ⟨allCaught_step caught step, (World.process_step (others move member) step).trans same,
        fun first => foreign_step caught (foreign first) (others move member) step⟩)
    ⟨caughtGranted, rfl, id⟩ run
  obtain ⟨stage, began', confirms, confirming, own⟩ := confirms_of_returned caughtConfirmed step returned
  rw [same] at confirming
  have own : ¬ Foreign (space.lock lock) holder granted.memory := fun first => own (foreign first)
  cases caught holder _ found with
  | @acquiring asked point positive named isAt =>
    obtain ⟨rfl, program⟩ := isAt
    cases point with
    | before extending =>
      have request :
          extending.request (space.lock lock) holder asked = .expire (space.lock lock) seconds := by
        rw [Point.program, Stage.program_eq, asking] at program
        exact (Task.call.inj program).1.symm
      obtain rfl : asked = seconds := by
        cases extending <;> cases request <;> rfl
      have extendingNow : world.process holder =
          some ⟨.acquiring asked, extending.program (space.lock lock) holder asked, began⟩ := by
        dsimp only [Point.program] at program
        rw [found, program]
      have answered : world.step? (programs space lock) (.advance holder) = _ := World.step?_call found
      have result := answered.symm.trans grants.step
      have memory : granted.memory = (world.memory.perform (.expire (space.lock lock) asked)).2 := by
        rw [← Option.some.inj result]
        rfl
      by_cases available : world.memory.unavailable = false
      · cases held : world.memory.held (space.lock lock) with
        | none =>
          have gone := (Memory.answers_expire_none available held asked).held
          rw [← memory] at gone
          apply absurd _ own
          intro named
          rw [gone] at named
          contradiction
        | some slot =>
          have extended := (Memory.answers_expire available held positive).held
          rw [← memory] at extended
          have entry : slot.entry = .string holder := by
            simpa [Foreign, extended] using own
          rw [← Option.some.inj result, World.put_same] at confirming
          obtain ⟨operation, program, -⟩ := Process.mk.inj (Option.some.inj confirming)
          cases operation
          refine ⟨?_, ?_, ?_, ⟨stage, world.memory.clock, confirms, ?_⟩, positive⟩
          · rw [memory, Memory.unavailable_perform]
            exact available
          · rw [memory, Memory.clock_perform]
          · rw [extended, entry]
          · rw [← Option.some.inj result, World.put_same, program, Memory.clock_perform]
      · -- refused, the holder has failed and confirms nothing
        have refused := Memory.perform_unavailable (eq_true_of_ne_false available)
          (extending.request (space.lock lock) holder asked)
        have failed := (step?_refused extendingNow (congrArg Prod.fst refused)).symm.trans grants.step
        rw [← Option.some.inj failed, World.put_same, Stage.program_eq] at confirming
        cases confirming
    | sleeping => contradiction
    | ended answer => contradiction
  | releasing _ program => cases program
  | released _ program => contradiction
  | failed program => contradiction

/-- Without a threat, a lock that was just given is undisturbed. -/
theorem Given.undisturbed {granted : Holders} {seconds : Nat}
    (given : Given (space.lock lock) world granted holder seconds) (caught : AllCaught space lock granted)
    (unthreatened : ¬ Threatened (space.lock lock) granted holder seconds) :
    Undisturbed (space.lock lock) holder world.memory.clock seconds granted where
  guard := ⟨Nat.le_of_eq given.clock.symm, _, Nat.le_refl _, given.held⟩
  own process found := by
    obtain ⟨stage, began, confirms, own⟩ := given.own
    cases found.symm.trans own
    exact .inr ⟨seconds, stage, ⟨rfl, rfl⟩, confirms⟩
  others other differ process found := by
    cases caught other process found with
    | @acquiring asked point positive named isAt =>
      cases point with
      | before stage =>
        refine .acquiring _ positive isAt fun threatens => unthreatened ?_
        obtain ⟨operation, program, began⟩ := process
        obtain ⟨rfl, rfl⟩ := isAt
        exact ⟨other, asked, stage, began, differ, found, threatens⟩
      | sleeping => exact .acquiring _ positive isAt trivial
      | ended answer =>
        refine .ended ?_
        rw [isAt.2]
        rfl
    | releasing operation program => exact .releasing operation program
    | released _ program =>
      refine .ended ?_
      rw [program]
      rfl
    | failed program =>
      refine .ended ?_
      rw [program]
      rfl

end Runs

/-! ## How a threat comes true -/

section Scenes

variable {space : Keyspace} {lock holder other : String} {own seconds deadline : Nat} {world next : Holders}

/-- A world in which a holder was told it has the lock, and another process is at some point before a time. -/
structure Scene (space : Keyspace) (lock holder other : String) (own seconds deadline : Nat) (point : Point)
    (slot? : Option Slot) (world : Holders) : Prop where
  differ : other ≠ holder
  names : lock != "" ∧ other != ""
  positive : 0 < seconds
  early : world.memory.clock < deadline
  available : world.memory.unavailable = false
  held : world.memory.held (space.lock lock) = slot?
  returned : world.returned? holder = some (.acquiring own, .ok true)
  found : ∃ began, world.process other =
    some ⟨.acquiring seconds, point.program (space.lock lock) other seconds, began⟩

theorem overtaken_of_step {move : Move String Operation} (continued : move.starts holder = false)
    (step : world.step? (programs space lock) move = some next)
    (overtaken : Overtaken space lock next holder deadline) : Overtaken space lock world holder deadline := by
  obtain ⟨moves, before, third, after, taken, more, last, own, differ, others, run, rest⟩ := overtaken
  refine ⟨move :: moves, before, third, after, taken, more, last, own, differ, ?_, ?_, rest⟩
  · intro other member
    rcases List.mem_cons.mp member with rfl | member
    · exact continued
    · exact others other member
  · rw [World.run?, step]
    exact run

/-- The other process asks and is answered. -/
theorem Scene.advance {stage : Stage} {slot? slot'? : Option Slot}
    (scene : Scene space lock holder other own seconds deadline (.before stage) slot? world)
    {reply : (stage.request (space.lock lock) other seconds).Reply}
    (answers : world.memory.Answers (stage.request (space.lock lock) other seconds)
      reply (space.lock lock) slot'?) :
    ∃ next, world.step? (programs space lock) (.advance other) = some next ∧
      Scene space lock holder other own seconds deadline
        (stage.react (space.lock lock) other seconds reply) slot'?
        next := by
  obtain ⟨began, found⟩ := scene.found
  refine ⟨_, step?_replied found answers.answer, ?_⟩
  exact {
    differ := scene.differ
    names := scene.names
    positive := scene.positive
    early := by
      rw [World.put_memory, Memory.clock_perform]
      exact scene.early
    available := by
      rw [World.put_memory, Memory.unavailable_perform]
      exact scene.available
    held := answers.held
    returned := (World.returned?_put_other _ _ (Ne.symm scene.differ)).trans scene.returned
    found := ⟨_, World.put_same _ _ _⟩ }

theorem Scene.overtaken_of_answer {stage : Stage} {slot? slot'? : Option Slot}
    (scene : Scene space lock holder other own seconds deadline (.before stage) slot? world)
    {reply : (stage.request (space.lock lock) other seconds).Reply}
    (answers : world.memory.Answers (stage.request (space.lock lock) other seconds)
      reply (space.lock lock) slot'?)
    (later : ∀ next, Scene space lock holder other own seconds deadline
      (stage.react (space.lock lock) other seconds reply) slot'? next →
        Overtaken space lock next holder deadline) :
    Overtaken space lock world holder deadline := by
  obtain ⟨next, step, scene'⟩ := scene.advance answers
  exact overtaken_of_step rfl step (later next scene')

/-- A process that confirms that a lock is its own is told so. -/
theorem Scene.confirm {time? : Option Nat}
    (scene : Scene space lock holder other own seconds deadline (.before .confirm)
      (some ⟨.string other, time?⟩) world) : Overtaken space lock world holder deadline := by
  obtain ⟨next, step, ended⟩ := scene.advance (Memory.answers_get scene.available scene.held)
  have told : Stage.confirm.react (space.lock lock) other seconds (some other) = .ended true := by
    simp [Stage.react, named]
  rw [told] at ended
  obtain ⟨began, found⟩ := ended.found
  refine ⟨[], world, other, next, seconds, [], next, own, scene.differ, List.forall_mem_nil _, rfl,
    scene.early, step, ?_, rfl, ended.returned⟩
  rw [World.returned?, found]
  rfl

/-- A process that creates the lock gets it. -/
theorem Scene.create
    (scene : Scene space lock holder other own seconds deadline (.before .create) none world) :
    Overtaken space lock world holder deadline := by
  apply scene.overtaken_of_answer (Memory.answers_setIfAbsent scene.available scene.held other)
  intro created scene
  apply scene.overtaken_of_answer (Memory.answers_expire scene.available scene.held scene.positive)
  intro limited scene
  exact scene.confirm

/-- A process that finds no lock where it looks for one that expires goes on to create it. -/
theorem Scene.probe
    (scene : Scene space lock holder other own seconds deadline (.before .probe) none world) :
    Overtaken space lock world holder deadline := by
  have answers := @Memory.answers_timeToLive world.memory (space.lock lock) scene.available
  rw [scene.held] at answers
  exact scene.overtaken_of_answer answers fun _ scene => scene.create

/-- A process whose operation has ended can begin another one, and finds no lock. -/
theorem Scene.again
    (scene : Scene space lock holder other own seconds deadline (.ended false) none world) :
    Overtaken space lock world holder deadline := by
  obtain ⟨began, found⟩ := scene.found
  have idle : world.isIdle other = true := by
    rw [World.isIdle, found]
    rfl
  have step : world.step? (programs space lock) (.start other (.acquiring 1)) =
      some (world.put other
        ⟨.acquiring 1, Stage.look.program (space.lock lock) other 1, world.memory.clock⟩) := by
    rw [World.step?, if_pos idle, programs, Operation.program, acquire_eq scene.names Nat.one_pos]
  refine overtaken_of_step (by simpa [Move.starts] using scene.differ) step ?_
  have looking : Scene space lock holder other own 1 deadline (.before .look) none
      (world.put other ⟨.acquiring 1, Stage.look.program (space.lock lock) other 1, world.memory.clock⟩) :=
    { scene with
      positive := Nat.one_pos
      returned := (World.returned?_put_other _ _ (Ne.symm scene.differ)).trans scene.returned
      found := ⟨_, World.put_same _ _ _⟩ }
  exact looking.overtaken_of_answer (Memory.answers_get_none looking.available looking.held) fun _ scene =>
    scene.probe

/-- A process that confirms a lock that has gone gets it all the same. -/
theorem Scene.confirm_gone {stage : Stage} (confirms : stage.Confirms)
    (scene : Scene space lock holder other own seconds deadline (.before stage) none world) :
    Overtaken space lock world holder deadline := by
  have gone := Memory.answers_get_none scene.available scene.held
  rcases confirms with rfl | rfl | rfl
  · exact scene.overtaken_of_answer gone fun _ scene => scene.probe
  · exact scene.overtaken_of_answer gone fun _ scene => scene.create
  · exact scene.overtaken_of_answer gone fun _ scene => scene.again

/-- A process that gives the lock too short a time sees it go. -/
theorem Scene.shorten {stage : Stage} (confirms : stage.Confirms) {time : Nat}
    (scene : Scene space lock holder other own seconds deadline (.before stage)
      (some ⟨.string holder, some time⟩) world) (soon : time < deadline) :
    Overtaken space lock world holder deadline := by
  have expired :
      Slot.liveAt ⟨.string holder, some time⟩
        (world.memory.clock + (time - world.memory.clock)) = false :=
    decide_eq_false (by omega)
  have early := scene.early
  have waited : Scene space lock holder other own seconds deadline (.before stage) none
      { world with memory := world.memory.advance (time - world.memory.clock) } :=
    { scene with
      early := by
        simp only [Memory.advance]
        omega
      held := Memory.held_advance_none scene.held expired }
  have step : world.step? (programs space lock) (.tick (time - world.memory.clock)) =
      some { world with memory := world.memory.advance (time - world.memory.clock) } := rfl
  exact overtaken_of_step rfl step (waited.confirm_gone confirms)

/-- A process that deletes the lock of the holder creates it for itself. -/
theorem Scene.drop {time? : Option Nat}
    (scene : Scene space lock holder other own seconds deadline (.before (.drop holder))
      (some ⟨.string holder, time?⟩) world) : Overtaken space lock world holder deadline :=
  scene.overtaken_of_answer (Memory.answers_compareAndDelete scene.available scene.held)
    fun _ scene => scene.create

/-- Every threat can come true. -/
theorem Scene.threat {stage : Stage} {granted : Nat} (threatens : stage.Threatens holder granted seconds)
    (scene : Scene space lock holder other own seconds deadline (.before stage)
      (some ⟨.string holder, some deadline⟩) world)
    (ends : deadline = world.memory.clock + granted * 1000) : Overtaken space lock world holder deadline := by
  have expire := Memory.answers_expire scene.available scene.held scene.positive
  have soon (shorter : seconds < granted) : world.memory.clock + seconds * 1000 < deadline := by omega
  cases stage with
  | renew =>
    exact scene.overtaken_of_answer expire fun _ scene => scene.shorten (.inl rfl) (soon threatens)
  | adopt =>
    exact scene.overtaken_of_answer expire fun _ scene => scene.shorten (.inr (.inl rfl)) (soon threatens)
  | limit =>
    exact scene.overtaken_of_answer expire fun _ scene => scene.shorten (.inr (.inr rfl)) (soon threatens)
  | inspect =>
    apply scene.overtaken_of_answer (Memory.answers_get scene.available scene.held)
    intro _ scene
    have other : Stage.inspect.react (space.lock lock) other seconds (some holder) = .before (.drop holder) :=
      if_neg (Ne.symm scene.differ)
    rw [other] at scene
    exact scene.drop
  | drop current =>
    cases threatens
    exact scene.drop
  | look | confirmRenewal | probe | probeAgain | confirmAdoption | create | confirm => contradiction

end Scenes

section Main

variable {space : Keyspace} {lock holder : String} {world granted : Holders} {seconds : Nat}

/-- A threat comes true once the holder has been told that it has the lock. -/
theorem Given.overtaken (given : Given (space.lock lock) world granted holder seconds)
    (caught : AllCaught space lock granted)
    (threatened : Threatened (space.lock lock) granted holder seconds) :
    Overtaken space lock granted holder (world.memory.clock + seconds * 1000) := by
  obtain ⟨other, asked, stage, began, differ, found, threatens⟩ := threatened
  obtain ⟨confirming, since, confirms, own⟩ := given.own
  have told : ∃ next, granted.step? (programs space lock) (.advance holder) = some next ∧
      next.memory.held (space.lock lock) =
        some ⟨.string holder, some (world.memory.clock + seconds * 1000)⟩ ∧
      next.memory.clock = world.memory.clock ∧ next.memory.unavailable = false ∧
      next.returned? holder = some (.acquiring seconds, .ok true) ∧
      next.process other = granted.process other := by
    obtain ⟨after, asks, taken, -⟩ := confirms.asks (space.lock lock) holder seconds
    rw [asks] at own
    have get := Memory.answers_get given.available given.held
    refine ⟨_, World.step?_call own, get.held, ?_, ?_, ?_, World.put_other _ _ differ⟩
    · rw [World.put_memory, Memory.clock_perform, given.clock]
    · rw [World.put_memory, Memory.unavailable_perform, given.available]
    · rw [World.returned?_put, get.answer]
      simp only [taken]
      rfl
  obtain ⟨next, step, held, clock, available, returned, same⟩ := told
  have arguments : 0 < asked ∧ (lock != "" ∧ other != "") := by
    cases caught other _ found with
    | acquiring point positive named isAt =>
      obtain ⟨operation, -⟩ := isAt
      cases operation
      exact ⟨positive, named⟩
    | releasing operation _ => contradiction
    | released operation _ => contradiction
    | failed program =>
      rw [Stage.program_eq] at program
      contradiction
  have scene : Scene space lock holder other seconds asked (world.memory.clock + seconds * 1000)
      (.before stage) (some ⟨.string holder, some (world.memory.clock + seconds * 1000)⟩) next :=
    { differ, held, available, returned
      names := arguments.2
      positive := arguments.1
      early := by
        have := given.positive
        omega
      found := ⟨began, same.trans found⟩ }
  exact overtaken_of_step (by simp [Move.starts]) step (scene.threat threatens (by rw [clock]))

/-- A lock excludes other holders for the time it was given for, unless another process is a threat when it is
given: about to extend a lock by less, or about to delete a lock that it saw without a time to live. Only and
exactly then can another process be told it has the lock in that time. -/
theorem overtaken_iff {memory : Memory} {moves : List (Move String Operation)}
    (run : (World.mk memory fun _ => none).run? (programs space lock) moves = some world)
    (grants : Grants space lock world granted holder seconds) :
    Overtaken space lock granted holder (world.memory.clock + seconds * 1000) ↔
      Threatened (space.lock lock) granted holder seconds := by
  have caught := allCaught_step (allCaught_run run) grants.step
  have given := grants.given (allCaught_run run)
  constructor
  · intro overtaken
    apply Classical.byContradiction
    intro unthreatened
    obtain ⟨moves, before, other, after, taken, more, last, own, differ, others, first, early,
      step, told, -⟩ :=
      overtaken
    have undisturbed := (given.undisturbed caught unthreatened).run
      (fun move member => others move (List.mem_append_left _ member)) first early
    exact (undisturbed.advance_other differ step).2 taken told
  · exact given.overtaken caught

end Main

/-- One process creates the lock and is held up before it gives the lock a time to live. Another process waits
for that and is about to look whose the lock is. -/
def orphaning : List (Move String Operation) :=
  [.start "a" (.acquiring 100), .advance "a", .advance "a", .advance "a",
    .start "b" (.acquiring 5), .advance "b", .advance "b", .tick 2000, .advance "b", .advance "b"]

/-- The process that was held up gives the lock its time to live after all, and has the lock. -/
theorem orphaning_grants : ∃ world granted : Holders,
    (World.mk {} fun _ => none).run? (programs ⟨"q"⟩ "l") orphaning = some world ∧
      Grants ⟨"q"⟩ "l" world granted "a" 100 :=
  ⟨_, _, rfl, ⟨_, _, _, rfl⟩, rfl, [], _, _, _, List.forall_mem_nil _, rfl, rfl, rfl⟩

theorem overtaken_iff_orphaning : ∃ world granted : Holders,
    (World.mk {} fun _ => none).run? (programs ⟨"q"⟩ "l") orphaning = some world ∧
      Grants ⟨"q"⟩ "l" world granted "a" 100 ∧
      (Overtaken ⟨"q"⟩ "l" granted "a" (world.memory.clock + 100 * 1000) ↔
        Threatened (Keyspace.lock ⟨"q"⟩ "l") granted "a" 100) := by
  obtain ⟨world, granted, run, grants⟩ := orphaning_grants
  exact ⟨world, granted, run, grants, overtaken_iff run grants⟩

/-- From a store without the lock: two processes are told they have it, the second within the time of the
first. -/
theorem orphaning_overtaken : ∃ world granted : Holders,
    (World.mk {} fun _ => none).run? (programs ⟨"q"⟩ "l") orphaning = some world ∧
      Grants ⟨"q"⟩ "l" world granted "a" 100 ∧
      Overtaken ⟨"q"⟩ "l" granted "a" (world.memory.clock + 100 * 1000) := by
  refine ⟨_, _, rfl, ⟨⟨_, _, _, rfl⟩, rfl, [], _, _, _, List.forall_mem_nil _, rfl, rfl, rfl⟩, ?_⟩
  -- the holder confirms; then the other one looks, deletes, creates, extends and confirms
  exact ⟨[.advance "a", .advance "b", .advance "b", .advance "b", .advance "b"], _, "b", _, _, [], _, _,
    by decide, by decide, rfl, by decide, rfl, rfl, rfl, rfl⟩

end JobQueue.Lock
