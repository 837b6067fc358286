import JobQueue.Proofs.Lock.Stage

/-! # When a lock excludes other holders

A holder that was given a lock for some seconds keeps it for that time unless another process was already
under way to give the lock a shorter time or to delete it. Such a process is a threat; without one no other
holder takes the lock in that time, and with one some run of the processes lets another holder take it.
-/

namespace JobQueue.Lock

open Queue (asking)

/-- What a process at a stage is about to do to a lock that `holder` was just given for `granted` seconds:
to give it fewer, or to delete it. -/
def Stage.Threatens (holder : String) (granted seconds : Nat) : Stage → Prop
  | renew | adopt | limit => seconds < granted
  | inspect => True
  | drop current => current = holder
  | _ => False

/-- Some other process threatens the lock that a holder was just given. -/
def Threatened (key : String) (world : Holders) (holder : String) (granted : Nat) : Prop :=
  ∃ other seconds stage since, other ≠ holder ∧
    world.process other = some ⟨.acquiring seconds, Stage.program key other seconds stage, since⟩ ∧
    stage.Threatens holder granted seconds

/-- The lock is the holder's for so many seconds from a time on at least. -/
structure Guard (key holder : String) (since granted : Nat) (memory : Memory) : Prop where
  begun : since ≤ memory.clock
  held : ∃ time, since + granted * 1000 ≤ time ∧ memory.held key = some ⟨.string holder, some time⟩

/-- A point from which a process can do no harm to a lock, nor take it. -/
def Point.Harmless (holder : String) (granted seconds : Nat) : Point → Prop
  | before stage => ¬ stage.Threatens holder granted seconds
  | sleeping => True
  | ended answer => answer = false

section Guards

variable {key holder : String} {since granted : Nat} {memory : Memory}

theorem Guard.of_answers (guard : Guard key holder since granted memory) {request : Request}
    {reply : request.Reply} {time : Nat}
    (answers : memory.Answers request reply key (some ⟨.string holder, some time⟩))
    (late : since + granted * 1000 ≤ time) : Guard key holder since granted (memory.perform request).2 where
  begun := by
    rw [Memory.clock_perform]
    exact guard.begun
  held := ⟨time, late, answers.held⟩

/-- A guarded lock answers a harmless process in a way that leaves both as they are. -/
theorem Stage.harmless {stage : Stage} {other : String} {seconds : Nat}
    (harmless : ¬ stage.Threatens holder granted seconds) (differ : other ≠ holder) (positive : 0 < seconds)
    (available : memory.unavailable = false) (guard : Guard key holder since granted memory) :
    ∃ reply, (memory.perform (stage.request key other seconds)).1 = .ok reply ∧
      Guard key holder since granted (memory.perform (stage.request key other seconds)).2 ∧
      (stage.react key other seconds reply).Harmless holder granted seconds := by
  obtain ⟨time, late, held⟩ := guard.held
  have foreign : named other (some holder) = false := by simpa [named] using Ne.symm differ
  have get := Memory.answers_get available held
  have time? := @Memory.answers_timeToLive memory key available
  rw [held] at time?
  have expire := Memory.answers_expire available held positive
  have create := Memory.answers_setIfAbsent_held available held other
  have extended (longer : ¬ seconds < granted) : since + granted * 1000 ≤ memory.clock + seconds * 1000 := by
    have := guard.begun
    omega
  cases stage with
  | look | confirmRenewal | confirmAdoption =>
    refine ⟨_, get.answer, guard.of_answers get late, ?_⟩
    simp only [react, foreign]
    exact id
  | renew | adopt | limit =>
    exact ⟨_, expire.answer, guard.of_answers expire (extended harmless), id⟩
  | probe => exact ⟨_, time?.answer, guard.of_answers time? late, id⟩
  | probeAgain => exact ⟨_, time?.answer, guard.of_answers time? late, rfl⟩
  | inspect => exact absurd trivial harmless
  | drop current =>
    have kept : (memory.held key).map Slot.entry ≠ some (.string current) := by
      rw [held]
      simpa using Ne.symm harmless
    have drop := Memory.answers_compareAndDelete_other available kept
    rw [held] at drop
    exact ⟨_, drop.answer, guard.of_answers drop late, id⟩
  | create => exact ⟨_, create.answer, guard.of_answers create late, rfl⟩
  | confirm => exact ⟨_, get.answer, guard.of_answers get late, foreign⟩

end Guards

/-! ## Worlds in which a lock is guarded -/

/-- A process that can do no harm to a lock, nor take it. -/
inductive Harmless (key holder other : String) (granted : Nat)
    (process : Process Operation QueueError Bool) : Prop
  | ended (outcome : process.program.outcome?.isSome)
  | acquiring {seconds : Nat} (point : Point) (positive : 0 < seconds)
      (isAt : IsAt key other seconds point process) (harmless : point.Harmless holder granted seconds)
  | releasing (operation : process.operation = .releasing)
      (program : process.program = asking (.compareAndDelete key other) Task.done)

/-- The stages at which a holder that has extended the lock confirms that it is still its own. -/
def Stage.Confirms (stage : Stage) : Prop :=
  stage = confirmRenewal ∨ stage = confirmAdoption ∨ stage = confirm

/-- The lock is guarded, its holder is about to confirm it or has ended, and no other process threatens. -/
structure Undisturbed (key holder : String) (since granted : Nat) (world : Holders) : Prop where
  guard : Guard key holder since granted world.memory
  own : ∀ process, world.process holder = some process → process.program.outcome?.isSome ∨
    ∃ seconds stage, IsAt key holder seconds (.before stage) process ∧ stage.Confirms
  others : ∀ other, other ≠ holder → ∀ process, world.process other = some process →
    Harmless key holder other granted process

section Worlds

variable {space : Keyspace} {lock holder : String} {since granted : Nat} {world next : Holders}

theorem Undisturbed.put_other {key other : String}
    (undisturbed : Undisturbed key holder since granted world) {memory : Memory}
    (guard : Guard key holder since granted memory) {process : Process Operation QueueError Bool}
    (differ : other ≠ holder) (harmless : Harmless key holder other granted process) :
    Undisturbed key holder since granted (World.put ⟨memory, world.process⟩ other process) where
  guard := guard
  own := by
    rw [World.put_other _ _ (Ne.symm differ)]
    exact undisturbed.own
  others third foreign process found := by
    have others : ∀ third process, world.process third = some process →
        third ≠ holder → Harmless key holder third granted process :=
      fun third process found foreign => undisturbed.others third foreign process found
    exact World.forall_put others (fun _ => harmless) third process found foreign

/-- Every other process that begins is harmless. -/
theorem harmless_begun {other : String} (operation : Operation) (since : Nat) :
    Harmless (space.lock lock) holder other granted
      ⟨operation, operation.program space lock other, since⟩ := by
  cases operation with
  | acquiring seconds =>
    rcases acquire_cases seconds with ⟨error, failed⟩ | ⟨named, positive⟩
    · refine .ended ?_
      rw [Operation.program, failed]
      rfl
    · exact .acquiring (.before .look) positive ⟨rfl, acquire_eq named positive⟩ id
  | releasing =>
    rcases release_eq with ⟨error, failed⟩ | begins
    · refine .ended ?_
      rw [Operation.program, failed]
      rfl
    · exact .releasing rfl begins

/-- A harmless point is no point at which the lock was taken. -/
theorem Point.Harmless.not_taken {point : Point} {seconds : Nat}
    (harmless : point.Harmless holder granted seconds) (key other : String) :
    (point.program key other seconds).outcome? ≠ some (.ok true) := by
  rw [Point.outcome?_program]
  cases point with
  | before stage | sleeping => rintro ⟨⟩
  | ended answer =>
    cases harmless
    rintro ⟨⟩

/-- What another process went on to disturbs nothing, if it is harmless and did not take the lock. -/
theorem Undisturbed.went {key other : String} (undisturbed : Undisturbed key holder since granted world)
    {memory : Memory} (guard : Guard key holder since granted memory) (differ : other ≠ holder)
    {process : Process Operation QueueError Bool} (harmless : Harmless key holder other granted process)
    (untaken : ∀ seconds, process.operation = .acquiring seconds →
      process.program.outcome? ≠ some (.ok true)) :
    Undisturbed key holder since granted (World.put ⟨memory, world.process⟩ other process) ∧
      ∀ seconds, (World.put ⟨memory, world.process⟩ other process).returned? other ≠
        some (.acquiring seconds, .ok true) := by
  refine ⟨undisturbed.put_other guard differ harmless, ?_⟩
  intro seconds taken
  rw [World.returned?_put] at taken
  obtain ⟨outcome, ended, equal⟩ := Option.map_eq_some_iff.mp taken
  obtain ⟨operation, rfl⟩ := Prod.mk.inj equal
  exact untaken seconds operation ended

/-- A harmless process at a stage goes on without harm. -/
theorem Undisturbed.advance_stage (undisturbed : Undisturbed (space.lock lock) holder since granted world)
    {other : String} (differ : other ≠ holder) {seconds began : Nat} {stage : Stage} (positive : 0 < seconds)
    (found : world.process other =
      some ⟨.acquiring seconds, stage.program (space.lock lock) other seconds, began⟩)
    (harmless : ¬ stage.Threatens holder granted seconds)
    (step : world.step? (programs space lock) (.advance other) = some next) :
    Undisturbed (space.lock lock) holder since granted next ∧
      ∀ seconds, next.returned? other ≠ some (.acquiring seconds, .ok true) := by
  by_cases available : world.memory.unavailable = false
  · obtain ⟨reply, replied, guard, harmless⟩ := stage.harmless harmless differ positive available
      undisturbed.guard
    rw [step?_replied found replied] at step
    cases step
    exact undisturbed.went guard differ (.acquiring _ positive ⟨rfl, rfl⟩ harmless) fun _ _ =>
      harmless.not_taken _ _
  · have refused := Memory.perform_unavailable (eq_true_of_ne_false available)
      (stage.request (space.lock lock) other seconds)
    rw [step?_refused found (congrArg Prod.fst refused), refused] at step
    cases step
    apply undisturbed.went undisturbed.guard differ (.ended rfl)
    rintro seconds operation ⟨⟩

/-- A process that releases the lock of another releases nothing. -/
theorem Guard.release {key other : String} {memory : Memory} (guard : Guard key holder since granted memory)
    (differ : other ≠ holder) :
    Guard key holder since granted (memory.perform (.compareAndDelete key other)).2 := by
  by_cases available : memory.unavailable = false
  · obtain ⟨time, late, held⟩ := guard.held
    have foreign : (memory.held key).map Slot.entry ≠ some (.string other) := by
      rw [held]
      simpa using Ne.symm differ
    have kept := Memory.answers_compareAndDelete_other available foreign
    rw [held] at kept
    exact guard.of_answers kept late
  · rw [Memory.perform_unavailable (eq_true_of_ne_false available)]
    exact guard

/-- A move of another process disturbs nothing, and does not take the lock. -/
theorem Undisturbed.advance_other (undisturbed : Undisturbed (space.lock lock) holder since granted world)
    {other : String} (differ : other ≠ holder)
    (step : world.step? (programs space lock) (.advance other) = some next) :
    Undisturbed (space.lock lock) holder since granted next ∧
      ∀ seconds, next.returned? other ≠ some (.acquiring seconds, .ok true) := by
  rcases World.step?_advance step with ⟨operation, request, rest, began, found, same⟩ |
    ⟨operation, millis, rest, began, found, rfl⟩
  · cases undisturbed.others other differ _ found with
    | ended outcome => contradiction
    | @acquiring seconds point positive isAt harmless =>
      obtain ⟨rfl, program⟩ := isAt
      cases point with
      | before stage =>
        dsimp only [Point.program] at program
        rw [program] at found
        exact undisturbed.advance_stage differ positive found harmless step
      | sleeping => contradiction
      | ended answer => contradiction
    | releasing releasing program =>
      rw [asking] at program
      cases releasing
      cases program
      subst same
      apply undisturbed.went (undisturbed.guard.release differ) differ
      · apply Harmless.ended
        dsimp only
        split <;> rfl
      · intro seconds acquiring
        contradiction
  · cases undisturbed.others other differ _ found with
    | ended outcome => contradiction
    | @acquiring seconds point positive isAt harmless =>
      obtain ⟨rfl, program⟩ := isAt
      cases point with
      | before stage =>
        rw [Point.program, Stage.program_eq] at program
        contradiction
      | sleeping =>
        cases program
        apply undisturbed.went undisturbed.guard differ
          (.acquiring (.before .probeAgain) positive ⟨rfl, rfl⟩ id)
        rintro seconds operation ⟨⟩
      | ended answer => contradiction
    | releasing _ program => contradiction

/-- What is confirmed in the name of the holder ends with the lock. -/
theorem Stage.Confirms.asks {stage : Stage} (confirms : stage.Confirms) (key holder : String)
    (seconds : Nat) :
    ∃ next : Option String → Point, stage.program key holder seconds =
        asking (.get key) (fun value? => (next value?).program key holder seconds) ∧
      next (some holder) = .ended true ∧ ∀ value?, value? ≠ some holder → next value? ≠ .ended true := by
  have own : named holder (some holder) = true := by simp [named]
  have foreign {value? : Option String} (other : value? ≠ some holder) : named holder value? = false := by
    simpa [named] using other
  have program := @Stage.program_eq key holder seconds stage
  rcases confirms with rfl | rfl | rfl
  all_goals
    refine ⟨_, program, by simp [react, own], ?_⟩
    intro value? other
    simp [react, foreign other]

/-- While the lock is the holder's, its confirmation succeeds or is refused. -/
theorem Undisturbed.advance_own (undisturbed : Undisturbed (space.lock lock) holder since granted world)
    (step : world.step? (programs space lock) (.advance holder) = some next) :
    Undisturbed (space.lock lock) holder since granted next := by
  have ends {memory : Memory} (guard : Guard (space.lock lock) holder since granted memory)
      {process : Process Operation QueueError Bool} (ended : process.program.outcome?.isSome) :
      Undisturbed (space.lock lock) holder since granted (World.put ⟨memory, world.process⟩ holder process) :=
    { guard
      own := by
        intro found same
        rw [World.put_same] at same
        cases same
        exact .inl ended
      others := by
        intro other differ found same
        rw [World.put_other _ _ differ] at same
        exact undisturbed.others other differ found same }
  rcases World.step?_advance step with ⟨operation, request, rest, began, found, rfl⟩ |
    ⟨operation, millis, rest, began, found, rfl⟩
  · rcases undisturbed.own _ found with ended | ⟨seconds, stage, ⟨-, program⟩, confirms⟩
    · contradiction
    · obtain ⟨after, asks, taken, -⟩ := confirms.asks (space.lock lock) holder seconds
      rw [Point.program, asks, asking] at program
      cases program
      by_cases available : world.memory.unavailable = false
      · obtain ⟨time, late, held⟩ := undisturbed.guard.held
        have get := Memory.answers_get available held
        refine ends (undisturbed.guard.of_answers get late) ?_
        simp only [get.answer, taken]
        rfl
      · rw [Memory.perform_unavailable (eq_true_of_ne_false available)]
        exact ends undisturbed.guard rfl
  · rcases undisturbed.own _ found with ended | ⟨seconds, stage, ⟨-, program⟩, confirms⟩
    · contradiction
    · rw [Point.program, Stage.program_eq] at program
      contradiction

/-- While time remains, every move but a new operation of the holder leaves the lock undisturbed. -/
theorem Undisturbed.step (undisturbed : Undisturbed (space.lock lock) holder since granted world)
    {move : Move String Operation} (continued : move.starts holder = false)
    (step : world.step? (programs space lock) move = some next)
    (early : next.memory.clock < since + granted * 1000) :
    Undisturbed (space.lock lock) holder since granted next := by
  cases move with
  | tick millis =>
    cases step
    obtain ⟨time, late, held⟩ := undisturbed.guard.held
    have live : Slot.liveAt ⟨.string holder, some time⟩ (world.memory.clock + millis) = true :=
      decide_eq_true (Nat.lt_of_lt_of_le early late)
    exact {
      guard := {
        begun := Nat.le_trans undisturbed.guard.begun (Nat.le_add_right _ _)
        held := ⟨time, late, Memory.held_advance held live⟩ }
      own := undisturbed.own
      others := undisturbed.others }
  | reach available | spoil =>
    cases step
    exact { undisturbed with guard := ⟨undisturbed.guard.begun, undisturbed.guard.held⟩ }
  | start who operation =>
    obtain ⟨-, rfl⟩ := World.step?_start step
    have differ : who ≠ holder := by simpa [Move.starts] using continued
    exact undisturbed.put_other undisturbed.guard differ (harmless_begun operation _)
  | advance who =>
    by_cases same : who = holder
    · rw [same] at step
      exact undisturbed.advance_own step
    · exact (undisturbed.advance_other same step).1

/-- A run that does not begin a new operation of the holder leaves the lock undisturbed while time remains. -/
theorem Undisturbed.run (undisturbed : Undisturbed (space.lock lock) holder since granted world)
    {moves : List (Move String Operation)} (continued : ∀ move ∈ moves, move.starts holder = false)
    (run : world.run? (programs space lock) moves = some next)
    (early : next.memory.clock < since + granted * 1000) :
    Undisturbed (space.lock lock) holder since granted next := by
  refine World.run?_invariant (fun world => world.memory.clock < since + granted * 1000 →
    Undisturbed (space.lock lock) holder since granted world) ?_ (fun _ => undisturbed) run early
  intro move member world next kept step early
  have before := Nat.lt_of_le_of_lt (World.clock_le_step step) early
  exact (kept before).step (continued move member) step early

end Worlds

end JobQueue.Lock
