import JobQueue.Proofs.Lock.Overtaking
import Mathlib.Data.List.Induction

/-! # When a lock is disturbed by a process that does not get it

A process that takes a lock looks at the lock before it writes to it. But its writes do not see whose the lock
has become meanwhile: a time to live is given to whoever has the lock, and a lock is deleted by its holder's name
alone, whether or not it has a time to live by now. So a process disturbs the lock of another, which has a time
to live, exactly if such a write comes late. It may do so without being told that it has the lock.
-/

namespace JobQueue.Lock

open Queue (asking)

/-- The lock is in a name. -/
def InName (key holder : String) (memory : Memory) : Prop :=
  (memory.held key).map Slot.entry = some (.string holder)

/-- The lock is there without a time to live. -/
def Unlimited (key : String) (memory : Memory) : Prop := ∃ entry, memory.held key = some ⟨entry, none⟩

/-- A process that takes a lock changes it, or the time that it expires at, by its next request, while the lock
is another's and has a time to live. -/
structure Disturbs (space : Keyspace) (lock : String) (world : Holders) (holder : String) : Prop where
  acquires : ∃ seconds program since, world.process holder = some ⟨.acquiring seconds, program, since⟩
  live : ∃ other time, other ≠ holder ∧ world.memory.held (space.lock lock) = some ⟨.string other, some time⟩
  changes : ∃ next, world.step? (programs space lock) (.advance holder) = some next ∧
    next.memory.held (space.lock lock) ≠ world.memory.held (space.lock lock)

/-- The moves before the latest move of a process, and the world right behind that move. -/
structure Latest (space : Keyspace) (lock : String) (start : Holders) (holder : String)
    (moves earlier : List (Move String Operation)) (seen : Holders) : Prop where
  split : ∃ others, moves = earlier ++ .advance holder :: others ∧ ∀ move ∈ others, move.isOf holder = false
  run : start.run? (programs space lock) (earlier ++ [.advance holder]) = some seen

/-- A process is about to write to a lock that is not any more what the process has seen. -/
inductive Late (space : Keyspace) (lock : String) (start : Holders) (holder : String)
    (moves : List (Move String Operation)) (world : Holders) : Prop
  /-- The lock was in the own name right behind the previous request. By now it is another's, and is to expire at
  another time than the one it is about to be given. -/
  | extending {seconds began : Nat} {rest : Except StoreError Bool → Task QueueError Bool}
    {earlier : List (Move String Operation)} {seen : Holders} {other : String} {time : Nat}
    (asks : world.process holder =
      some ⟨.acquiring seconds, .call (.expire (space.lock lock) seconds) rest, began⟩)
    (available : world.memory.unavailable = false)
    (latest : Latest space lock start holder moves earlier seen)
    (own : InName (space.lock lock) holder seen.memory) (foreign : other ≠ holder)
    (held : world.memory.held (space.lock lock) = some ⟨.string other, some time⟩)
    (differs : time ≠ world.memory.clock + seconds * 1000)
  /-- The lock had no time to live right behind the last request but one, and was in a certain name behind the
  last one. By now a lock of that name has a time to live. -/
  | deleting {seconds began : Nat} {rest : Except StoreError Bool → Task QueueError Bool}
    {earlier before : List (Move String Operation)} {got seen : Holders} {other : String} {time : Nat}
    (asks : world.process holder =
      some ⟨.acquiring seconds, .call (.compareAndDelete (space.lock lock) other) rest, began⟩)
    (available : world.memory.unavailable = false)
    (latest : Latest space lock start holder moves earlier got)
    (named : InName (space.lock lock) other got.memory)
    (previous : Latest space lock start holder earlier before seen)
    (unlimited : Unlimited (space.lock lock) seen.memory) (foreign : other ≠ holder)
    (held : world.memory.held (space.lock lock) = some ⟨.string other, some time⟩)

/-! ## What a process recalls of a lock -/

/-- What a process at a stage has seen of the lock right behind its latest requests. -/
def Stage.Recalls (space : Keyspace) (lock : String) (start : Holders) (holder : String)
    (moves : List (Move String Operation)) : Stage → Prop
  | renew | adopt | limit => ∃ earlier seen, Latest space lock start holder moves earlier seen ∧
      InName (space.lock lock) holder seen.memory
  | inspect => ∃ earlier seen, Latest space lock start holder moves earlier seen ∧
      Unlimited (space.lock lock) seen.memory
  | drop current => current ≠ holder ∧ ∃ earlier got, Latest space lock start holder moves earlier got ∧
      InName (space.lock lock) current got.memory ∧ ∃ before seen,
        Latest space lock start holder earlier before seen ∧ Unlimited (space.lock lock) seen.memory
  | _ => True

section Recall

variable {space : Keyspace} {lock holder : String} {start world next : Holders}
  {moves earlier : List (Move String Operation)}

theorem Latest.others {seen : Holders} (latest : Latest space lock start holder moves earlier seen)
    {move : Move String Operation} (other : move.isOf holder = false) :
    Latest space lock start holder (moves ++ [move]) earlier seen where
  split := by
    obtain ⟨others, split, all⟩ := latest.split
    refine ⟨others ++ [move], by rw [split]; simp, ?_⟩
    exact List.forall_mem_append.mpr ⟨all, List.forall_mem_singleton.mpr other⟩
  run := latest.run

/-- What others do is not seen. -/
theorem Stage.Recalls.others {stage : Stage} (recalls : stage.Recalls space lock start holder moves)
    {move : Move String Operation} (other : move.isOf holder = false) :
    stage.Recalls space lock start holder (moves ++ [move]) := by
  cases stage with
  | renew | adopt | limit | inspect =>
    obtain ⟨earlier, seen, latest, saw⟩ := recalls
    exact ⟨earlier, seen, latest.others other, saw⟩
  | drop current =>
    obtain ⟨foreign, earlier, got, latest, previous⟩ := recalls
    exact ⟨foreign, earlier, got, latest.others other, previous⟩
  | _ => trivial

/-- A request that is answered reaches the store. -/
theorem available_of_replied {memory : Memory} {request : Request} {reply : request.Reply}
    (replied : (memory.perform request).1 = .ok reply) : memory.unavailable = false := by
  apply eq_false_of_ne_true
  intro unavailable
  rw [Memory.perform_unavailable unavailable] at replied
  contradiction

/-- The name that a lock is found in is its name also behind the look. -/
theorem named_of_get {memory : Memory} {key value : String}
    (found : (memory.perform (.get key)).1 = .ok (some value)) :
    InName key value (memory.perform (.get key)).2 := by
  rw [InName, Memory.held_perform_get]
  exact Memory.entry_of_get found

/-- A lock that is created is in the name of its creator. -/
theorem named_of_setIfAbsent {memory : Memory} {key value : String}
    (created : (memory.perform (.setIfAbsent key value)).1 = .ok true) :
    InName key value (memory.perform (.setIfAbsent key value)).2 := by
  have available := available_of_replied created
  cases held : memory.held key with
  | none =>
    rw [InName, (Memory.answers_setIfAbsent available held value).held]
    rfl
  | some slot =>
    have kept := (Memory.answers_setIfAbsent_held available held value).answer
    exact nomatch kept.symm.trans created

/-- A lock that is found to have no time to live has none behind the look. -/
theorem unlimited_of_timeToLive {memory : Memory} {key : String}
    (found : (memory.perform (.timeToLive key)).1 = .ok .persistent) :
    Unlimited key (memory.perform (.timeToLive key)).2 := by
  have answers := @Memory.answers_timeToLive memory key (available_of_replied found)
  have reply := Except.ok.inj (answers.answer.symm.trans found)
  rw [Unlimited, answers.held]
  split at reply
  · contradiction
  · next entry held => exact ⟨entry, held⟩
  · contradiction

/-- What a process has seen, once a request of it has been answered. -/
theorem Stage.Recalls.answered {stage target : Stage} (recalls : stage.Recalls space lock start holder moves)
    {seconds : Nat} {reply : (stage.request (space.lock lock) holder seconds).Reply}
    (replied : (world.memory.perform (stage.request (space.lock lock) holder seconds)).1 = .ok reply)
    (leads : stage.react (space.lock lock) holder seconds reply = .before target)
    (memory : next.memory = (world.memory.perform (stage.request (space.lock lock) holder seconds)).2)
    (latest : Latest space lock start holder (moves ++ [.advance holder]) moves next) :
    target.Recalls space lock start holder (moves ++ [.advance holder]) := by
  have own {value? : Option String} (same : named holder value? = true)
      (got : (world.memory.perform (.get (space.lock lock))).1 = .ok value?)
      (memory : next.memory = (world.memory.perform (.get (space.lock lock))).2) :
      InName (space.lock lock) holder next.memory := by
    obtain rfl : value? = some holder := by simpa [named] using same
    rw [memory]
    exact named_of_get got
  cases stage with
  | look =>
    simp only [react] at leads
    split at leads
    · next same =>
      cases leads
      exact ⟨moves, next, latest, own same replied memory⟩
    · cases leads
      trivial
  | confirmRenewal | confirmAdoption =>
    simp only [react] at leads
    split at leads
    · contradiction
    · cases leads
      trivial
  | renew | adopt =>
    cases reply <;>
    · cases leads
      trivial
  | limit =>
    cases reply with
    | true =>
      cases leads
      trivial
    | false => contradiction
  | create =>
    cases reply with
    | true =>
      cases leads
      exact ⟨moves, next, latest, memory ▸ named_of_setIfAbsent replied⟩
    | false => contradiction
  | probe =>
    cases reply with
    | persistent => contradiction
    | missing | expires =>
      cases leads
      trivial
  | probeAgain =>
    cases reply with
    | persistent =>
      cases leads
      exact ⟨moves, next, latest, memory ▸ unlimited_of_timeToLive replied⟩
    | expires => contradiction
    | missing =>
      cases leads
      trivial
  | inspect =>
    cases reply with
    | none =>
      cases leads
      trivial
    | some current =>
      have name : InName (space.lock lock) current next.memory := memory ▸ named_of_get replied
      simp only [react] at leads
      split at leads
      · next same =>
        cases leads
        exact ⟨moves, next, latest, same ▸ name⟩
      · next foreign =>
        cases leads
        exact ⟨foreign, moves, next, latest, name, recalls⟩
  | drop current =>
    cases leads
    trivial
  | confirm => contradiction

/-- A process that takes a lock and is about to ask something is at a stage of which it recalls what it has
seen. -/
def Mindful (space : Keyspace) (lock : String) (start : Holders) (holder : String)
    (moves : List (Move String Operation)) (world : Holders) : Prop :=
  ∀ seconds request rest began, world.process holder = some ⟨.acquiring seconds, .call request rest, began⟩ →
    ∃ stage, 0 < seconds ∧ .call request rest = Stage.program (space.lock lock) holder seconds stage ∧
      stage.Recalls space lock start holder moves

/-- A process goes on mindful of what it has seen. -/
theorem Mindful.advance (mindful : Mindful space lock start holder moves world)
    (caught : AllCaught space lock world)
    (latest : Latest space lock start holder (moves ++ [.advance holder]) moves next)
    (step : world.step? (programs space lock) (.advance holder) = some next) :
    Mindful space lock start holder (moves ++ [.advance holder]) next := by
  intro seconds request rest began found
  rcases World.step?_advance step with ⟨operation, asked, leads, since, process, same⟩ |
    ⟨operation, millis, left, since, process, same⟩
  · have told := found
    rw [same, World.put_same] at told
    obtain ⟨rfl, -, -⟩ := Process.mk.inj (Option.some.inj told)
    obtain ⟨stage, positive, program, recalls⟩ := mindful seconds asked leads since process
    rw [program] at process
    cases answer : (world.memory.perform (stage.request (space.lock lock) holder seconds)).1 with
    | error cause =>
      rw [step?_refused process answer] at step
      rw [← Option.some.inj step, World.put_same] at found
      cases found
    | ok reply =>
      rw [step?_replied process answer] at step
      have memory : next.memory = (world.memory.perform (stage.request (space.lock lock) holder seconds)).2 := by
        rw [← Option.some.inj step]
        rfl
      rw [← Option.some.inj step, World.put_same] at found
      obtain ⟨-, program, -⟩ := Process.mk.inj (Option.some.inj found)
      cases point : stage.react (space.lock lock) holder seconds reply with
      | before target =>
        rw [point] at program
        exact ⟨target, positive, program.symm, recalls.answered answer point memory latest⟩
      | sleeping =>
        rw [point] at program
        contradiction
      | ended answer =>
        rw [point] at program
        contradiction
  · have told := found
    rw [same, World.put_same] at told
    obtain ⟨rfl, woken, -⟩ := Process.mk.inj (Option.some.inj told)
    cases caught holder _ process with
    | acquiring point positive named isAt =>
      obtain ⟨operation, program⟩ := isAt
      cases operation
      cases point with
      | before stage =>
        rw [Point.program, Stage.program_eq] at program
        contradiction
      | sleeping =>
        cases program
        exact ⟨.probeAgain, positive, woken.symm, trivial⟩
      | ended answer => contradiction
    | releasing releasing _ => contradiction
    | released releasing _ => contradiction
    | failed program => contradiction

/-- Every move leaves a process mindful of what it has seen. -/
theorem Mindful.step (mindful : Mindful space lock start holder moves world) (caught : AllCaught space lock world)
    (run : start.run? (programs space lock) moves = some world) {move : Move String Operation}
    (step : world.step? (programs space lock) move = some next) :
    Mindful space lock start holder (moves ++ [move]) next := by
  by_cases other : move.isOf holder = false
  · intro seconds request rest began found
    rw [World.process_step other step] at found
    obtain ⟨stage, positive, program, recalls⟩ := mindful seconds request rest began found
    exact ⟨stage, positive, program, recalls.others other⟩
  · cases move with
    | tick | reach | spoil => exact absurd rfl other
    | start who operation =>
      obtain rfl : who = holder := by simpa [Move.isOf] using other
      obtain ⟨-, rfl⟩ := World.step?_start step
      intro seconds request rest began found
      rw [World.put_same] at found
      obtain ⟨rfl, program, -⟩ := Process.mk.inj (Option.some.inj found)
      dsimp only [programs, Operation.program] at program
      rcases @acquire_cases space lock who seconds with ⟨error, failed⟩ | ⟨names, positive⟩
      · cases failed.symm.trans program
      · rw [acquire_eq names positive] at program
        exact ⟨.look, positive, program.symm, trivial⟩
    | advance who =>
      obtain rfl : who = holder := by simpa [Move.isOf] using other
      have latest : Latest space lock start who (moves ++ [.advance who]) moves next :=
        { split := ⟨[], rfl, List.forall_mem_nil _⟩
          run := by
            rw [World.run?_append, run, Option.bind_some, World.run?, step]
            rfl }
      exact mindful.advance caught latest step

/-- In every run every process is mindful of what it has seen. -/
theorem mindful_run {memory : Memory}
    (run : (World.mk memory fun _ => none).run? (programs space lock) moves = some world) (holder : String) :
    Mindful space lock ⟨memory, fun _ => none⟩ holder moves world := by
  induction moves using List.reverseRecOn generalizing world with
  | nil =>
    cases run
    intro seconds request rest began found
    contradiction
  | append_singleton moves move ih =>
    have whole := run
    rw [World.run?_append] at run
    obtain ⟨before, first, last⟩ := Option.bind_eq_some_iff.mp run
    obtain ⟨next, step, ⟨⟩⟩ := Option.bind_eq_some_iff.mp last
    exact (ih first).step (allCaught_run first) first step

end Recall

/-! ## Late writes -/

section Main

variable {space : Keyspace} {lock holder : String} {memory : Memory} {moves : List (Move String Operation)}
  {world : Holders}

/-- What a request of a process leaves at the lock. -/
theorem held_of_step {operation : Operation} {request : Request}
    {rest : Except StoreError request.Reply → Task QueueError Bool} {began : Nat} {next : Holders}
    (asks : world.process holder = some ⟨operation, .call request rest, began⟩)
    (step : world.step? (programs space lock) (.advance holder) = some next) (key : String) :
    next.memory.held key = (world.memory.perform request).2.held key := by
  rw [World.step?_call asks] at step
  cases step
  rfl

/-- A write that comes late disturbs the lock of another. -/
theorem Late.disturbs (run : (World.mk memory fun _ => none).run? (programs space lock) moves = some world)
    (late : Late space lock ⟨memory, fun _ => none⟩ holder moves world) : Disturbs space lock world holder := by
  cases late with
  | @extending seconds began rest _ _ other time asks available _ _ foreign held differs =>
    obtain ⟨stage, positive, -⟩ := mindful_run run holder _ _ _ _ asks
    refine ⟨⟨_, _, _, asks⟩, ⟨other, time, foreign, held⟩, _, World.step?_call asks, ?_⟩
    rw [World.put_memory, (Memory.answers_expire available held positive).held, held]
    intro same
    exact differs (Option.some.inj (congrArg Slot.expiresAt (Option.some.inj same))).symm
  | @deleting seconds began rest _ _ _ _ other time asks available _ _ _ _ foreign held =>
    refine ⟨⟨_, _, _, asks⟩, ⟨other, time, foreign, held⟩, _, World.step?_call asks, ?_⟩
    rw [World.put_memory, (Memory.answers_compareAndDelete available held).held, held]
    exact nofun

/-- Nothing but a write that comes late disturbs the lock of another. -/
theorem Disturbs.late (run : (World.mk memory fun _ => none).run? (programs space lock) moves = some world)
    (disturbs : Disturbs space lock world holder) :
    Late space lock ⟨memory, fun _ => none⟩ holder moves world := by
  obtain ⟨⟨seconds, program, began, found⟩, ⟨other, time, foreign, held⟩, next, step, changes⟩ := disturbs
  rcases World.step?_advance step with ⟨operation, request, rest, since, process, same⟩ |
    ⟨operation, millis, left, since, process, rfl⟩
  · cases process.symm.trans found
    have changed := held_of_step process step (space.lock lock)
    by_cases available : world.memory.unavailable = false
    · obtain ⟨stage, positive, program, recalls⟩ := mindful_run run holder _ _ _ _ process
      rw [Stage.program_eq, asking] at program
      cases program
      cases stage with
      | renew | adopt | limit =>
        obtain ⟨earlier, seen, latest, own⟩ := recalls
        refine .extending process available latest own foreign held ?_
        rintro rfl
        rw [Stage.request, (Memory.answers_expire available held positive).held] at changed
        exact changes (changed.trans held.symm)
      | drop current =>
        by_cases own : current = other
        · subst own
          obtain ⟨-, earlier, got, latest, named, before, seen, previous, unlimited⟩ := recalls
          exact .deleting process available latest named previous unlimited foreign held
        · have kept : (world.memory.held (space.lock lock)).map Slot.entry ≠ some (.string current) := by
            rw [held]
            simpa using Ne.symm own
          exact absurd (changed.trans (Memory.answers_compareAndDelete_other available kept).held) changes
      | look | confirmRenewal | inspect | confirmAdoption | confirm =>
        exact absurd (changed.trans (Memory.held_perform_get ..)) changes
      | probe | probeAgain => exact absurd (changed.trans (Memory.answers_timeToLive available).held) changes
      | create =>
        have kept := (Memory.answers_setIfAbsent_held available held holder).held
        exact absurd ((changed.trans kept).trans held.symm) changes
    · rw [Memory.perform_unavailable (eq_true_of_ne_false available)] at changed
      exact absurd changed changes
  · exact absurd rfl changes

/-- Whatever a process that takes a lock will be told, its next request disturbs the lock of another, which has a
time to live, exactly if it is a write that comes late. -/
theorem disturbs_iff_late
    (run : (World.mk memory fun _ => none).run? (programs space lock) moves = some world) :
    Disturbs space lock world holder ↔ Late space lock ⟨memory, fun _ => none⟩ holder moves world :=
  ⟨fun disturbs => disturbs.late run, fun late => late.disturbs run⟩

end Main

/-- One process has a lock for a second and looks whether the lock is its own, to extend it. The second passes, and
another process takes the lock for a minute. -/
def lapsing : List (Move String Operation) :=
  [.start "a" (.acquiring 1), .advance "a", .advance "a", .advance "a", .advance "a", .advance "a",
    .start "a" (.acquiring 30), .advance "a", .tick 1000,
    .start "b" (.acquiring 60), .advance "b", .advance "b", .advance "b", .advance "b", .advance "b"]

theorem disturbs_lapsing : ∃ world : Holders,
    (World.mk {} fun _ => none).run? (programs ⟨"q"⟩ "l") lapsing = some world ∧ Disturbs ⟨"q"⟩ "l" world "a" :=
  ⟨_, rfl, ⟨30, _, _, rfl⟩, ⟨"b", 61000, by decide, by decide +kernel⟩, _, rfl, by decide +kernel⟩

theorem disturbs_iff_late_lapsing : ∃ world : Holders,
    (World.mk {} fun _ => none).run? (programs ⟨"q"⟩ "l") lapsing = some world ∧
      Disturbs ⟨"q"⟩ "l" world "a" ∧ Late ⟨"q"⟩ "l" ⟨{}, fun _ => none⟩ "a" lapsing world := by
  obtain ⟨world, run, disturbs⟩ := disturbs_lapsing
  exact ⟨world, run, disturbs, (disturbs_iff_late run).mp disturbs⟩

/-- The other process has made its whole call and has the lock. Its lock is given another time, and the process
that does so is told that it does not have the lock. -/
theorem lapsing_disturbed : ∃ world last : Holders,
    (World.mk {} fun _ => none).run? (programs ⟨"q"⟩ "l") lapsing = some world ∧
      world.returned? "b" = some (.acquiring 60, .ok true) ∧
      Disturbs ⟨"q"⟩ "l" world "a" ∧
      world.run? (programs ⟨"q"⟩ "l") [.advance "a", .advance "a", .advance "a", .advance "a"] = some last ∧
      last.returned? "a" = some (.acquiring 30, .ok false) := by
  refine ⟨_, _, rfl, rfl, ⟨⟨30, _, _, rfl⟩, ⟨"b", 61000, by decide, ?_⟩, _, rfl, ?_⟩, rfl, rfl⟩
  · decide +kernel
  · decide +kernel

end JobQueue.Lock
