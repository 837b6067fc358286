import JobQueue.Proofs.Atomic
import JobQueue.Proofs.Binary64.Order
import JobQueue.Proofs.Queue.Stores
import JobQueue.Proofs.Store.Schedule
import JobQueue.Proofs.Text.Bytes

/-! # A delayed queue as timers

Abstractly a delayed queue says for which moment each payload is scheduled, and what each worker has in
flight. A store holds it as a sorted set of scores, which is no key at all when nothing is scheduled. What a
worker is given is what is due first: the earliest of the moments that have come, and of the payloads with
that moment the one with the least bytes.
-/

namespace JobQueue.Queue

open Function (update update_self update_of_ne)

/-- A time in milliseconds that needs no more than 53 binary digits. -/
abbrev Moment := { millis : Int // millis.natAbs ≤ 2 ^ 53 }

/-- The score of what is scheduled for a moment. -/
def Moment.score (moment : Moment) : Binary64 := Binary64.ofInt moment.val

/-- The moments for which payloads are scheduled, and what each worker has in flight, the latest first. -/
structure Timers where
  due : String → Option Moment := fun _ => none
  inflight : String → List String := fun _ => []

/-- What is done with a delayed queue. -/
inductive TimerOperation where
  | schedule (payload : String) (ready : Moment)
  | cancel (payload : String)
  | dequeue (worker : String) (now : Moment)
  | removeInflight (worker : String)
deriving DecidableEq

/-- A payload is the first of those that are due: its moment has come, and it precedes all others whose moment
has come. -/
structure First (due : String → Option Moment) (now : Moment) (payload : String) (ready : Moment) : Prop where
  scheduled : due payload = some ready
  come : ready.val ≤ now.val
  least : ∀ other time, due other = some time → time.val ≤ now.val →
    ready.val < time.val ∨ ready.val = time.val ∧ Text.bytes payload ≤ Text.bytes other

/-- What an operation answers, and what it leaves. -/
inductive TimerOperation.Effect : TimerOperation → Timers → Option String → Timers → Prop
  | schedule (payload : String) (ready : Moment) (timers : Timers) :
    Effect (.schedule payload ready) timers none { timers with due := update timers.due payload (some ready) }
  | cancel (payload : String) (timers : Timers) :
    Effect (.cancel payload) timers none { timers with due := update timers.due payload none }
  /-- Nothing is given only if no moment has come. -/
  | wait (worker : String) {now : Moment} {timers : Timers}
    (early : ∀ payload ready, timers.due payload = some ready → now.val < ready.val) :
    Effect (.dequeue worker now) timers none timers
  | deliver (worker : String) {now : Moment} {timers : Timers} {payload : String} {ready : Moment}
    (first : First timers.due now payload ready) :
    Effect (.dequeue worker now) timers (some payload)
      { due := update timers.due payload none
        inflight := update timers.inflight worker (payload :: timers.inflight worker) }
  | removeInflight (worker : String) (timers : Timers) :
    Effect (.removeInflight worker) timers (timers.inflight worker).head?
      { timers with inflight := update timers.inflight worker (timers.inflight worker).tail }

/-! ## Scores -/

/-- A sorted set scores payloads for the moments for which they are scheduled, and nothing else. -/
structure Scores (scores : Dict Binary64) (due : String → Option Moment) : Prop where
  distinct : (Dict.keys scores).Nodup
  scored : ∀ payload, Dict.get? scores payload = (due payload).map Moment.score

namespace Scores

variable {scores : Dict Binary64} {due : String → Option Moment} {now : Moment}

/-- A change of the score of one payload. -/
theorem change (scored : Scores scores due) {next : Dict Binary64} (distinct : (Dict.keys next).Nodup)
    {payload : String} {ready? : Option Moment}
    (changes : ∀ other, Dict.get? next other =
      if payload = other then ready?.map Moment.score else Dict.get? scores other) :
    Scores next (update due payload ready?) where
  distinct := distinct
  scored other := by
    rw [changes]
    by_cases same : payload = other
    · subst same
      rw [if_pos rfl, update_self]
    · rw [if_neg same, update_of_ne (Ne.symm same)]
      exact scored.scored other

theorem insert (scored : Scores scores due) (payload : String) (ready : Moment) :
    Scores (Dict.insert scores payload ready.score) (update due payload (some ready)) :=
  scored.change (Dict.nodup_keys_insert scored.distinct _ _)
    fun other => Dict.get?_insert scores payload other _

theorem erase (scored : Scores scores due) (payload : String) :
    Scores (Dict.erase scores payload) (update due payload none) :=
  scored.change (Dict.nodup_keys_erase scored.distinct _)
    fun other => Dict.get?_erase scores payload other

/-- What is scheduled has its score. -/
theorem mem (scored : Scores scores due) {payload : String} {ready : Moment}
    (scheduled : due payload = some ready) : (payload, ready.score) ∈ scores := by
  apply Dict.mem_of_get?
  rw [scored.scored, scheduled]
  rfl

theorem atMost_score {ready now : Moment} : ready.score.atMost now.score = true ↔ ready.val ≤ now.val :=
  Binary64.atMost_ofInt ready.property now.property

/-- Nothing is given only if no moment has come. -/
theorem early (scored : Scores scores due) (nothing : Schedule.firstUpTo now.score scores = none)
    {payload : String} {ready : Moment} (scheduled : due payload = some ready) : now.val < ready.val := by
  have late := Schedule.firstUpTo_eq_none nothing _ (scored.mem scheduled)
  rw [atMost_score] at late
  exact Int.lt_of_not_ge late

/-- What is given is due first. -/
theorem first (scored : Scores scores due) {payload : String} {score : Binary64}
    (given : Schedule.firstUpTo now.score scores = some (payload, score)) :
    ∃ ready, First due now payload ready := by
  obtain ⟨member, upTo, before⟩ := Schedule.firstUpTo_eq_some given
  have found := Dict.get?_of_mem scored.distinct member
  rw [scored.scored] at found
  obtain ⟨ready, scheduled, rfl⟩ := Option.map_eq_some_iff.mp found
  refine ⟨ready, scheduled, atMost_score.mp upTo, ?_⟩
  intro other time due come
  have precedes := Schedule.precedes_iff.mp (before _ (scored.mem due) (atMost_score.mpr come))
  rw [Text.bytes_le_iff]
  exact precedes.imp (Binary64.rank_ofInt_lt ready.property time.property).mp
    (And.imp_left (Binary64.rank_ofInt_inj ready.property time.property).mp)

end Scores

/-! ## Timers in a store -/

/-- A store holds the timers of a queue at the keys of its name. -/
def HoldsTimers (space : Keyspace) (queue : String) (slots : Slots) (timers : Timers) : Prop :=
  ∃ scores, Scores scores timers.due ∧ Stores space queue slots (Entry.sortedSet scores).kept timers.inflight

namespace TimerOperation

variable (space : Keyspace) (queue : String)

/-- The operation on a queue of any kind. -/
def operation : TimerOperation → Operation
  | schedule payload ready => .enqueueDelayed payload ready.val
  | cancel payload => .removeDelayed payload
  | dequeue worker now => .list (.dequeue worker now.val)
  | removeInflight worker => .list (.removeInflight worker)

def program (timer : TimerOperation) : Task QueueError (Option String) := timer.operation.program space queue

/-- What is left of an operation that is about to make its last request. -/
def writing (timer : TimerOperation) : Task QueueError (Option String) := timer.operation.writing space queue

/-- What is left of an operation that looks first whether the queue is delayed. -/
def looking (timer : TimerOperation) : Task QueueError (Option String) :=
  asking (.keyType (space.queue queue)) fun found =>
    if found = .absent ∨ found = .sortedSet then timer.writing space queue
    else .fail (.wrongKind queue .delayed (.alone found))

end TimerOperation

variable {space : Keyspace} {queue : String}

theorem holdsTimers_nil : HoldsTimers space queue [] {} := ⟨[], ⟨List.nodup_nil, fun _ => rfl⟩, .nil⟩

namespace TimerOperation

/-- An operation begins by looking or by making its last request. -/
theorem program_cases (named : queue ≠ "") (timer : TimerOperation) :
    timer.program space queue = timer.looking space queue ∨
      timer.program space queue = timer.writing space queue := by
  cases timer with
  | schedule payload ready => exact .inl (ListOperation.checkedWrite_eq named requireDelayed_eq _)
  | cancel payload => exact .inl (ListOperation.checkedWrite_eq named requireDelayed_eq _)
  | dequeue worker now => exact .inr (ListOperation.program_dequeue named worker now.val)
  | removeInflight worker => exact .inr (ask_eq _)

end TimerOperation

section Requests

variable {memory : Memory} {timers : Timers}

/-- What is due first goes on top of what a worker has in flight. -/
theorem HoldsTimers.popToInflight (holds : HoldsTimers space queue memory.slots timers) (worker : String)
    (now : Moment) :
    ∃ payload? next later, memory.popToInflight (route space worker queue) now.val = (.ok payload?, next) ∧
      TimerOperation.Effect (.dequeue worker now) timers payload? later ∧
      HoldsTimers space queue next.slots later := by
  obtain ⟨scores, scored, stores⟩ := holds
  obtain ⟨next, popped⟩ := stores.popToInflight worker now.val
  cases given : Schedule.firstUpTo (Binary64.ofInt now.val) scores with
  | none =>
    have early := fun payload ready => @Scores.early scores timers.due now scored given payload ready
    rw [given] at popped
    exact ⟨none, next, timers, popped.1, .wait worker early, scores, scored, popped.2⟩
  | some entry =>
    obtain ⟨payload, score⟩ := entry
    obtain ⟨ready, first⟩ := scored.first given
    rw [given] at popped
    exact ⟨_, _, _, popped.1, .deliver worker first, _, scored.erase payload, popped.2⟩

/-- The writes of a payload that is scheduled. -/
theorem HoldsTimers.writeAll_schedule {slots : Slots} (holds : HoldsTimers space queue slots timers)
    (now : Nat) (payload : String) (ready : Moment) :
    ∃ next, slots.writeAll now
        (registering space queue [.schedule (space.queue queue) ready.score payload]) = .ok next ∧
      HoldsTimers space queue next { timers with due := update timers.due payload (some ready) } := by
  obtain ⟨scores, scored, stores⟩ := holds
  obtain ⟨next, written, after⟩ := stores.writeAll_schedule now payload ready.score
  exact ⟨next, written, _, scored.insert payload ready, after⟩

/-- The write of a payload that is cancelled. -/
theorem HoldsTimers.writeAll_cancel {slots : Slots} (holds : HoldsTimers space queue slots timers) (now : Nat)
    (payload : String) :
    ∃ next, slots.writeAll now [.unschedule (space.queue queue) payload] = .ok next ∧
      HoldsTimers space queue next { timers with due := update timers.due payload none } := by
  obtain ⟨scores, scored, stores⟩ := holds
  obtain ⟨next, written, after⟩ := stores.writeAll_cancel now payload
  exact ⟨next, written, _, scored.erase payload, after⟩

/-- What is committed has its effect, unless the store fails as was arranged. -/
theorem HoldsTimers.commit (available : memory.unavailable = false) {writes : List Write} {slots : Slots}
    {later : Timers} (written : memory.slots.writeAll memory.clock writes = .ok slots)
    (after : HoldsTimers space queue slots later) :
    (∃ cause next, memory.Arranged cause ∧ memory.perform (.transaction writes) = (.error cause, next) ∧
      next.slots = memory.slots) ∨
    ∃ next, memory.perform (.transaction writes) = (.ok (), next) ∧
      HoldsTimers space queue next.slots later :=
  @Memory.transact (HoldsTimers space queue · later) memory available writes slots written after

/-- The last request of an operation has its effect and its answer, or it fails as was arranged and has no
effect. -/
theorem HoldsTimers.perform (holds : HoldsTimers space queue memory.slots timers) (timer : TimerOperation) :
    (∃ cause next, memory.Arranged cause ∧
      memory.perform (timer.operation.request space queue) = (.error cause, next) ∧
      next.slots = memory.slots) ∨
    ∃ reply next later, memory.perform (timer.operation.request space queue) = (.ok reply, next) ∧
      timer.Effect timers (timer.operation.answer space queue reply) later ∧
      HoldsTimers space queue next.slots later := by
  by_cases unavailable : memory.unavailable = true
  · exact .inl ⟨.refused, _, unavailable, Memory.perform_unavailable unavailable _, rfl⟩
  have available : memory.unavailable = false := eq_false_of_ne_true unavailable
  cases timer with
  | schedule payload ready =>
    obtain ⟨slots, written, after⟩ := holds.writeAll_schedule memory.clock payload ready
    exact (HoldsTimers.commit available written after).imp_right fun ⟨next, made, left⟩ =>
      ⟨(), next, _, made, .schedule payload ready timers, left⟩
  | cancel payload =>
    obtain ⟨slots, written, after⟩ := holds.writeAll_cancel memory.clock payload
    exact (HoldsTimers.commit available written after).imp_right fun ⟨next, made, left⟩ =>
      ⟨(), next, _, made, .cancel payload timers, left⟩
  | dequeue worker now =>
    obtain ⟨payload?, next, later, popped, effect, left⟩ := holds.popToInflight worker now
    refine .inr ⟨payload?, next, later, ?_, effect, left⟩
    simp only [TimerOperation.operation, Operation.request, ListOperation.request, Memory.perform, available]
    exact popped
  | removeInflight worker =>
    obtain ⟨scores, scored, stores⟩ := holds
    obtain ⟨next, popped, left⟩ := stores.popInflight worker
    refine .inr ⟨_, next, _, ?_, .removeInflight worker timers, scores, scored, left⟩
    simp only [TimerOperation.operation, Operation.request, ListOperation.request, Memory.perform, available]
    exact popped

end Requests

/-! ## Processes that share a delayed queue -/

/-- What may be left of an operation that has had no effect yet. -/
inductive TimerOperation.Pending (space : Keyspace) (queue : String) (timer : TimerOperation) :
    Task QueueError (Option String) → Prop
  | looking : Pending space queue timer (timer.looking space queue)
  | writing : Pending space queue timer (timer.writing space queue)

namespace TimerOperation

variable {timer : TimerOperation}

theorem pending_program (named : queue ≠ "") (timer : TimerOperation) :
    timer.Pending space queue (timer.program space queue) := by
  rcases timer.program_cases named with looks | writes
  · rw [looks]
    exact .looking
  · rw [writes]
    exact .writing

theorem Pending.asks {program : Task QueueError (Option String)}
    (pending : timer.Pending space queue program) :
    ∃ request rest, program = .call request rest := by
  cases pending with
  | looking => exact ⟨_, _, rfl⟩
  | writing => exact ⟨_, _, rfl⟩

/-- What an operation asks is answered, and leads it on or to its end. -/
theorem Pending.answered {request : Request}
    {rest : Except StoreError request.Reply → Task QueueError (Option String)}
    (pending : timer.Pending space queue (.call request rest)) {memory : Memory} {timers : Timers}
    (holds : HoldsTimers space queue memory.slots timers) :
    Answered (Pending space queue) (HoldsTimers space queue) Effect timer memory timers
      (rest (memory.perform request).1) (memory.perform request).2 := by
  generalize same : Task.call request rest = program at pending
  cases pending with
  | looking =>
    cases same
    obtain ⟨scores, scored, stores⟩ := holds
    rcases stores.perform_keyType with ⟨fails, refused⟩ | found
    · rw [refused]
      exact .excused fails rfl
    · have delayed : ((Entry.sortedSet scores).kept.map Entry.type).getD .absent = .absent ∨
          ((Entry.sortedSet scores).kept.map Entry.type).getD .absent = .sortedSet := by
        cases scores with
        | nil => exact .inl rfl
        | cons => exact .inr rfl
      rw [found]
      simp only [if_pos delayed]
      exact .goesOn .writing rfl
  | writing =>
    cases same
    rcases holds.perform timer with
      ⟨cause, after, fails, performed, unchanged⟩ | ⟨reply, after, later, performed, effect, represents⟩
    · rw [performed]
      exact .excused fails unchanged
    · rw [performed]
      exact .takesEffect effect represents

end TimerOperation

/-- The operations on a delayed queue take effect on its timers at one request. -/
def timerQueue (space : Keyspace) {queue : String} (named : queue ≠ "") :
    Atomic TimerOperation (Option String) Timers where
  program := TimerOperation.program space queue
  Pending := TimerOperation.Pending space queue
  Represents := HoldsTimers space queue
  Effect := TimerOperation.Effect
  begun := TimerOperation.pending_program named
  asks := TimerOperation.Pending.asks
  answered pending _ _ holds := pending.answered holds

section Runs

variable {ι : Type} {history rest : List (Completion ι TimerOperation (Option String))}
  {timers later : Timers}

/-- The moment for which an operation schedules a payload. -/
def TimerOperation.schedules? (payload : String) : TimerOperation → Option Moment
  | schedule other ready => if other = payload then some ready else none
  | _ => none

/-- The moment for which a payload has been scheduled last. -/
def latest? (payload : String) (history : List (Completion ι TimerOperation (Option String))) :
    Option Moment :=
  history.reverse.findSome? fun done => done.operation.schedules? payload

theorem latest?_cons (payload : String) (done : Completion ι TimerOperation (Option String)) :
    latest? payload (done :: rest) = (latest? payload rest).or (done.operation.schedules? payload) := by
  simp [latest?]

/-- What is scheduled has just been scheduled, or was before. -/
theorem TimerOperation.Effect.scheduled {timer : TimerOperation} {answer : Option String}
    (effect : timer.Effect timers answer later) {payload : String} {ready : Moment}
    (scheduled : later.due payload = some ready) :
    (timer.schedules? payload).or (timers.due payload) = some ready := by
  have kept {other : String} (left : update timers.due other none payload = some ready) :
      timers.due payload = some ready := by
    by_cases same : payload = other
    · subst same
      rw [update_self] at left
      contradiction
    · rwa [update_of_ne same] at left
  cases effect with
  | schedule other time =>
    change update timers.due other (some time) payload = some ready at scheduled
    by_cases same : payload = other
    · subst same
      rw [update_self] at scheduled
      rw [schedules?, if_pos rfl, Option.some_or, scheduled]
    · rw [update_of_ne same] at scheduled
      rw [schedules?, if_neg (Ne.symm same), Option.none_or, scheduled]
  | cancel => exact kept scheduled
  | deliver => exact kept scheduled
  | wait => exact scheduled
  | removeInflight => exact scheduled

/-- What is scheduled is scheduled for the moment for which it has been scheduled last. -/
theorem latest?_of_replays (replays : Replays TimerOperation.Effect timers history later) {payload : String}
    {ready : Moment} (scheduled : later.due payload = some ready) :
    (latest? payload history).or (timers.due payload) = some ready := by
  induction replays with
  | nil => exact scheduled
  | cons takes _ ih =>
    have known := ih scheduled
    rw [latest?_cons, Option.or_assoc]
    cases later : latest? payload _ with
    | some time =>
      rw [later] at known
      exact known
    | none =>
      rw [later] at known
      exact takes.scheduled known

/-- No payload is given before the moment for which it has been scheduled last. -/
def Punctual (history : List (Completion ι TimerOperation (Option String))) : Prop :=
  ∀ earlier done rest, history = earlier ++ done :: rest →
    ∀ worker now payload, done.operation = .dequeue worker now → done.answer = some payload →
      ∃ ready, latest? payload earlier = some ready ∧ ready.val ≤ now.val

theorem punctual_of_replays (replays : Replays TimerOperation.Effect {} history later) :
    Punctual history := by
  rintro earlier ⟨who, operation, answer⟩ rest rfl worker now payload rfl rfl
  obtain ⟨middle, before, after⟩ := replays.split
  cases after with
  | cons takes _ =>
    cases takes with
    | deliver _ first =>
      have known := latest?_of_replays before first.scheduled
      rw [Option.or_none] at known
      exact ⟨_, known, first.come⟩

variable [DecidableEq ι] {moves : List (Move ι TimerOperation)}
  {world : World ι TimerOperation QueueError (Option String)}

/-- Every run of processes on a delayed queue is one of timers, and nothing is given early. -/
theorem refines_timers (named : queue ≠ "")
    (run : World.fresh.run? (timerQueue space named).programs moves = some world) :
    ∃ timers, (timerQueue space named).Refines {} moves world timers ∧
      Punctual (World.fresh.completions (timerQueue space named).programs moves) := by
  obtain ⟨timers, refines⟩ := Atomic.refines holdsTimers_nil run
  exact ⟨timers, refines, punctual_of_replays refines.replayed⟩

end Runs

/-- Two payloads are due at once and a third is rescheduled to a moment before the epoch; the sorted set
vanishes between a look and a write, and a transaction is discarded. -/
def alarms : List (Move Nat TimerOperation) :=
  let moment (millis : Int) (exact : millis.natAbs ≤ 2 ^ 53) : Moment := ⟨millis, exact⟩
  [.start 0 (.schedule "b" (moment 5 (by decide))), .advance 0, .advance 0,
    .start 0 (.schedule "a" (moment 5 (by decide))), .advance 0, .advance 0,
    .start 0 (.schedule "c" (moment 3 (by decide))), .advance 0, .advance 0,
    .start 1 (.dequeue "w" (moment 2 (by decide))), .advance 1,
    .start 0 (.schedule "c" (moment (-7) (by decide))), .advance 0, .advance 0,
    .start 1 (.dequeue "w" (moment (-7) (by decide))), .advance 1,
    .start 1 (.dequeue "w" (moment 5 (by decide))), .advance 1,
    .start 0 (.schedule "b" (moment 9 (by decide))), .advance 0,
    .start 1 (.dequeue "v" (moment 5 (by decide))), .advance 1, .advance 0,
    .start 1 (.dequeue "w" (moment 8 (by decide))), .advance 1,
    .start 2 (.cancel "b"), .advance 2, .spoil, .advance 2,
    .start 1 (.removeInflight "w"), .advance 1]

/-- A delayed queue with a name. -/
abbrev alarmClock : Atomic TimerOperation (Option String) Timers :=
  timerQueue ⟨"app"⟩ (by decide : "mail" ≠ "")

theorem refines_timers_alarms : ∃ world, World.fresh.run? alarmClock.programs alarms = some world ∧
    (World.fresh.completions alarmClock.programs alarms).filterMap (·.answer) = ["c", "a", "b", "a"] ∧
    ∃ timers, alarmClock.Refines {} alarms world timers ∧
      Punctual (World.fresh.completions alarmClock.programs alarms) := by
  have possible : (World.fresh.run? alarmClock.programs alarms).isSome = true := by decide +kernel
  have given : (World.fresh.completions alarmClock.programs alarms).filterMap (·.answer) =
      ["c", "a", "b", "a"] := by decide +kernel
  obtain ⟨world, run⟩ := Option.isSome_iff_exists.mp possible
  exact ⟨world, run, given, refines_timers (by decide) run⟩

end JobQueue.Queue
