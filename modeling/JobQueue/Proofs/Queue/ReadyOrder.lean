import Mathlib.Data.List.Nodup
import JobQueue.Proofs.Queue.Cancellation
import JobQueue.Proofs.Queue.Draining
import JobQueue.Proofs.Queue.Undoing

/-! # Delayed jobs in the order of their ready times

The jobs that clients schedule in a queue are given by the milliseconds of their ready times, and those of
one millisecond by the bytes of their payloads. Milliseconds follow the instants, except that a leap second
shares its milliseconds with the second behind it: the epoch has no second for it, and its fraction counts on
past 999. So a job within a leap second may be overtaken by one that is to be ready in the second behind, and
no other job is overtaken.
-/

namespace JobQueue

open Function (update update_self update_of_ne)
open Contents (list? scores?)

/-! ## Instants to the millisecond -/

namespace Instant

/-- Two instants fall in the same millisecond. -/
def SameMilli (a b : Instant) : Prop := a.seconds = b.seconds ∧ a.nanos / 1000000 = b.nanos / 1000000

instance (a b : Instant) : Decidable (a.SameMilli b) := inferInstanceAs (Decidable (_ ∧ _))

/-- Milliseconds of instants are doubles. -/
theorem InUse.epochMillis_bounded {instant : Instant} (inUse : instant.InUse) :
    instant.epochMillis.natAbs ≤ 2 ^ 53 := by
  obtain ⟨years, fraction⟩ := inUse
  have least : firstSecond = -8334601228800 := by decide
  have bound : endSecond = 8210266876800 := by decide
  rw [LocalTime.inYears, least, bound, Bool.and_eq_true, decide_eq_true_eq, decide_eq_true_eq] at years
  rw [epochMillis]
  omega

theorem before_iff {a b : Instant} :
    a.before b = true ↔ a.seconds < b.seconds ∨ a.seconds = b.seconds ∧ a.nanos < b.nanos := by
  simp [before]

end Instant

/-! ## Delayed jobs -/

/-- A job and the time at which it is to be ready. -/
structure Delayed where
  job : Job
  readyAt : Instant

namespace Delayed

def payload (delayed : Delayed) : String := Codec.encodeJob delayed.job

def millis (delayed : Delayed) : Int := delayed.readyAt.epochMillis

def score (delayed : Delayed) : Binary64 := Binary64.ofInt delayed.millis

/-- A job goes ahead of another: it is ready an earlier millisecond, or in the same and has lesser bytes. -/
def Ahead (first second : Delayed) : Prop :=
  first.millis < second.millis ∨
    first.millis = second.millis ∧ Text.bytes first.payload < Text.bytes second.payload

/-- A job within a leap second is overtaken by one that is to be ready in the second behind it. -/
structure Overtaken (early late : Delayed) : Prop where
  leap : 1000000000 ≤ early.readyAt.nanos
  next : late.readyAt.seconds = early.readyAt.seconds + 1
  /-- Of the milliseconds that both seconds share it has the earlier one, or the same and lesser bytes. -/
  ahead : late.readyAt.nanos / 1000000 < (early.readyAt.nanos - 1000000000) / 1000000 ∨
    late.readyAt.nanos / 1000000 = (early.readyAt.nanos - 1000000000) / 1000000 ∧
      Text.bytes late.payload < Text.bytes early.payload

variable {early late : Delayed}

theorem Overtaken.lateAhead (overtaken : early.Overtaken late) : late.Ahead early := by
  obtain ⟨leap, next, ahead⟩ := overtaken
  unfold Ahead millis Instant.epochMillis
  rcases ahead with less | ⟨same, bytes⟩
  · exact .inl (by omega)
  · exact .inr ⟨by omega, bytes⟩

/-- The earlier of two jobs goes ahead, unless it is overtaken. -/
theorem ahead_of_before (inUse : early.readyAt.InUse) (before : early.readyAt.before late.readyAt = true)
    (apart : ¬ early.readyAt.SameMilli late.readyAt) (differ : early.payload ≠ late.payload)
    (kept : ¬ early.Overtaken late) : early.Ahead late := by
  have fraction := inUse.fraction
  rw [Instant.before_iff] at before
  unfold Instant.SameMilli at apart
  unfold Ahead millis Instant.epochMillis
  rcases before with less | ⟨same, nanos⟩
  · rcases Int.lt_trichotomy (early.readyAt.seconds * 1000 + (early.readyAt.nanos / 1000000 : Nat))
      (late.readyAt.seconds * 1000 + (late.readyAt.nanos / 1000000 : Nat)) with ahead | meet | behind
    · exact .inl ahead
    · refine .inr ⟨meet, ?_⟩
      by_contra notAhead
      rw [Text.bytes_lt_iff, String.not_lt] at notAhead
      have least := Std.lt_of_le_of_ne notAhead differ.symm
      exact kept ⟨by omega, by omega, .inr ⟨by omega, Text.bytes_lt_iff.mpr least⟩⟩
    · exact absurd ⟨by omega, by omega, .inl (by omega)⟩ kept
  · exact .inl (by omega)

end Delayed

/-! ## Scores of delayed jobs -/

/-- A sorted set scores some jobs for their ready times, and nothing else. -/
structure Stocked (scores : Dict Binary64) (jobs : List Delayed) : Prop where
  distinct : (Dict.keys scores).Nodup
  scored : ∀ payload score, Dict.get? scores payload = some score ↔
    ∃ delayed ∈ jobs, delayed.payload = payload ∧ delayed.score = score

/-- Jobs but those of a payload. -/
def Delayed.without (payload : String) (jobs : List Delayed) : List Delayed :=
  jobs.filter fun delayed => delayed.payload != payload

namespace Delayed

variable {payload : String} {jobs : List Delayed} {delayed : Delayed}

theorem mem_without : delayed ∈ without payload jobs ↔ delayed ∈ jobs ∧ delayed.payload ≠ payload := by
  simp [without]

theorem length_without (among : delayed ∈ jobs) {count : Nat} (many : jobs.length ≤ count + 1) :
    (without delayed.payload jobs).length ≤ count := by
  have fewer : (without delayed.payload jobs).length < jobs.length :=
    List.length_filter_lt_length_iff_exists.mpr ⟨delayed, among, by simp⟩
  omega

end Delayed

namespace Stocked

variable {scores : Dict Binary64} {jobs : List Delayed} {delayed : Delayed}

theorem nil : Stocked [] [] := ⟨List.nodup_nil, fun _ _ => by simp⟩

/-- A job with a payload of its own is scheduled. -/
theorem insert (stocked : Stocked scores jobs) (own : ∀ other ∈ jobs, other.payload ≠ delayed.payload) :
    Stocked (Dict.insert scores delayed.payload delayed.score) (jobs ++ [delayed]) where
  distinct := Dict.nodup_keys_insert stocked.distinct _ _
  scored payload score := by
    rw [Dict.get?_insert]
    split
    · next same =>
      subst same
      constructor
      · intro found
        exact ⟨delayed, List.mem_append_right _ (List.mem_singleton_self _), rfl, Option.some.inj found⟩
      · rintro ⟨other, among, same, rfl⟩
        rcases List.mem_append.mp among with before | last
        · exact absurd same (own other before)
        · rw [List.mem_singleton.mp last]
    · next differ =>
      rw [stocked.scored]
      constructor
      · rintro ⟨other, among, found⟩
        exact ⟨other, List.mem_append_left _ among, found⟩
      · rintro ⟨other, among, rfl, rfl⟩
        rcases List.mem_append.mp among with before | last
        · exact ⟨other, before, rfl, rfl⟩
        · exact absurd (congrArg Delayed.payload (List.mem_singleton.mp last).symm) differ

theorem erase (stocked : Stocked scores jobs) (payload : String) :
    Stocked (Dict.erase scores payload) (Delayed.without payload jobs) where
  distinct := Dict.nodup_keys_erase stocked.distinct _
  scored name score := by
    rw [Dict.get?_erase]
    split
    · next same =>
      subst same
      refine iff_of_false nofun ?_
      rintro ⟨other, among, same, -⟩
      exact (Delayed.mem_without.mp among).2 same
    · next differ =>
      rw [stocked.scored]
      constructor
      · rintro ⟨other, among, rfl, found⟩
        exact ⟨other, Delayed.mem_without.mpr ⟨among, Ne.symm differ⟩, rfl, found⟩
      · rintro ⟨other, among, found⟩
        exact ⟨other, (Delayed.mem_without.mp among).1, found⟩

theorem mem (stocked : Stocked scores jobs) (among : delayed ∈ jobs) :
    (delayed.payload, delayed.score) ∈ scores :=
  Dict.mem_of_get? ((stocked.scored _ _).mpr ⟨delayed, among, rfl, rfl⟩)

/-- If a job is due, then one leads, and none that is due goes ahead of it. -/
theorem exists_leads (stocked : Stocked scores jobs) (inUse : ∀ delayed ∈ jobs, delayed.readyAt.InUse)
    {now : Int} (among : delayed ∈ jobs) (due : delayed.millis ≤ now) :
    ∃ first ∈ jobs, Schedule.Leads (Binary64.ofInt now) scores first.payload first.score ∧
      ∀ other ∈ jobs, other.millis ≤ now → ¬ other.Ahead first := by
  have bounded {delayed : Delayed} (among : delayed ∈ jobs) : delayed.millis.natAbs ≤ 2 ^ 53 :=
    (inUse delayed among).epochMillis_bounded
  cases given : Schedule.firstUpTo (Binary64.ofInt now) scores with
  | none =>
    have late := Schedule.firstUpTo_eq_none given _ (stocked.mem among)
    exact absurd (Binary64.atMost_ofInt_of_le (bounded among) due) late
  | some entry =>
    obtain ⟨payload, score⟩ := entry
    have leads := Schedule.leads_of_firstUpTo given
    obtain ⟨first, member, rfl, rfl⟩ :=
      (stocked.scored _ _).mp (Dict.get?_of_mem stocked.distinct leads.among)
    refine ⟨first, member, leads, fun other also come ahead => ?_⟩
    have ready := Binary64.atMost_ofInt_of_le (bounded also) come
    have precedes := Schedule.precedes_iff.mp (leads.first _ (stocked.mem also) ready)
    have less := Binary64.rank_ofInt_lt (bounded member) (bounded also)
    have same := Binary64.rank_ofInt_inj (bounded member) (bounded also)
    rcases precedes with before | ⟨meet, bytes⟩
    · rcases ahead with more | ⟨equal, -⟩
      · exact absurd (less.mp before) (Int.lt_asymm more)
      · exact absurd (less.mp before) (Int.not_lt.mpr (Int.le_of_eq equal))
    · rcases ahead with more | ⟨-, lesser⟩
      · exact absurd (same.mp meet) (Int.ne_of_gt more)
      · exact absurd bytes (String.not_le.mpr (Text.bytes_lt_iff.mp lesser))

end Stocked

/-! ## Scheduling and asking -/

namespace Queue

/-- Clients schedule jobs one after the other, and time passes before each call and at the end. -/
inductive SchedulesEach (space : Keyspace) (queue : String) : Memory → List Delayed → Memory → Prop
  | done (memory : Memory) (wait : Nat) : SchedulesEach space queue memory [] (memory.advance wait)
  | call {memory between after : Memory} (wait : Nat) {client : Client} (ours : client.space = space)
    {now : Instant} {delayed : Delayed} {rest : List Delayed}
    (run : (client.enqueueDelayed now queue (some delayed.job) delayed.readyAt).run (memory.advance wait) =
      (.ok (), between))
    (behind : SchedulesEach space queue between rest after) :
    SchedulesEach space queue memory (delayed :: rest) after

/-- A worker asks for a job at a time, after it has waited. -/
structure Ask where
  worker : String
  now : Int
  wait : Nat := 0
deriving DecidableEq, Repr

/-- What workers are answered that ask a queue one after the other. -/
def answers (space : Keyspace) (queue : String) : List Ask → Memory → List (Except QueueError (Option String))
  | [], _ => []
  | ask :: asks, memory =>
    let (answer, next) := (dequeue space ask.worker queue ask.now).run (memory.advance ask.wait)
    answer :: answers space queue asks next

/-- Two payloads are given, one and then the other. -/
def InTurn (first second : String) (answers : List (Except QueueError (Option String))) : Prop :=
  ∃ before behind, answers = before ++ .ok (some first) :: behind ∧
    .ok (some second) ∉ before ∧ .ok (some second) ∈ behind

/-- Delayed jobs with payloads of their own are all that a queue holds, and what some workers have in flight
is a list or nothing. -/
structure Awaits (space : Keyspace) (queue : String) (workers : String → Prop) (jobs : List Delayed)
    (memory : Memory) : Prop where
  inUse : ∀ delayed ∈ jobs, delayed.readyAt.InUse
  apart : (jobs.map Delayed.payload).Nodup
  reachable : jobs ≠ [] → memory.unavailable = false
  lasting : memory.Lasts (space.queue queue)
  held : ∃ scores, scores? (memory.contents (space.queue queue)) = some scores ∧ Stocked scores jobs
  once : memory.contents (space.recurring queue) = none
  flying : ∀ worker, workers worker → (list? (memory.contents (space.inflight worker queue))).isSome

end Queue

/-- Time takes away what a key holds, or leaves it. -/
theorem Memory.contents_advance_or (memory : Memory) (key : String) (millis : Nat) :
    (memory.advance millis).contents key = memory.contents key ∨
      (memory.advance millis).contents key = none := by
  rcases memory.held_advance_or key millis with same | gone
  · exact .inl (congrArg (Option.map Slot.entry) same)
  · exact .inr (congrArg (Option.map Slot.entry) gone)

/-- A program that succeeds has reached the store. -/
theorem Committing.available_of_ok {ε : Type} {effect? : Contents → Option Contents} {task : Task ε Unit}
    (committing : Committing effect? task) {memory after : Memory} (ok : task.run memory = (.ok (), after)) :
    after.unavailable = false := by
  induction committing generalizing memory with
  | fail error => exact nomatch ok
  | look key leads ih => exact ih _ ok
  | ping leads ih => exact ih _ ok
  | commit effective succeeds fails =>
    obtain ⟨left, made⟩ := run_transaction succeeds fails ok
    rw [← left, Memory.unavailable_perform]
    by_contra unavailable
    cases (made rfl).symm.trans
      (congrArg Prod.fst (Memory.perform_unavailable (eq_true_of_ne_false unavailable) _))

theorem Client.named_of_run_enqueueDelayed {client : Client} {now readyAt : Instant} {queue : String}
    {job? : Option Job} {memory after : Memory}
    (run : (client.enqueueDelayed now queue job? readyAt).run memory = (.ok (), after)) : queue ≠ "" := by
  rintro rfl
  cases congrArg Prod.fst run

namespace Queue.Awaits

variable {space : Keyspace} {queue : String} {workers : String → Prop} {jobs : List Delayed} {memory : Memory}

theorem of_unused (unused : memory.contents (space.queue queue) = none)
    (once : memory.contents (space.recurring queue) = none)
    (flying : ∀ worker, workers worker → (list? (memory.contents (space.inflight worker queue))).isSome) :
    Awaits space queue workers [] memory where
  inUse := List.forall_mem_nil _
  apart := List.nodup_nil
  reachable := fun waits => absurd rfl waits
  lasting := Slots.Lasts.of_absent unused
  held := ⟨[], by rw [unused]; rfl, .nil⟩
  once := once
  flying := flying

theorem advance (awaits : Awaits space queue workers jobs memory) (millis : Nat) :
    Awaits space queue workers jobs (memory.advance millis) where
  inUse := awaits.inUse
  apart := awaits.apart
  reachable := awaits.reachable
  lasting := awaits.lasting.advance millis
  held := by
    rw [awaits.lasting.contents_advance]
    exact awaits.held
  once := by
    rcases memory.contents_advance_or (space.recurring queue) millis with same | gone
    · rw [same, awaits.once]
    · exact gone
  flying worker asks := by
    rcases memory.contents_advance_or (space.inflight worker queue) millis with same | gone
    · rw [same]
      exact awaits.flying worker asks
    · rw [gone]
      rfl

/-- One more job has been scheduled. -/
theorem schedule {client : Client} (awaits : Awaits client.space queue workers jobs memory) {now : Instant}
    {delayed : Delayed} {after : Memory} (inUse : delayed.readyAt.InUse)
    (apart : ((jobs ++ [delayed]).map Delayed.payload).Nodup)
    (run : (client.enqueueDelayed now queue (some delayed.job) delayed.readyAt).run memory =
      (.ok (), after)) :
    Awaits client.space queue workers (jobs ++ [delayed]) after := by
  have committing := Order.committing client queue (.enqueueDelayed now (some delayed.job) delayed.readyAt)
  obtain ⟨scores, held, stocked⟩ := awaits.held
  obtain ⟨scheduled, others⟩ := Change.effect_enqueueDelayed (committing.effect_of_ok run) held
  have own (other : Delayed) (among : other ∈ jobs) : other.payload ≠ delayed.payload := by
    rw [List.map_append, List.nodup_append] at apart
    exact apart.2.2 _ (List.mem_map_of_mem among) _ (List.mem_map_of_mem (List.mem_singleton_self _))
  have allInUse : ∀ other ∈ jobs ++ [delayed], other.readyAt.InUse :=
    List.forall_mem_append.mpr ⟨awaits.inUse, List.forall_mem_singleton.mpr inUse⟩
  refine ⟨allInUse, apart, fun _ => committing.available_of_ok run,
    committing.lasts run awaits.lasting, ?_, ?_, ?_⟩
  · exact ⟨_, by rw [scheduled]; rfl, stocked.insert own⟩
  · rw [others _ (Keyspace.recurring_ne_queue queue) (Keyspace.queues_ne_recurring queue).symm, awaits.once]
  · intro worker asks
    rw [others _ (Keyspace.inflight_ne_queue worker queue queue) (Keyspace.inflight_ne_queues worker queue)]
    exact awaits.flying worker asks

/-- What has been scheduled is what the queue holds. -/
theorem schedules {more : List Delayed} {after : Memory} (awaits : Awaits space queue workers jobs memory)
    (scheduled : SchedulesEach space queue memory more after)
    (inUse : ∀ delayed ∈ more, delayed.readyAt.InUse)
    (apart : ((jobs ++ more).map Delayed.payload).Nodup) :
    Awaits space queue workers (jobs ++ more) after := by
  induction scheduled generalizing jobs with
  | done memory wait =>
    rw [List.append_nil]
    exact awaits.advance wait
  | @call _ _ _ wait _ ours _ next rest run _ ih =>
    subst ours
    obtain ⟨nextInUse, inUse⟩ := List.forall_mem_cons.mp inUse
    rw [List.append_cons] at apart ⊢
    have first : ((jobs ++ [next]).map Delayed.payload).Nodup :=
      apart.sublist ((List.sublist_append_left _ rest).map _)
    exact ih ((awaits.advance wait).schedule nextInUse first run) inUse apart

/-- A worker that asks is given a job, if one is due, and none that is due goes ahead of it. -/
theorem dequeue (awaits : Awaits space queue workers jobs memory) (named : queue ≠ "") {worker : String}
    (asks : workers worker) {now : Int} {delayed : Delayed} (among : delayed ∈ jobs)
    (due : delayed.millis ≤ now) :
    ∃ first ∈ jobs, (∀ other ∈ jobs, other.millis ≤ now → ¬ other.Ahead first) ∧
      ∃ next, (Queue.dequeue space worker queue now).run memory = (.ok (some first.payload), next) ∧
        Awaits space queue workers (Delayed.without first.payload jobs) next := by
  have available := awaits.reachable (List.ne_nil_of_mem among)
  have differ := @Keyspace.inflight_ne_queue space worker queue queue
  obtain ⟨scores, held, stocked⟩ := awaits.held
  obtain ⟨stack, flying⟩ := Option.isSome_iff_exists.mp (awaits.flying worker asks)
  obtain ⟨first, member, leads, least⟩ := stocked.exists_leads awaits.inUse among due
  have sorted : scores? (memory.contents (route space worker queue).queue) = some scores := held
  obtain ⟨next, popped, after⟩ :=
    Memory.popToInflight_moves ((Contents.gives_iff_leads sorted).mpr ⟨⟨_, leads⟩, rfl⟩) differ flying
  have once : memory.contents (route space worker queue).recurring = none := awaits.once
  have lasting := awaits.lasting.popToInflight (route space worker queue) now
  rw [popped] at lasting
  rw [Contents.scoresBehind, Contents.frequency?, once] at after
  simp only [route] at after
  refine ⟨first, member, least, next, run_dequeue named available popped,
    fun other still => awaits.inUse other (Delayed.mem_without.mp still).1,
    awaits.apart.sublist (List.filter_sublist.map _), fun _ => unavailable_popToInflight available popped,
    lasting, ?_, ?_, ?_⟩
  · refine ⟨_, ?_, stocked.erase first.payload⟩
    rw [after, update_of_ne differ.symm, update_self, Contents.scores?_kept]
  · rw [after, update_of_ne (Keyspace.inflight_ne_recurring worker queue queue).symm,
      update_of_ne (Keyspace.recurring_ne_queue queue), awaits.once]
  · intro other also
    by_cases own : other = worker
    · subst own
      rw [after, update_self]
      rfl
    · rw [after, update_of_ne fun same => own (Keyspace.inflight_inj.mp same),
        update_of_ne (Keyspace.inflight_ne_queue other queue queue)]
      exact awaits.flying other also

/-- Of the answers, the first is known if a job is due. -/
theorem answers_cons (awaits : Awaits space queue workers jobs memory) (named : queue ≠ "") {ask : Ask}
    (asks : workers ask.worker) {delayed : Delayed} (among : delayed ∈ jobs) (due : delayed.millis ≤ ask.now)
    (rest : List Ask) :
    ∃ first ∈ jobs, (∀ other ∈ jobs, other.millis ≤ ask.now → ¬ other.Ahead first) ∧
      ∃ next, answers space queue (ask :: rest) memory =
          .ok (some first.payload) :: answers space queue rest next ∧
        Awaits space queue workers (Delayed.without first.payload jobs) next := by
  obtain ⟨first, member, least, next, run, left⟩ :=
    (awaits.advance ask.wait).dequeue named asks among due
  refine ⟨first, member, least, next, ?_, left⟩
  rw [answers, run]

/-- A job that is due whenever a worker asks is given, if workers ask as often as there are jobs. -/
theorem given (awaits : Awaits space queue workers jobs memory) (named : queue ≠ "") {asks : List Ask}
    (ours : ∀ ask ∈ asks, workers ask.worker) (many : jobs.length ≤ asks.length) {delayed : Delayed}
    (among : delayed ∈ jobs) (due : ∀ ask ∈ asks, delayed.millis ≤ ask.now) :
    .ok (some delayed.payload) ∈ answers space queue asks memory := by
  induction asks generalizing jobs memory with
  | nil => exact absurd among (List.length_eq_zero_iff.mp (Nat.le_zero.mp many) ▸ List.not_mem_nil)
  | cons ask rest ih =>
    obtain ⟨our, ours⟩ := List.forall_mem_cons.mp ours
    obtain ⟨dueNow, due⟩ := List.forall_mem_cons.mp due
    obtain ⟨first, member, -, next, answered, left⟩ := awaits.answers_cons named our among dueNow rest
    rw [answered]
    by_cases same : delayed.payload = first.payload
    · rw [same]
      exact List.mem_cons_self ..
    · have waits := Delayed.mem_without.mpr ⟨among, same⟩
      exact List.mem_cons_of_mem _ (ih left ours (Delayed.length_without member many) waits due)

/-- Of two jobs that are due whenever a worker asks, the one that goes ahead is given first. -/
theorem inTurn (awaits : Awaits space queue workers jobs memory) (named : queue ≠ "") {asks : List Ask}
    (ours : ∀ ask ∈ asks, workers ask.worker) (many : jobs.length ≤ asks.length) {first second : Delayed}
    (among : first ∈ jobs) (also : second ∈ jobs) (differ : first.payload ≠ second.payload)
    (ahead : first.Ahead second)
    (due : ∀ ask ∈ asks, first.millis ≤ ask.now ∧ second.millis ≤ ask.now) :
    InTurn first.payload second.payload (answers space queue asks memory) := by
  induction asks generalizing jobs memory with
  | nil => exact absurd among (List.length_eq_zero_iff.mp (Nat.le_zero.mp many) ▸ List.not_mem_nil)
  | cons ask rest ih =>
    obtain ⟨our, ours⟩ := List.forall_mem_cons.mp ours
    obtain ⟨dueNow, due⟩ := List.forall_mem_cons.mp due
    obtain ⟨leader, member, least, next, answered, left⟩ :=
      awaits.answers_cons named our among dueNow.1 rest
    have enough := Delayed.length_without member many
    rw [answered]
    by_cases same : first.payload = leader.payload
    · -- the second job is still there, and is given later
      have waits := Delayed.mem_without.mpr ⟨also, fun equal => differ (same.trans equal.symm)⟩
      exact ⟨[], _, by rw [same]; rfl, List.not_mem_nil,
        left.given named ours enough waits fun ask asked => (due ask asked).2⟩
    · have other : second.payload ≠ leader.payload := by
        intro equal
        obtain rfl := List.inj_on_of_nodup_map awaits.apart also member equal
        exact least first among dueNow.1 ahead
      obtain ⟨before, behind, split, unseen, seen⟩ := ih left ours enough
        (Delayed.mem_without.mpr ⟨among, same⟩) (Delayed.mem_without.mpr ⟨also, other⟩) due
      refine ⟨_ :: before, behind, by rw [split]; rfl, ?_, seen⟩
      rw [List.mem_cons, not_or]
      exact ⟨fun equal => other (Option.some.inj (Except.ok.inj equal)), unseen⟩

end Queue.Awaits

namespace Queue

section Scheduled

variable {space : Keyspace} {queue : String} {memory after : Memory} {jobs : List Delayed}

theorem SchedulesEach.named (scheduled : SchedulesEach space queue memory jobs after) (some : jobs ≠ []) :
    queue ≠ "" := by
  cases scheduled with
  | done => exact absurd rfl some
  | call _ _ run _ => exact Client.named_of_run_enqueueDelayed run

/-- Jobs that are scheduled in an unused queue are given in the order of their ready times, if workers ask
when they are due: of two that are not ready in the same millisecond, the earlier is given first unless it is
overtaken, and then the later is. -/
theorem scheduled_inTurn (scheduled : SchedulesEach space queue memory jobs after)
    (unused : memory.contents (space.queue queue) = none)
    (once : memory.contents (space.recurring queue) = none)
    (apart : (jobs.map Delayed.payload).Nodup) (inUse : ∀ delayed ∈ jobs, delayed.readyAt.InUse)
    {early late : Delayed} (among : early ∈ jobs) (also : late ∈ jobs)
    (before : early.readyAt.before late.readyAt = true)
    (differ : ¬ early.readyAt.SameMilli late.readyAt) {asks : List Ask}
    (flying : ∀ ask ∈ asks, (list? (memory.contents (space.inflight ask.worker queue))).isSome)
    (due : ∀ ask ∈ asks, early.millis ≤ ask.now ∧ late.millis ≤ ask.now) (many : jobs.length ≤ asks.length) :
    (¬ early.Overtaken late → InTurn early.payload late.payload (answers space queue asks after)) ∧
      (early.Overtaken late → InTurn late.payload early.payload (answers space queue asks after)) := by
  have named := scheduled.named (List.ne_nil_of_mem among)
  have awaits : Awaits space queue (fun worker => ∃ ask ∈ asks, ask.worker = worker) jobs after := by
    refine (Awaits.of_unused unused once ?_).schedules scheduled inUse apart
    rintro _ ⟨ask, asked, rfl⟩
    exact flying ask asked
  have ours (ask : Ask) (asked : ask ∈ asks) : ∃ other ∈ asks, other.worker = ask.worker := ⟨ask, asked, rfl⟩
  have payloads : early.payload ≠ late.payload := by
    intro same
    obtain rfl := List.inj_on_of_nodup_map apart among also same
    simp [Instant.before] at before
  constructor
  · intro kept
    have ahead := Delayed.ahead_of_before (inUse early among) before differ payloads kept
    exact awaits.inTurn named ours many among also payloads ahead due
  · intro overtaken
    exact awaits.inTurn named ours many also among payloads.symm overtaken.lateAhead
      fun ask asked => (due ask asked).symm

/-- Calls that succeed one after the other. -/
theorem SchedulesEach.of_run {client : Client} {now : Instant}
    (run : (jobs.forM fun delayed => client.enqueueDelayed now queue (some delayed.job) delayed.readyAt).run
      memory = (.ok (), after)) : SchedulesEach client.space queue memory jobs after := by
  induction jobs generalizing memory with
  | nil =>
    cases run
    exact .done _ 0
  | cons delayed rest ih =>
    rw [List.forM] at run
    obtain ⟨_, between, first, behind⟩ := Task.run_bind_eq_ok run
    exact .call 0 rfl first (ih behind)

end Scheduled

section Samples

def planner : Client where
  space := ⟨"app"⟩

/-- Jobs are scheduled in an empty store. -/
def booked (jobs : List Delayed) : Except ClientError Unit × Memory :=
  (jobs.forM fun delayed => planner.enqueueDelayed ⟨0, 0⟩ "mail" (some delayed.job) delayed.readyAt).run {}

theorem schedulesEach_booked {jobs : List Delayed} (ok : (booked jobs).1.isOk = true) :
    SchedulesEach ⟨"app"⟩ "mail" {} jobs (booked jobs).2 :=
  SchedulesEach.of_run (Prod.ext (Client.ok_of_isOk ok) rfl)

/-- A job of the last second of the year 2200. -/
def lastSecond : Delayed := ⟨{ className := "LastSecond" }, ⟨7289654399, 300000000⟩⟩

/-- A job of the leap second there. -/
def leap : Delayed := ⟨{ className := "Leap" }, ⟨7289654399, 1500000000⟩⟩

/-- A job of the first second behind it. -/
def newYear : Delayed := ⟨{ className := "NewYear" }, ⟨7289654400, 200000000⟩⟩

/-- Workers ask when all of these are due. -/
def lateAsks : List Ask := [⟨"w", 7289654402000, 0⟩, ⟨"w", 7289654402000, 10⟩, ⟨"v", 7289654403000, 0⟩]

theorem newYear_inUse : ∀ delayed ∈ [newYear, leap, lastSecond], delayed.readyAt.InUse := by
  simp only [List.forall_mem_cons]
  exact ⟨⟨by decide, by decide⟩, ⟨by decide, by decide⟩, ⟨by decide, by decide⟩, List.forall_mem_nil _⟩

/-- The job of the last second comes before that of the leap second, which the job of the next year
overtakes. -/
theorem scheduled_inTurn_newYear :
    InTurn lastSecond.payload leap.payload
        (answers ⟨"app"⟩ "mail" lateAsks (booked [newYear, leap, lastSecond]).2) ∧
      InTurn newYear.payload leap.payload
        (answers ⟨"app"⟩ "mail" lateAsks (booked [newYear, leap, lastSecond]).2) := by
  have scheduled : SchedulesEach ⟨"app"⟩ "mail" {} [newYear, leap, lastSecond] _ :=
    schedulesEach_booked (by decide +kernel)
  have apart : ([newYear, leap, lastSecond].map Delayed.payload).Nodup := by decide +kernel
  have flying : ∀ ask ∈ lateAsks,
      (list? (Memory.contents {} (Keyspace.inflight ⟨"app"⟩ ask.worker "mail"))).isSome := fun _ _ => rfl
  have kept : ¬ lastSecond.Overtaken leap := fun overtaken => absurd overtaken.leap (by decide)
  have overtaken : leap.Overtaken newYear := ⟨by decide, by decide, .inl (by decide)⟩
  exact ⟨(scheduled_inTurn scheduled rfl rfl apart newYear_inUse (by simp) (by simp) (by decide) (by decide)
      flying (by decide) (by decide)).1 kept,
    (scheduled_inTurn scheduled rfl rfl apart newYear_inUse (by simp) (by simp) (by decide) (by decide)
      flying (by decide) (by decide)).2 overtaken⟩

/-- A job with an argument that is not a number. -/
def unnumbered : Delayed :=
  ⟨{ className := "Note", args := [.float (Binary64.nan false)] }, ⟨7258118400, 0⟩⟩

/-- A job with no argument in its place, which has the same text. -/
def unfilled : Delayed := ⟨{ className := "Note", args := [.null] }, ⟨7258118401, 0⟩⟩

/-- What is given first, and not once more, is not given behind anything. -/
theorem not_inTurn {first second : String} {rest : List (Except QueueError (Option String))}
    (once : .ok (some second) ∉ rest) : ¬ InTurn first second (.ok (some second) :: rest) := by
  rintro ⟨before, behind, split, unseen, seen⟩
  cases before with
  | nil =>
    cases split
    exact once seen
  | cons head before =>
    cases split
    exact unseen (List.mem_cons_self ..)

/-- Two different jobs are scheduled in an empty store, one to be ready before the other and not in the same
millisecond, and workers ask when both are due; but the earlier is not given before the later. -/
structure OutOfOrder (early late : Delayed) : Prop where
  proper : early.readyAt.IsProper ∧ late.readyAt.IsProper
  different : early.job.same late.job = false
  before : early.readyAt.before late.readyAt = true
  apart : ¬ early.readyAt.SameMilli late.readyAt
  scheduled : SchedulesEach ⟨"app"⟩ "mail" {} [early, late] (booked [early, late]).2
  due : ∀ ask ∈ lateAsks, early.millis ≤ ask.now ∧ late.millis ≤ ask.now
  given : ¬ InTurn early.payload late.payload (answers ⟨"app"⟩ "mail" lateAsks (booked [early, late]).2)

/-- A job of a leap second is given behind one of the next second, and of two jobs with one text only one is
given. -/
theorem scheduled_out_of_order : OutOfOrder leap newYear ∧ OutOfOrder unnumbered unfilled := by
  have overtakes : answers ⟨"app"⟩ "mail" lateAsks (booked [leap, newYear]).2 =
      [.ok (some newYear.payload), .ok (some leap.payload), .ok none] := by decide +kernel
  have merges : answers ⟨"app"⟩ "mail" lateAsks (booked [unnumbered, unfilled]).2 =
      [.ok (some unfilled.payload), .ok none, .ok none] := by decide +kernel
  constructor
  · refine ⟨by decide, by decide +kernel, by decide, by decide, schedulesEach_booked (by decide +kernel),
      by decide, ?_⟩
    rw [overtakes]
    exact not_inTurn (by decide +kernel)
  · refine ⟨by decide, by decide +kernel, by decide, by decide, schedulesEach_booked (by decide +kernel),
      by decide, ?_⟩
    rw [merges]
    exact not_inTurn (by decide +kernel)

end Samples

end Queue

end JobQueue
