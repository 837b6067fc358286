import JobQueue.Client
import JobQueue.Proofs.Keyspace
import JobQueue.Proofs.Queue.Operation
import JobQueue.Proofs.Task.Arrivals

/-! # Changes of a queue happen as a whole

Seven operations change a queue. Each looks at the types of the queue's keys and makes one transaction, and
others may do anything to the store before each of these requests. Whatever they do, and whatever goes wrong,
an operation either ends without an error and its whole change has been made at one moment, or it ends with
an error and none of its requests has changed any key. The same holds when a client runs the operation.
-/

namespace JobQueue

open Function (update update_self update_of_ne)
open Contents (list? set? scores? fields?)

/-- What changes a queue. -/
inductive Change where
  | enqueue (payload : String)
  | enqueueFirst (payload : String)
  /-- Payloads, of which there is at least one. -/
  | enqueueAll (payload : String) (payloads : List String)
  | enqueueDelayed (payload : String) (readyAt : Int)
  | removeDelayed (payload : String)
  | enqueueRecurring (payload : String) (nextFire : Int) (frequency : Nat)
  | removeRecurring (payload : String)
deriving DecidableEq, Repr

namespace Change

section Programs

variable (space : Keyspace) (queue : String)

def program : Change → Task QueueError Unit
  | enqueue payload => Queue.enqueue space queue payload
  | enqueueFirst payload => Queue.enqueueFirst space queue payload
  | enqueueAll payload payloads => Queue.enqueueAll space queue (payload :: payloads)
  | enqueueDelayed payload readyAt => Queue.enqueueDelayed space queue payload readyAt
  | removeDelayed payload => Queue.removeDelayed space queue payload
  | enqueueRecurring payload nextFire frequency =>
    Queue.enqueueRecurring space queue payload nextFire frequency
  | removeRecurring payload => Queue.removeRecurring space queue payload

/-- The writes of a change, which its program makes all at once. -/
def writes : Change → List Write
  | enqueue payload => Queue.registering space queue [.append (space.queue queue) payload]
  | enqueueFirst payload => Queue.registering space queue [.prepend (space.queue queue) payload]
  | enqueueAll payload payloads =>
    Queue.registering space queue ((payload :: payloads).map (.append (space.queue queue)))
  | enqueueDelayed payload readyAt =>
    Queue.registering space queue [.schedule (space.queue queue) (Binary64.ofInt readyAt) payload]
  | removeDelayed payload => [.unschedule (space.queue queue) payload]
  | enqueueRecurring payload nextFire frequency => Queue.registering space queue [
    .schedule (space.queue queue) (Binary64.ofInt nextFire) payload,
    .setField (space.recurring queue) payload (String.ofList (Text.integer frequency))]
  | removeRecurring payload => [
    .dropField (space.recurring queue) payload, .unschedule (space.queue queue) payload]

/-- The contents with the queue's name among the names of all queues, if these are a set. -/
def registered? (contents : Contents) : Option Contents :=
  (set? (contents space.queues)).map fun names =>
    update contents space.queues (some (.set (insertMember queue names)))

/-- The contents of a store with the whole of a change, if its keys are of the types that it needs. -/
def effect? (change : Change) (contents : Contents) : Option Contents := match change with
  | enqueue payload => do
    let registered ← registered? space queue contents
    let items ← list? (contents (space.queue queue))
    return update registered (space.queue queue) (some (.list (items ++ [payload])))
  | enqueueFirst payload => do
    let registered ← registered? space queue contents
    let items ← list? (contents (space.queue queue))
    return update registered (space.queue queue) (some (.list (payload :: items)))
  | enqueueAll payload payloads => do
    let registered ← registered? space queue contents
    let items ← list? (contents (space.queue queue))
    return update registered (space.queue queue) (some (.list (items ++ payload :: payloads)))
  | enqueueDelayed payload readyAt => do
    let registered ← registered? space queue contents
    let scores ← scores? (contents (space.queue queue))
    let scores := Dict.insert scores payload (Binary64.ofInt readyAt)
    return update registered (space.queue queue) (some (.sortedSet scores))
  | removeDelayed payload => do
    let scores ← scores? (contents (space.queue queue))
    return update contents (space.queue queue) (Entry.sortedSet (Dict.erase scores payload)).kept
  | enqueueRecurring payload nextFire frequency => do
    let registered ← registered? space queue contents
    let scores ← scores? (contents (space.queue queue))
    let fields ← fields? (contents (space.recurring queue))
    let scores := Dict.insert scores payload (Binary64.ofInt nextFire)
    let fields := Dict.insert fields payload (String.ofList (Text.integer frequency))
    return update (update registered (space.queue queue) (some (.sortedSet scores)))
      (space.recurring queue) (some (.hash fields))
  | removeRecurring payload => do
    let fields ← fields? (contents (space.recurring queue))
    let scores ← scores? (contents (space.queue queue))
    return update (update contents (space.recurring queue) (Entry.hash (Dict.erase fields payload)).kept)
      (space.queue queue) (Entry.sortedSet (Dict.erase scores payload)).kept

end Programs

end Change

/-! ## Programs that change a store at most once -/

/-- What is left of a program that asks for types and signs of life, makes one transaction, and is over. -/
inductive Committing {ε : Type} (effect? : Contents → Option Contents) : Task ε Unit → Prop
  | fail (error : ε) : Committing effect? (.fail error)
  | look (key : String) {next : Except StoreError KeyType → Task ε Unit}
    (leads : ∀ answer, Committing effect? (next answer)) : Committing effect? (.call (.keyType key) next)
  | ping {next : Except StoreError Unit → Task ε Unit}
    (leads : ∀ answer, Committing effect? (next answer)) : Committing effect? (.call .ping next)
  | commit {writes : List Write} (effective : ∀ contents, contents.writeAll? writes = effect? contents)
    {next : Except StoreError Unit → Task ε Unit} (succeeds : next (.ok ()) = .done ())
    (fails : ∀ cause, ∃ error, next (.error cause) = .fail error) :
    Committing effect? (.call (.transaction writes) next)

/-- A program makes the whole of a change at one moment, or it fails and changes nothing. -/
structure AllOrNothing {ε : Type} (effect? : Contents → Option Contents) (task : Task ε Unit) : Prop where
  /-- It ends without an error exactly if one of its requests makes the change. -/
  ok_iff (others : Interference) (seen : Observed) : (task.runAmong others seen).1 = .ok () ↔
    ∃ arrival ∈ task.arrivals others seen, arrival.Commits effect?
  /-- The request that makes the change is the last, and no other request changes anything. -/
  once (others : Interference) (seen : Observed) (ok : (task.runAmong others seen).1 = .ok ()) :
    ∃ looks last, task.arrivals others seen = looks ++ [last] ∧ last.Commits effect? ∧
      ∀ look ∈ looks, look.Untouched
  /-- If it ends with an error, none of its requests changes anything. -/
  failed (others : Interference) (seen : Observed) (error : ε)
    (failed : (task.runAmong others seen).1 = .error error) :
    ∀ arrival ∈ task.arrivals others seen, arrival.Untouched

/-- How a run ends, and what its requests do meanwhile. -/
inductive Ends {ε : Type} (effect? : Contents → Option Contents) : Except ε Unit → List Arrival → Prop
  | whole (looks : List Arrival) {last : Arrival} (untouched : ∀ look ∈ looks, look.Untouched)
    (commits : last.Commits effect?) : Ends effect? (.ok ()) (looks ++ [last])
  | failed {error : ε} {arrivals : List Arrival} (untouched : ∀ arrival ∈ arrivals, arrival.Untouched)
    (never : ∀ arrival ∈ arrivals, ¬ arrival.Commits effect?) : Ends effect? (.error error) arrivals

section Programs

variable {ε δ : Type} {effect? : Contents → Option Contents} {task : Task ε Unit}

/-- A request that changes nothing, and that is no transaction, comes before the others. -/
theorem Ends.look {result : Except ε Unit} {arrivals : List Arrival} (ends : Ends effect? result arrivals)
    {look : Arrival} (untouched : look.Untouched) (asks : ∀ writes, look.request ≠ .transaction writes) :
    Ends effect? result (look :: arrivals) := by
  have never : ¬ look.Commits effect? := fun commits => by
    obtain ⟨writes, same⟩ := commits.transacts
    exact asks writes same
  cases ends with
  | whole looks others commits =>
    exact .whole (look :: looks) (List.forall_mem_cons.mpr ⟨untouched, others⟩) commits
  | failed others neverBehind =>
    exact .failed (List.forall_mem_cons.mpr ⟨untouched, others⟩)
      (List.forall_mem_cons.mpr ⟨never, neverBehind⟩)

/-- A transaction is made as a whole, or it fails and changes nothing. -/
theorem Observed.commits_or_untouched {writes : List Write}
    (effective : ∀ contents, contents.writeAll? writes = effect? contents) (seen : Observed)
    (others : Interference) :
    ((seen.arrival others (.transaction writes)).answer = (.ok () : Except StoreError Unit) ∧
      (seen.arrival others (.transaction writes)).Commits effect?) ∨
    ∃ cause, (seen.arrival others (.transaction writes)).answer = (.error cause : Except StoreError Unit) ∧
      (seen.arrival others (.transaction writes)).Untouched := by
  let memory := (seen.arrival others (.transaction writes)).memory
  cases answer : (memory.perform (.transaction writes)).1 with
  | ok reply =>
    have effect := memory.contents_perform_transaction answer
    rw [effective] at effect
    exact .inl ⟨answer, ⟨_, rfl⟩, ⟨(), answer⟩, effect⟩
  | error cause => exact .inr ⟨cause, answer, memory.held_perform_transaction answer⟩

/-- Every run of such a program ends in one of these ways. -/
theorem Committing.ends (committing : Committing effect? task) (others : Interference) (seen : Observed) :
    Ends effect? (task.runAmong others seen).1 (task.arrivals others seen) := by
  induction committing generalizing seen with
  | fail error => exact .failed (List.forall_mem_nil _) (List.forall_mem_nil _)
  | look key leads ih => exact (ih _ _).look (Memory.held_perform_keyType _ key) fun _ same => by cases same
  | ping leads ih => exact (ih _ _).look (Memory.held_perform_ping _) fun _ same => by cases same
  | commit effective succeeds fails =>
    rw [Task.runAmong_call, Task.arrivals]
    rcases seen.commits_or_untouched effective others with ⟨answer, commits⟩ | ⟨cause, answer, untouched⟩
    · simp only [answer, succeeds]
      exact .whole [] (List.forall_mem_nil _) commits
    · obtain ⟨error, fails⟩ := fails cause
      simp only [answer, fails]
      refine .failed (List.forall_mem_singleton.mpr untouched) (List.forall_mem_singleton.mpr ?_)
      rintro ⟨-, ⟨reply, made⟩, -⟩
      cases answer.symm.trans made

theorem Ends.of_ok {result : Except ε Unit} {arrivals : List Arrival} (ends : Ends effect? result arrivals)
    (ok : result = .ok ()) :
    ∃ looks last, arrivals = looks ++ [last] ∧ last.Commits effect? ∧ ∀ look ∈ looks, look.Untouched := by
  subst ok
  cases ends with
  | whole looks untouched commits => exact ⟨looks, _, rfl, commits, untouched⟩

theorem Ends.of_error {result : Except ε Unit} {arrivals : List Arrival} {error : ε}
    (ends : Ends effect? result arrivals) (failed : result = .error error) :
    ∀ arrival ∈ arrivals, arrival.Untouched ∧ ¬ arrival.Commits effect? := by
  subst failed
  cases ends with
  | failed untouched never => exact fun arrival member => ⟨untouched arrival member, never arrival member⟩

theorem Committing.allOrNothing (committing : Committing effect? task) : AllOrNothing effect? task where
  ok_iff others seen := by
    have ends := committing.ends others seen
    constructor
    · intro ok
      obtain ⟨looks, last, arrivals, commits, -⟩ := ends.of_ok ok
      rw [arrivals]
      exact ⟨last, List.mem_append_right _ (List.mem_singleton_self last), commits⟩
    · rintro ⟨arrival, member, commits⟩
      cases result : (task.runAmong others seen).1 with
      | ok => rfl
      | error error => exact absurd commits (ends.of_error result arrival member).2
  once others seen ok := (committing.ends others seen).of_ok ok
  failed others seen error failed arrival member :=
    ((committing.ends others seen).of_error failed arrival member).1

end Programs

namespace Committing

variable {ε δ : Type} {effect? : Contents → Option Contents}

theorem demand {holds : Bool} {cause : BadArgument} {rest : Unit → Task QueueError Unit}
    (leads : Committing effect? (rest ())) : Committing effect? (Queue.demand holds cause >>= rest) := by
  cases holds with
  | true => exact leads
  | false => exact .fail _

theorem asked {key : String} {rest : KeyType → Task QueueError Unit}
    (leads : ∀ found, Committing effect? (rest found)) :
    Committing effect? (Queue.ask (.keyType key) >>= rest) := by
  rw [Queue.ask_bind]
  apply Committing.look key
  intro answer
  cases answer with
  | ok found => exact leads found
  | error cause => exact .fail _

theorem require {condition : Prop} [Decidable condition] {error : QueueError}
    {rest : Unit → Task QueueError Unit} (leads : Committing effect? (rest ())) :
    Committing effect? ((if condition then Task.done () else Task.fail error) >>= rest) := by
  split
  · exact leads
  · exact .fail _

theorem committed {writes : List Write} (effective : ∀ contents,
      contents.writeAll? writes = effect? contents) :
    Committing effect? (Queue.commit writes) := by
  rw [Queue.commit, Queue.ask_eq]
  exact .commit effective rfl fun cause => ⟨_, rfl⟩

theorem mapError {task : Task ε Unit} (committing : Committing effect? task) (f : ε → δ) :
    Committing effect? (task.mapError f) := by
  induction committing with
  | fail error => exact .fail _
  | look key leads ih => exact .look key ih
  | ping leads ih => exact .ping ih
  | commit effective succeeds fails =>
    refine .commit effective ?_ fun cause => ?_
    · rw [succeeds]
      rfl
    · obtain ⟨error, fails⟩ := fails cause
      exact ⟨f error, by rw [fails]; rfl⟩

/-- What is known without asking decides whether anything is asked. -/
theorem known {α : Type} {known : Except ε α} {rest : α → Task ε Unit}
    (leads : ∀ a, known = .ok a → Committing effect? (rest a)) :
    Committing effect? (Task.ofExcept known >>= rest) := by
  cases known with
  | ok a => exact leads a rfl
  | error error => exact .fail error

/-- A client may ask for a sign of life before. -/
theorem ready {task : Task QueueError Unit} (committing : Committing effect? task) (client : Client) :
    Committing effect? (client.ready task) := by
  unfold Client.ready
  split
  · exact .fail _
  · refine Committing.mapError ?_ _
    split
    · rw [Queue.ping, ← Task.bind_eq, Queue.ask_bind]
      apply Committing.ping
      intro answer
      cases answer with
      | ok reply => exact committing
      | error cause => exact .fail _
    · exact committing

end Committing

/-! ## The seven operations -/

section Changes

variable (space : Keyspace) (queue : String)

/-- Once the queue's name has been entered, the writes behind find the queue's keys as they were. -/
theorem Change.writeAll?_registering {contents : Contents} {writes : List Write}
    {after? : Contents → Option Contents}
    (behind : ∀ registered, registered (space.queue queue) = contents (space.queue queue) →
      registered (space.recurring queue) = contents (space.recurring queue) →
      Contents.writeAll? registered writes = after? registered) :
    contents.writeAll? (Queue.registering space queue writes) =
      (registered? space queue contents).bind after? := by
  rw [Queue.registering, Contents.writeAll?, List.foldlM_cons, Contents.write?_eq]
  dsimp only [registered?]
  cases set? (contents space.queues) with
  | none => rfl
  | some names =>
    refine behind _ ?_ ?_
    · exact update_of_ne (Keyspace.queues_ne_queue queue).symm _ _
    · exact update_of_ne (Keyspace.queues_ne_recurring queue).symm _ _

/-- The writes of a change have its effect. -/
theorem Change.writeAll?_writes (change : Change) (contents : Contents) :
    contents.writeAll? (change.writes space queue) = change.effect? space queue contents := by
  cases change with
  | enqueue payload =>
    refine writeAll?_registering space queue fun registered held _ => ?_
    simp only [Contents.writeAll?, List.foldlM_cons, List.foldlM_nil, Contents.write?_eq, held]
    cases list? (contents (space.queue queue)) <;> rfl
  | enqueueFirst payload =>
    refine writeAll?_registering space queue fun registered held _ => ?_
    simp only [Contents.writeAll?, List.foldlM_cons, List.foldlM_nil, Contents.write?_eq, held]
    cases list? (contents (space.queue queue)) <;> rfl
  | enqueueAll payload payloads =>
    refine writeAll?_registering space queue fun registered held _ => ?_
    rw [Contents.writeAll?_append, held]
    cases list? (contents (space.queue queue)) <;> rfl
  | enqueueDelayed payload readyAt =>
    refine writeAll?_registering space queue fun registered held _ => ?_
    simp only [Contents.writeAll?, List.foldlM_cons, List.foldlM_nil, Contents.write?_eq, held]
    cases scores? (contents (space.queue queue)) <;> rfl
  | removeDelayed payload =>
    simp only [writes, effect?, Contents.writeAll?, List.foldlM_cons, List.foldlM_nil, Contents.write?_eq]
    cases scores? (contents (space.queue queue)) <;> rfl
  | enqueueRecurring payload nextFire frequency =>
    refine writeAll?_registering space queue fun registered held companion => ?_
    simp only [Contents.writeAll?, List.foldlM_cons, List.foldlM_nil, Contents.write?_eq, held]
    cases scores? (contents (space.queue queue)) with
    | none => rfl
    | some scores =>
      simp only [Option.map_some, Option.bind_eq_bind, Option.bind_some,
        update_of_ne (Keyspace.recurring_ne_queue queue), companion]
      cases fields? (contents (space.recurring queue)) <;> rfl
  | removeRecurring payload =>
    simp only [writes, effect?, Contents.writeAll?, List.foldlM_cons, List.foldlM_nil, Contents.write?_eq]
    cases fields? (contents (space.recurring queue)) with
    | none => rfl
    | some fields =>
      simp only [Option.map_some, Option.bind_eq_bind, Option.bind_some,
        update_of_ne (Keyspace.recurring_ne_queue queue).symm]
      cases scores? (contents (space.queue queue)) <;> rfl

/-- A change is one transaction behind looks at types. -/
theorem Change.committing (change : Change) :
    Committing (change.effect? space queue) (change.program space queue) := by
  have commit : Committing (change.effect? space queue) (Queue.commit (change.writes space queue)) :=
    .committed (change.writeAll?_writes space queue)
  cases change with
  | enqueue payload | enqueueFirst payload | enqueueAll payload payloads =>
    simp only [program, Queue.enqueue, Queue.enqueueFirst, Queue.enqueueAll, Queue.requireSimple, bind_assoc]
    exact .demand (.asked fun found => .require commit)
  | enqueueDelayed payload readyAt | removeDelayed payload =>
    simp only [program, Queue.enqueueDelayed, Queue.removeDelayed, Queue.requireDelayed, bind_assoc]
    exact .demand (.asked fun found => .require commit)
  | enqueueRecurring payload nextFire frequency =>
    simp only [program, Queue.enqueueRecurring, Queue.requireRecurring, bind_assoc]
    exact .demand (.demand (.asked fun found => .asked fun companion => .require commit))
  | removeRecurring payload =>
    simp only [program, Queue.removeRecurring, Queue.requireRecurring, bind_assoc]
    exact .demand (.asked fun found => .asked fun companion => .require commit)

end Changes

/-! ## The same through a client -/

/-- What a client is asked to change. The times at which it is asked are part of it. -/
inductive Order where
  | enqueue (job? : Option Job)
  | enqueueFirst (job? : Option Job)
  /-- Jobs, of which there is at least one. -/
  | enqueueAll (job : Job) (jobs : List Job)
  | enqueueDelayed (now : Instant) (job? : Option Job) (readyAt : Instant)
  | removeDelayed (job? : Option Job)
  | enqueueRecurring (now : Instant) (job? : Option Job) (firstFire : Instant) (frequency : Nat)
  | removeRecurring (job? : Option Job)

namespace Order

def program (client : Client) (queue : String) : Order → Task ClientError Unit
  | enqueue job? => client.enqueue queue job?
  | enqueueFirst job? => client.enqueueFirst queue job?
  | enqueueAll job jobs => client.enqueueAll queue (job :: jobs)
  | enqueueDelayed now job? readyAt => client.enqueueDelayed now queue job? readyAt
  | removeDelayed job? => client.removeDelayed queue job?
  | enqueueRecurring now job? firstFire frequency =>
      client.enqueueRecurring now queue job? firstFire frequency
  | removeRecurring job? => client.removeRecurring queue job?

/-- The change that is ordered, if there is a job. -/
def change? : Order → Option Change
  | enqueue job? => job?.map fun job => .enqueue (Codec.encodeJob job)
  | enqueueFirst job? => job?.map fun job => .enqueueFirst (Codec.encodeJob job)
  | enqueueAll job jobs => some (.enqueueAll (Codec.encodeJob job) (jobs.map Codec.encodeJob))
  | enqueueDelayed _ job? readyAt =>
    job?.map fun job => .enqueueDelayed (Codec.encodeJob job) readyAt.epochMillis
  | removeDelayed job? => job?.map fun job => .removeDelayed (Codec.encodeJob job)
  | enqueueRecurring _ job? firstFire frequency =>
    job?.map fun job => .enqueueRecurring (Codec.encodeJob job) firstFire.epochMillis frequency
  | removeRecurring job? => job?.map fun job => .removeRecurring (Codec.encodeJob job)

/-- The effect of an order is that of the change. -/
def effect? (client : Client) (queue : String) (order : Order) (contents : Contents) : Option Contents :=
  order.change?.bind fun change => change.effect? client.space queue contents

end Order

namespace Client

theorem encode_eq_ok {job : Job} {payload : String} (made : encode job = .ok payload) :
    payload = Codec.encodeJob job := by
  unfold encode at made
  split at made
  · exact (Except.ok.inj made).symm
  · contradiction

theorem payload_eq_ok {queue payload : String} {job? : Option Job}
    (made : Client.payload queue job? = .ok payload) :
    ∃ job, job? = some job ∧ payload = Codec.encodeJob job := by
  unfold Client.payload at made
  split at made
  · contradiction
  · contradiction
  · next job _ => exact ⟨job, rfl, encode_eq_ok made⟩

theorem encodeAll_eq_ok {jobs : List Job} {payloads : List String} (made : encodeAll jobs = .ok payloads) :
    payloads = jobs.map Codec.encodeJob := by
  induction jobs generalizing payloads with
  | nil =>
    cases made
    rfl
  | cons job jobs ih =>
    unfold encodeAll at made
    split at made
    · contradiction
    · next payload first =>
      split at made
      · contradiction
      · next others rest =>
        cases made
        rw [List.map_cons, encode_eq_ok first, ih rest]

end Client

/-- A client makes the change that is ordered, if it has no objection. -/
theorem Order.committing (client : Client) (queue : String) (order : Order) :
    Committing (order.effect? client queue) (order.program client queue) := by
  have makes (change : Change) : Committing (change.effect? client.space queue)
      (client.ready (change.program client.space queue)) :=
    (change.committing client.space queue).ready client
  -- Whether there is a payload is known before anything is asked.
  have ordered {job? : Option Job} {change : String → Change} {rest : String → Task ClientError Unit}
      (leads : ∀ payload, Committing ((change payload).effect? client.space queue) (rest payload)) :
      Committing (fun contents => (job?.map fun job => change (Codec.encodeJob job)).bind fun change =>
        change.effect? client.space queue contents) (Task.ofExcept (Client.payload queue job?) >>= rest) := by
    refine .known fun payload made => ?_
    obtain ⟨job, rfl, rfl⟩ := Client.payload_eq_ok made
    exact leads _
  cases order with
  | enqueue job? => exact ordered fun payload => makes (.enqueue payload)
  | enqueueFirst job? => exact ordered fun payload => makes (.enqueueFirst payload)
  | enqueueAll job jobs =>
    refine .known fun _ _ => .known fun payloads made => ?_
    rw [Client.encodeAll_eq_ok made]
    exact makes (.enqueueAll (Codec.encodeJob job) (jobs.map Codec.encodeJob))
  | enqueueDelayed now job? readyAt =>
    exact ordered fun payload => .known fun _ _ => makes (.enqueueDelayed payload readyAt.epochMillis)
  | removeDelayed job? => exact ordered fun payload => makes (.removeDelayed payload)
  | enqueueRecurring now job? firstFire frequency =>
    exact ordered fun payload => .known fun _ _ => .known fun _ _ =>
      makes (.enqueueRecurring payload firstFire.epochMillis frequency)
  | removeRecurring job? => exact ordered fun payload => makes (.removeRecurring payload)

/-- Each of the seven operations is all or nothing, for a store in any state, among others that do anything
to it between the requests, and with any failure; and so is each of them through a client. -/
theorem all_or_nothing :
    (∀ (space : Keyspace) (queue : String) (change : Change),
      AllOrNothing (change.effect? space queue) (change.program space queue)) ∧
    ∀ (client : Client) (queue : String) (order : Order),
      AllOrNothing (order.effect? client queue) (order.program client queue) :=
  ⟨fun space queue change => (change.committing space queue).allOrNothing,
    fun client queue order => (order.committing client queue).allOrNothing⟩

end JobQueue
