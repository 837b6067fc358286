import JobQueue.Proofs.Queue.Layout
import JobQueue.Proofs.Store.Locality
import JobQueue.Task.Run

/-! # Queues that do not concern each other

All that an operation reads or writes is at the places of its queue, but for the name of the queue, which it
may enter into the set of names. No two queues share a place, and names can be entered in any order. So
operations on different queues can change places: both have the same results, and leave the same store.
-/

namespace JobQueue

/-! ## Programs that keep to some keys -/

theorem Memory.Abreast.later {abreast : Slots → Slots → Prop} {base : Memory} {i j made : Nat} {α : Type}
    {here there : α × Memory} (rest : Memory.Abreast abreast base (i + made) (j + made) here there) :
    Memory.Abreast abreast base i j here there := by
  cases rest with
  | mk answer more still =>
    rw [Nat.add_assoc, Nat.add_assoc]
    exact .mk answer (made + more) still

theorem Memory.Abreast.elim {abreast : Slots → Slots → Prop} {base : Memory} {i j : Nat} {α : Type}
    {here there : α × Memory} (runs : Memory.Abreast abreast base i j here there) :
    there.1 = here.1 ∧ abreast here.2.slots there.2.slots ∧
      ∃ made, here.2 = { base with slots := here.2.slots, transactions := i + made } ∧
        there.2 = { base with slots := there.2.slots, transactions := j + made } := by
  cases runs with
  | mk answer made still => exact ⟨rfl, still, made, rfl, rfl⟩

namespace Task

variable {ε α β : Type}

/-- A program that asks only what it is allowed to ask, and does not wait. -/
inductive Asks (allowed : Request → Prop) : Task ε α → Prop
  | done (a : α) : Asks allowed (.done a)
  | fail (error : ε) : Asks allowed (.fail error)
  | call {request : Request} {next : Except StoreError request.Reply → Task ε α} (permitted : allowed request)
    (further : ∀ answer, Asks allowed (next answer)) : Asks allowed (.call request next)

theorem Asks.bind {allowed : Request → Prop} {task : Task ε α} {rest : α → Task ε β} (asks : task.Asks allowed)
    (further : ∀ a, (rest a).Asks allowed) : (task >>= rest).Asks allowed := by
  induction asks with
  | done a => exact further a
  | fail error => exact .fail error
  | call permitted _ ih => exact .call permitted ih

section Runs

variable {own : String → Prop} {names name : String} {task : Task ε α}

theorem Asks.run_abreast (asks : task.Asks (Request.Within own names name)) (apart : ¬ own names)
    {base : Memory} (undisturbed : base.discardNext = false) {first second one other : Slots}
    (alike : Slots.enterable base.clock (Dict.get? first names) =
      Slots.enterable base.clock (Dict.get? second names))
    (abreast : Slots.Abreast own names name base.clock first second one other) (i j : Nat) :
    Memory.Abreast (Slots.Abreast own names name base.clock first second) base i j
      (task.run { base with slots := one, transactions := i })
      (task.run { base with slots := other, transactions := j }) := by
  induction asks generalizing one other i j with
  | done a => exact .mk _ 0 abreast
  | fail error => exact .mk _ 0 abreast
  | @call request next permitted _ ih =>
    have performed := Memory.perform_abreast abreast apart i j undisturbed alike permitted
    rw [run_call, run_call]
    generalize Memory.perform { base with slots := one, transactions := i } request = here,
      Memory.perform { base with slots := other, transactions := j } request = there at performed ⊢
    cases performed with
    | mk answer made still => exact (ih answer still (i + made) (j + made)).later

/-- What a program does to two stores that hold the same at its own keys. -/
structure Sides (task : Task ε α) (own : String → Prop) (names name : String) (memory beside : Memory) :
    Prop where
  answer : (task.run beside).1 = (task.run memory).1
  slots : Slots.Abreast own names name memory.clock memory.slots beside.slots (task.run memory).2.slots
    (task.run beside).2.slots
  made : ∃ made, (task.run memory).2 = { memory with
      slots := (task.run memory).2.slots, transactions := memory.transactions + made } ∧
    (task.run beside).2 = { memory with
      slots := (task.run beside).2.slots, transactions := beside.transactions + made }

theorem Asks.sides (asks : task.Asks (Request.Within own names name)) (apart : ¬ own names)
    {memory beside : Memory} (undisturbed : memory.discardNext = false)
    (rest : beside = { memory with slots := beside.slots, transactions := beside.transactions })
    (inside : ∀ key, own key → Dict.get? memory.slots key = Dict.get? beside.slots key)
    (alike : Slots.enterable memory.clock (Dict.get? memory.slots names) =
      Slots.enterable memory.clock (Dict.get? beside.slots names)) :
    task.Sides own names name memory beside := by
  have runs := asks.run_abreast apart undisturbed alike (.refl inside) memory.transactions beside.transactions
  rw [← rest] at runs
  obtain ⟨answer, slots, made⟩ := runs.elim
  exact ⟨answer, slots, made⟩

end Runs

/-! ## Programs that keep to different keys -/

/-- Two programs that can change places: they have the same results, and leave the same store. -/
structure Commute (one other : Task ε α) (memory : Memory) : Prop where
  first : (one.run (other.run memory).2).1 = (one.run memory).1
  second : (other.run (one.run memory).2).1 = (other.run memory).1
  keys (key : String) : Dict.get? (other.run (one.run memory).2).2.slots key =
    Dict.get? (one.run (other.run memory).2).2.slots key
  rest : { (other.run (one.run memory).2).2 with slots := [] } =
    { (one.run (other.run memory).2).2 with slots := [] }

section Commute

variable {own foreign : String → Prop} {names name friend : String} {task other : Task ε α} {memory : Memory}

/-- Alone, a program leaves all keys that it does not keep to. -/
theorem Asks.alone (asks : task.Asks (Request.Within own names name)) (apart : ¬ own names)
    (undisturbed : memory.discardNext = false) : task.Sides own names name memory memory :=
  asks.sides apart undisturbed rfl (fun _ _ => rfl) rfl

/-- What a program that keeps to other keys has left is the same to a program. -/
theorem Asks.beside (asks : task.Asks (Request.Within own names name)) (apart : ¬ own names)
    (undisturbed : memory.discardNext = false) (sides : other.Sides foreign names friend memory memory)
    (disjoint : ∀ key, own key → ¬ foreign key) : task.Sides own names name memory (other.run memory).2 := by
  obtain ⟨made, left, -⟩ := sides.made
  obtain ⟨times, entered, -⟩ := sides.slots.entered
  apply asks.sides apart undisturbed
  · rw [left]
  · intro key mine
    exact (sides.slots.outside (disjoint key mine) (fun equal => apart (equal ▸ mine))).1.symm
  · rw [entered, Slots.enterable_iterate]

theorem commute_of_asks (asks : task.Asks (Request.Within own names name))
    (asksOther : other.Asks (Request.Within foreign names friend)) (apart : ¬ own names)
    (apartOther : ¬ foreign names) (disjoint : ∀ key, own key → ¬ foreign key)
    (undisturbed : memory.discardNext = false) : Commute task other memory := by
  have alone := asks.alone apart undisturbed
  have aloneOther := asksOther.alone apartOther undisturbed
  have behind := asks.beside apart undisturbed aloneOther disjoint
  have behindOther := asksOther.beside apartOther undisturbed alone fun key theirs mine => disjoint key mine theirs
  refine ⟨behind.answer, behindOther.answer, fun key => ?_, ?_⟩
  -- a key is the shared one, or the first program's, or the second's, or nobody's
  · by_cases shared : key = names
    · subst shared
      obtain ⟨times, left, right⟩ := behind.slots.entered
      obtain ⟨timesOther, leftOther, rightOther⟩ := behindOther.slots.entered
      rw [rightOther, left, right, leftOther]
      exact (Slots.entered_comm memory.clock friend name).iterate_iterate timesOther times _
    · by_cases mine : own key
      · rw [(behindOther.slots.outside (disjoint key mine) shared).2]
        exact behind.slots.inside mine
      · by_cases theirs : foreign key
        · rw [(behind.slots.outside mine shared).2]
          exact (behindOther.slots.inside theirs).symm
        · rw [(behindOther.slots.outside theirs shared).2, (behind.slots.outside mine shared).2,
            (alone.slots.outside mine shared).1, (aloneOther.slots.outside theirs shared).1]
  · obtain ⟨made, left, right⟩ := behind.made
    obtain ⟨madeOther, leftOther, rightOther⟩ := behindOther.made
    rw [right, rightOther, left, leftOther]
    simp only [Nat.add_assoc, Nat.add_comm made madeOther]

end Commute

end Task

namespace Queue

/-! ## Operations -/

/-- The places of one queue. -/
inductive Place.Of (name : PlainName) : Place → Prop
  | queue : Of name (.queue name)
  | recurring : Of name (.recurring name)
  | inflight (worker : String) : Of name (.inflight worker name)

/-- The keys of one queue. -/
def Owns (space : Keyspace) (name : PlainName) (key : String) : Prop :=
  ∃ place : Place, place.Of name ∧ place.key space = key

variable {space : Keyspace} {name first second : PlainName}

theorem Owns.queue : Owns space name (space.queue name) := ⟨_, .queue, rfl⟩

theorem Owns.recurring : Owns space name (space.recurring name) := ⟨_, .recurring, rfl⟩

theorem Owns.inflight (worker : String) : Owns space name (space.inflight worker name) :=
  ⟨_, .inflight worker, rfl⟩

theorem not_owns_queues : ¬ Owns space name space.queues := by
  rintro ⟨place, of, same⟩
  cases (Place.key_inj same : place = .names)
  cases of

theorem Owns.disjoint (differ : first ≠ second) (key : String) (mine : Owns space first key) :
    ¬ Owns space second key := by
  rintro ⟨other, ofSecond, same⟩
  obtain ⟨place, ofFirst, rfl⟩ := mine
  cases Place.key_inj same
  cases ofFirst <;> cases ofSecond <;> exact differ rfl

/-- What an operation on a queue may ask. -/
abbrev Asked (space : Keyspace) (name : PlainName) : Request → Prop :=
  Request.Within (Owns space name) space.queues name

section Programs

theorem asks_ask {request : Request} (asked : Asked space name request) :
    (Queue.ask request).Asks (Asked space name) := by
  rw [ask_eq]
  refine .call asked fun answer => ?_
  cases answer with
  | ok reply => exact .done reply
  | error cause => exact .fail _

theorem asks_demand (holds : Bool) (cause : BadArgument) : (demand holds cause).Asks (Asked space name) := by
  cases holds with
  | true => exact .done ()
  | false => exact .fail _

theorem asks_require {condition : Prop} [Decidable condition] {error : QueueError} :
    (if condition then Task.done () else Task.fail error).Asks (Asked space name) := by
  split
  · exact .done ()
  · exact .fail _

theorem asks_requireSimple : (requireSimple space name).Asks (Asked space name) :=
  .bind (asks_ask (.queue : Owns space name _)) fun _ => asks_require

theorem asks_requireDelayed : (requireDelayed space name).Asks (Asked space name) :=
  .bind (asks_ask (.queue : Owns space name _)) fun _ => asks_require

theorem asks_requireRecurring : (requireRecurring space name).Asks (Asked space name) :=
  .bind (asks_ask (.queue : Owns space name _)) fun _ =>
    .bind (asks_ask (.recurring : Owns space name _)) fun _ => asks_require

theorem within_registering {writes : List Write} (mine : ∀ write ∈ writes, Owns space name write.key) :
    Asked space name (.transaction (registering space name writes)) :=
  List.forall_mem_cons.mpr ⟨.inr rfl, fun write among => .inl (mine write among)⟩

/-- A program that looks at the types of its keys before it writes. -/
theorem asks_checked {require : Task QueueError Unit} (looks : require.Asks (Asked space name))
    {writes : List Write} (asked : Asked space name (.transaction writes)) :
    (do demandName name; require; commit writes).Asks (Asked space name) :=
  .bind (asks_demand _ _) fun _ => .bind looks fun _ => asks_ask asked

theorem within_route (worker : String) : Owns space name (route space worker name).queue ∧
    Owns space name (route space worker name).recurring ∧ Owns space name (route space worker name).inflight :=
  ⟨.queue, .recurring, .inflight worker⟩

theorem ListOperation.asks_program (operation : ListOperation) :
    (operation.program space name).Asks (Asked space name) := by
  cases operation with
  | enqueue payload | enqueueFirst payload =>
    refine .bind (asks_checked asks_requireSimple (within_registering ?_)) fun _ => .done none
    exact List.forall_mem_singleton.mpr .queue
  | enqueueAll payloads =>
    refine .bind (.bind (asks_demand _ _) fun _ => ?_) fun _ => .done none
    split
    · exact .done ()
    · refine .bind asks_requireSimple fun _ => asks_ask (within_registering fun write among => ?_)
      obtain ⟨payload, -, rfl⟩ := List.mem_map.mp among
      exact .queue
  | dequeue worker now => exact .bind (asks_demand _ _) fun _ => asks_ask (within_route worker)
  | removeInflight worker => exact asks_ask (.inflight worker : Owns space name _)
  | restoreInflight worker now => exact asks_ask (within_route worker)

/-- An operation keeps to the places of its queue, and may enter the name of the queue. -/
theorem Operation.asks_program (operation : Operation) :
    (operation.program space name).Asks (Asked space name) := by
  cases operation with
  | list operation => exact operation.asks_program
  | enqueueDelayed payload readyAt =>
    refine .bind (asks_checked asks_requireDelayed (within_registering ?_)) fun _ => .done none
    exact List.forall_mem_singleton.mpr .queue
  | removeDelayed payload =>
    refine .bind (asks_checked asks_requireDelayed ?_) fun _ => .done none
    exact List.forall_mem_singleton.mpr (.inl .queue)
  | enqueueRecurring payload nextFire frequency =>
    refine .bind (.bind (asks_demand _ _) fun _ => .bind (asks_demand _ _) fun _ =>
      .bind asks_requireRecurring fun _ => asks_ask (within_registering ?_)) fun _ => .done none
    exact List.forall_mem_cons.mpr ⟨.queue, List.forall_mem_singleton.mpr .recurring⟩
  | removeRecurring payload =>
    refine .bind (asks_checked asks_requireRecurring ?_) fun _ => .done none
    exact List.forall_mem_cons.mpr ⟨.inl .recurring, List.forall_mem_singleton.mpr (.inl .queue)⟩

end Programs

/-- Operations on different queues can change places, and none touches the places of the other queue. -/
theorem operations_commute (differ : first ≠ second) (operation other : Operation) {memory : Memory}
    (undisturbed : memory.discardNext = false) :
    Task.Commute (operation.program space first) (other.program space second) memory ∧
      ∀ place : Place, place.Of second →
        Dict.get? ((operation.program space first).run memory).2.slots (place.key space) =
          Dict.get? memory.slots (place.key space) := by
  have asks : (operation.program space first).Asks (Asked space first) := operation.asks_program
  have asksOther : (other.program space second).Asks (Asked space second) := other.asks_program
  refine ⟨Task.commute_of_asks asks asksOther not_owns_queues not_owns_queues (Owns.disjoint differ) undisturbed,
    fun place of => ?_⟩
  have theirs : Owns space second (place.key space) := ⟨place, of, rfl⟩
  have shared : place.key space ≠ space.queues := fun same => not_owns_queues (same ▸ theirs)
  have foreign : ¬ Owns space first (place.key space) := Owns.disjoint differ.symm _ theirs
  exact ((asks.alone not_owns_queues undisturbed).slots.outside foreign shared).1

/-- A queue of recurring jobs and a queue of jobs in flight, with a list of names that may expire. -/
def neighbours : Memory where
  slots := [("q:queues", ⟨.set ["mail"], some 9⟩), ("q:queue:mail", ⟨.sortedSet [("tick", .zero false)], none⟩),
    ("q:queue:mail:recurring", ⟨.hash [("tick", "1000")], none⟩), ("q:inflight:w:web", ⟨.list ["page"], none⟩)]

theorem operations_commute_neighbours :
    let mail : PlainName := ⟨"mail", by decide⟩
    let web : PlainName := ⟨"web", by decide⟩
    let delay : Operation := .enqueueDelayed "late" 5
    let enqueue : Operation := .list (.enqueue "page")
    mail ≠ web ∧ neighbours.discardNext = false ∧
      Task.Commute (delay.program ⟨"q"⟩ mail) (enqueue.program ⟨"q"⟩ web) neighbours ∧
      ∀ place : Place, place.Of web →
        Dict.get? ((delay.program ⟨"q"⟩ mail).run neighbours).2.slots (place.key ⟨"q"⟩) =
          Dict.get? neighbours.slots (place.key ⟨"q"⟩) := by
  intro mail web delay enqueue
  have differ : mail ≠ web := by decide
  exact ⟨differ, rfl, operations_commute differ delay enqueue rfl⟩

end Queue

end JobQueue
