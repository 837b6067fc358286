import JobQueue.Proofs.Queue.Stores

/-! # A simple queue as a deque

Abstractly a simple queue is a deque of payloads with a stack for each worker. A store holds such a queue in
the lists at its keys, where a list that has run empty is no key at all. The one request of an operation
takes the store from one such state to the next, and answers as the deque does.
-/

namespace JobQueue.Queue

/-- Payloads that wait, and those that each worker has in flight, the latest first. -/
structure Jobs where
  items : List String := []
  inflight : String → List String := fun _ => []

/-- Replaces what a worker has in flight. -/
def Jobs.setInflight (jobs : Jobs) (worker : String) (stack : List String) : Jobs :=
  { jobs with inflight := fun other => if other = worker then stack else jobs.inflight other }

@[simp] theorem Jobs.setInflight_items (jobs : Jobs) (worker : String) (stack : List String) :
    (jobs.setInflight worker stack).items = jobs.items := rfl

theorem Jobs.setInflight_inflight (jobs : Jobs) (worker : String) (stack : List String) :
    (jobs.setInflight worker stack).inflight = Function.update jobs.inflight worker stack := by
  funext other
  exact (Function.update_apply ..).symm

/-- What an operation answers, and what is left behind it. -/
def ListOperation.apply : ListOperation → Jobs → Option String × Jobs
  | enqueue payload, jobs => (none, { jobs with items := jobs.items ++ [payload] })
  | enqueueFirst payload, jobs => (none, { jobs with items := payload :: jobs.items })
  | enqueueAll payloads, jobs => (none, { jobs with items := jobs.items ++ payloads })
  | dequeue worker _, jobs => match jobs.items with
    | [] => (none, jobs)
    | head :: rest =>
      (some head, { jobs.setInflight worker (head :: jobs.inflight worker) with items := rest })
  | removeInflight worker, jobs => match jobs.inflight worker with
    | [] => (none, jobs)
    | head :: rest => (some head, jobs.setInflight worker rest)
  | restoreInflight worker _, jobs => match jobs.inflight worker with
    | [] => (none, jobs)
    | head :: rest => (some head, { jobs.setInflight worker rest with items := head :: jobs.items })

/-- No payloads leave the deque alone. -/
theorem apply_enqueueAll_nil (jobs : Jobs) : (ListOperation.enqueueAll []).apply jobs = (none, jobs) := by
  rw [ListOperation.apply, List.append_nil]

/-- A store holds a simple queue at the keys of its name, with no frequencies beside it. -/
structure Holds (space : Keyspace) (queue : String) (slots : Slots) (jobs : Jobs) : Prop where
  lasting : slots.Lasting
  items : slots.entry? (space.queue queue) = listed jobs.items
  companion : slots.entry? (space.recurring queue) = none
  inflight : ∀ worker, slots.entry? (space.inflight worker queue) = listed (jobs.inflight worker)
  names : slots.entry? space.queues = none ∨ ∃ members, slots.entry? space.queues = some (.set members)

variable {space : Keyspace} {queue : String}

theorem holds_iff {slots : Slots} {jobs : Jobs} :
    Holds space queue slots jobs ↔ Stores space queue slots (listed jobs.items) jobs.inflight := by
  constructor
  · rintro ⟨lasting, items, companion, inflight, names⟩
    exact ⟨lasting, items, companion, inflight, names⟩
  · rintro ⟨lasting, items, companion, inflight, names⟩
    exact ⟨lasting, items, companion, inflight, names⟩

/-- An empty store holds an empty queue. -/
theorem holds_nil : Holds space queue [] {} := holds_iff.mpr .nil

namespace Holds

variable {slots next : Slots} {jobs : Jobs}

theorem stores (holds : Holds space queue slots jobs) :
    Stores space queue slots (listed jobs.items) jobs.inflight := holds_iff.mp holds

/-- A change of the waiting payloads. -/
theorem setItems (holds : Holds space queue slots jobs) {items : List String}
    (changes : slots.Changes (space.queue queue) (listed items) next) :
    Holds space queue next { jobs with items } := holds_iff.mpr (holds.stores.setQueue changes)

/-- A change of what a worker has in flight. -/
theorem setInflight (holds : Holds space queue slots jobs) {worker : String} {stack : List String}
    (changes : slots.Changes (space.inflight worker queue) (listed stack) next) :
    Holds space queue next (jobs.setInflight worker stack) := by
  rw [holds_iff, Jobs.setInflight_inflight]
  exact holds.stores.setInflight changes

/-- The name of a queue enters the set of names. -/
theorem register (holds : Holds space queue slots jobs) (now : Nat) :
    ∃ next, slots.write now (.addMember space.queues queue) = .ok next ∧ Holds space queue next jobs := by
  obtain ⟨next, written, left⟩ := holds.stores.register now
  exact ⟨next, written, holds_iff.mpr left⟩

/-- Payloads go to the end of a queue that is registered first. -/
theorem registerAppend (holds : Holds space queue slots jobs) (now : Nat) (payloads : List String) :
    ∃ next, slots.writeAll now (registering space queue (payloads.map (.append (space.queue queue)))) =
      .ok next ∧
      Holds space queue next { jobs with items := jobs.items ++ payloads } := by
  obtain ⟨middle, registered, holds⟩ := holds.register now
  obtain ⟨next, written, changes⟩ := holds.lasting.writeAll_append holds.items now payloads
  refine ⟨next, ?_, holds.setItems changes⟩
  rw [registering, Slots.writeAll, registered]
  exact written

/-- A payload goes to the head of a queue. -/
theorem prepend (holds : Holds space queue slots jobs) (now : Nat) (payload : String) :
    ∃ next, slots.write now (.prepend (space.queue queue) payload) = .ok next ∧
      Holds space queue next { jobs with items := payload :: jobs.items } := by
  obtain ⟨next, written, left⟩ := holds.stores.write rfl (apply?_prepend _ payload _) now
  exact ⟨next, written, holds_iff.mpr left⟩

/-- A payload goes to the head of a queue that is registered first. -/
theorem registerPrepend (holds : Holds space queue slots jobs) (now : Nat) (payload : String) :
    ∃ next, slots.writeAll now (registering space queue [.prepend (space.queue queue) payload]) = .ok next ∧
      Holds space queue next { jobs with items := payload :: jobs.items } := by
  obtain ⟨middle, registered, holds⟩ := holds.register now
  obtain ⟨next, written, after⟩ := holds.prepend now payload
  refine ⟨next, ?_, after⟩
  simp only [registering, Slots.writeAll, registered, written]

/-- A payload goes on top of what a worker has in flight. -/
theorem push (holds : Holds space queue slots jobs) (now : Nat) (worker payload : String) :
    ∃ next, slots.write now (.prepend (space.inflight worker queue) payload) = .ok next ∧
      Holds space queue next (jobs.setInflight worker (payload :: jobs.inflight worker)) := by
  obtain ⟨next, written, left⟩ := holds.stores.push now worker payload
  rw [← Jobs.setInflight_inflight] at left
  exact ⟨next, written, holds_iff.mpr left⟩

end Holds

section Requests

variable {memory : Memory} {jobs : Jobs}

/-- A transaction whose writes apply is made, unless it is to be discarded. -/
theorem transact (available : memory.unavailable = false) {writes : List Write} {slots : Slots} {later : Jobs}
    (written : memory.slots.writeAll memory.clock writes = .ok slots)
    (after : Holds space queue slots later) :
    (∃ cause next, memory.Arranged cause ∧ memory.perform (.transaction writes) = (.error cause, next) ∧
      next.slots = memory.slots) ∨
    ∃ next, memory.perform (.transaction writes) = (.ok (), next) ∧ Holds space queue next.slots later :=
  @Memory.transact (Holds space queue · later) memory available writes slots written after

/-- What looks at a simple queue finds that it is one. -/
theorem Holds.perform_keyType (holds : Holds space queue memory.slots jobs) :
    memory.Arranged .refused ∧ memory.perform (.keyType (space.queue queue)) = (.error .refused, memory) ∨
    ∃ found, (found = .absent ∨ found = .list) ∧
      memory.perform (.keyType (space.queue queue)) = (.ok found, memory) := by
  refine holds.stores.perform_keyType.imp_right fun performed => ⟨_, ?_, performed⟩
  cases jobs.items with
  | nil => exact .inl rfl
  | cons head rest => exact .inr rfl

/-- A worker gets the head of the queue on top of what it has in flight. -/
theorem Holds.popToInflight (holds : Holds space queue memory.slots jobs) (worker : String) (now : Int) :
    ∃ next, memory.popToInflight (route space worker queue) now =
        (.ok ((ListOperation.dequeue worker now).apply jobs).1, next) ∧
      Holds space queue next.slots ((ListOperation.dequeue worker now).apply jobs).2 := by
  unfold Memory.popToInflight
  rw [holds.stores.purge_eq, holds.stores.purge_eq]
  obtain ⟨items, inflight⟩ := jobs
  cases items with
  | nil =>
    have nothing : memory.slots.takeReady (route space worker queue) now = (none, memory.slots) := by
      unfold Slots.takeReady
      rw [route, holds.items]
      rfl
    simp only [nothing]
    exact ⟨_, rfl, holds⟩
  | cons head rest =>
    have taken : memory.slots.takeReady (route space worker queue) now =
        (some head, memory.slots.put (space.queue queue) (.list rest)) := by
      unfold Slots.takeReady
      rw [route, holds.items]
      rfl
    obtain ⟨next, written, pushed⟩ := (holds.setItems (holds.lasting.changes_put _ (.list rest))).push
      memory.clock worker head
    simp only [taken]
    simp only [route, written]
    exact ⟨_, rfl, pushed⟩

/-- A worker forgets the top of what it has in flight. -/
theorem Holds.popInflight (holds : Holds space queue memory.slots jobs) (worker : String) :
    ∃ next, memory.popInflight (space.inflight worker queue) =
        (.ok ((ListOperation.removeInflight worker).apply jobs).1, next) ∧
      Holds space queue next.slots ((ListOperation.removeInflight worker).apply jobs).2 := by
  obtain ⟨next, popped, left⟩ := holds.stores.popInflight worker
  refine ⟨next, ?_, ?_⟩
  · rw [popped, ListOperation.apply]
    cases jobs.inflight worker <;> rfl
  · rw [ListOperation.apply]
    cases stack : jobs.inflight worker with
    | nil =>
      rw [stack, List.tail_nil, ← stack, Function.update_eq_self] at left
      exact holds_iff.mpr left
    | cons head rest =>
      rw [stack, List.tail_cons, ← Jobs.setInflight_inflight] at left
      exact holds_iff.mpr left

/-- What a worker has on top in flight goes back to the head of the queue. -/
theorem Holds.restoreInflight (holds : Holds space queue memory.slots jobs) (worker : String) (now : Int) :
    ∃ next, memory.restoreInflight (route space worker queue) now =
        (.ok ((ListOperation.restoreInflight worker now).apply jobs).1, next) ∧
      Holds space queue next.slots ((ListOperation.restoreInflight worker now).apply jobs).2 := by
  unfold Memory.restoreInflight ListOperation.apply
  rw [holds.stores.purge_eq]
  have held := holds.inflight worker
  cases stack : jobs.inflight worker with
  | nil =>
    rw [stack] at held
    simp only [route, stack, Slots.takeHead_none held]
    exact ⟨_, rfl, holds⟩
  | cons head rest =>
    rw [stack] at held
    obtain ⟨middle, taken, changes⟩ := holds.lasting.takeHead_listed held
    have left := holds.setInflight changes
    have once : middle.isRecurring (space.recurring queue) head = false := by
      rw [Slots.isRecurring, left.companion]
    obtain ⟨next, written, restored⟩ := left.prepend memory.clock head
    simp only [route, stack, taken, once, left.lasting.purge_eq, Slots.returnWrite_listed left.items, written]
    exact ⟨_, rfl, restored⟩

/-- The request of an operation has the effect of the operation on the deque, and its answer; else it fails
as was arranged, and has no effect. -/
theorem Holds.perform (holds : Holds space queue memory.slots jobs) (operation : ListOperation) :
    (∃ cause next, memory.Arranged cause ∧
      memory.perform (operation.request space queue) = (.error cause, next) ∧ next.slots = memory.slots) ∨
    ∃ reply next, memory.perform (operation.request space queue) = (.ok reply, next) ∧
      operation.answer space queue reply = (operation.apply jobs).1 ∧
      Holds space queue next.slots (operation.apply jobs).2 := by
  by_cases unavailable : memory.unavailable = true
  · exact .inl ⟨.refused, _, unavailable, Memory.perform_unavailable unavailable _, rfl⟩
  have available : memory.unavailable = false := eq_false_of_ne_true unavailable
  cases operation with
  | enqueue payload =>
    obtain ⟨slots, written, after⟩ := holds.registerAppend memory.clock [payload]
    exact (transact available written after).imp_right fun ⟨next, made, left⟩ => ⟨(), next, made, rfl, left⟩
  | enqueueFirst payload =>
    obtain ⟨slots, written, after⟩ := holds.registerPrepend memory.clock payload
    exact (transact available written after).imp_right fun ⟨next, made, left⟩ => ⟨(), next, made, rfl, left⟩
  | enqueueAll payloads =>
    obtain ⟨slots, written, after⟩ := holds.registerAppend memory.clock payloads
    exact (transact available written after).imp_right fun ⟨next, made, left⟩ => ⟨(), next, made, rfl, left⟩
  | dequeue worker now =>
    obtain ⟨next, popped, after⟩ := holds.popToInflight worker now
    refine .inr ⟨_, next, ?_, rfl, after⟩
    simp only [ListOperation.request, Memory.perform, available]
    exact popped
  | removeInflight worker =>
    obtain ⟨next, popped, after⟩ := holds.popInflight worker
    refine .inr ⟨_, next, ?_, rfl, after⟩
    simp only [ListOperation.request, Memory.perform, available]
    exact popped
  | restoreInflight worker now =>
    obtain ⟨next, restored, after⟩ := holds.restoreInflight worker now
    refine .inr ⟨_, next, ?_, rfl, after⟩
    simp only [ListOperation.request, Memory.perform, available]
    exact restored

end Requests

end JobQueue.Queue
