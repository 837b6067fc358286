import Mathlib.Logic.Function.Basic
import JobQueue.Proofs.Interleaving
import JobQueue.Proofs.Keyspace
import JobQueue.Proofs.Queue.Operation
import JobQueue.Proofs.Store.Lasting

/-! # A queue without frequencies in a store

A store in which nothing expires holds something at the key of a queue, nothing at its companion, and in a
list for each worker what the worker has in flight. What writes to one of these places leaves the others.
-/

namespace JobQueue

/-- A transaction whose writes apply is made, unless it is to be discarded. -/
theorem Memory.transact {property : Slots → Prop} {memory : Memory} (available : memory.unavailable = false)
    {writes : List Write} {slots : Slots} (written : memory.slots.writeAll memory.clock writes = .ok slots)
    (after : property slots) :
    (∃ cause next, memory.Arranged cause ∧ memory.perform (.transaction writes) = (.error cause, next) ∧
      next.slots = memory.slots) ∨
    ∃ next, memory.perform (.transaction writes) = (.ok (), next) ∧ property next.slots := by
  simp only [Memory.perform, available, Memory.transaction, written]
  cases ordered : memory.discardNext with
  | true => exact .inl ⟨.discarded, _, ordered, rfl, rfl⟩
  | false => exact .inr ⟨_, rfl, after⟩

namespace Queue

open Function (update update_self update_of_ne update_eq_self)

/-- A store holds something at the key of a queue, and what workers have in flight. -/
structure Stores (space : Keyspace) (queue : String) (slots : Slots) (held? : Option Entry)
    (inflight : String → List String) : Prop where
  lasting : slots.Lasting
  content : slots.entry? (space.queue queue) = held?
  companion : slots.entry? (space.recurring queue) = none
  inflight : ∀ worker, slots.entry? (space.inflight worker queue) = listed (inflight worker)
  names : slots.entry? space.queues = none ∨ ∃ members, slots.entry? space.queues = some (.set members)

namespace Stores

variable {space : Keyspace} {queue : String} {slots next : Slots} {held? : Option Entry}
  {inflight : String → List String}

/-- An empty store holds nothing. -/
theorem nil : Stores space queue [] none fun _ => [] := ⟨Slots.lasting_nil, rfl, rfl, fun _ => rfl, .inl rfl⟩

/-- A change of what is at the key of the queue. -/
theorem setQueue (stores : Stores space queue slots held? inflight) {later? : Option Entry}
    (changes : slots.Changes (space.queue queue) later? next) : Stores space queue next later? inflight where
  lasting := changes.lasting
  content := changes.entry
  companion := (changes.others _ (Keyspace.recurring_ne_queue _)).trans stores.companion
  inflight worker := (changes.others _ (Keyspace.inflight_ne_queue _ _ _)).trans (stores.inflight worker)
  names := by
    rw [changes.others _ (Keyspace.queues_ne_queue _)]
    exact stores.names

/-- A change of what a worker has in flight. -/
theorem setInflight (stores : Stores space queue slots held? inflight) {worker : String} {stack : List String}
    (changes : slots.Changes (space.inflight worker queue) (listed stack) next) :
    Stores space queue next held? (update inflight worker stack) where
  lasting := changes.lasting
  content := (changes.others _ (Keyspace.inflight_ne_queue _ _ _).symm).trans stores.content
  companion := (changes.others _ (Keyspace.inflight_ne_recurring _ _ _).symm).trans stores.companion
  inflight other := by
    by_cases same : other = worker
    · subst same
      rw [update_self]
      exact changes.entry
    · rw [update_of_ne same, changes.others _ fun equal => same (Keyspace.inflight_inj.mp equal)]
      exact stores.inflight other
  names := by
    rw [changes.others _ (Keyspace.inflight_ne_queues _ _).symm]
    exact stores.names

/-- A change of the set of queue names. -/
theorem setNames (stores : Stores space queue slots held? inflight) {members : List String}
    (changes : slots.Changes space.queues (Entry.set members).kept next) :
    Stores space queue next held? inflight where
  lasting := changes.lasting
  content := (changes.others _ (Keyspace.queues_ne_queue _).symm).trans stores.content
  companion := (changes.others _ (Keyspace.queues_ne_recurring _).symm).trans stores.companion
  inflight worker := (changes.others _ (Keyspace.inflight_ne_queues _ _)).trans (stores.inflight worker)
  names := by
    rw [changes.entry]
    cases members with
    | nil => exact .inl rfl
    | cons head rest => exact .inr ⟨_, rfl⟩

/-- The name of a queue enters the set of names. -/
theorem register (stores : Stores space queue slots held? inflight) (now : Nat) :
    ∃ next, slots.write now (.addMember space.queues queue) = .ok next ∧
      Stores space queue next held? inflight := by
  obtain ⟨members, next, written, changes⟩ := stores.lasting.addMember stores.names queue
  exact ⟨next, written now, stores.setNames changes⟩

/-- A write that applies to what is at the key of the queue. -/
theorem write (stores : Stores space queue slots held? inflight) {write : Write} {entry : Entry}
    (key : write.key = space.queue queue) (applies : write.apply? held? = some entry) (now : Nat) :
    ∃ next, slots.write now write = .ok next ∧ Stores space queue next entry.kept inflight := by
  rw [← stores.content, ← key] at applies
  refine ⟨_, stores.lasting.write_applied applies now, ?_⟩
  rw [key]
  exact stores.setQueue (stores.lasting.changes_put _ _)

/-- A payload goes on top of what a worker has in flight. -/
theorem push (stores : Stores space queue slots held? inflight) (now : Nat) (worker payload : String) :
    ∃ next, slots.write now (.prepend (space.inflight worker queue) payload) = .ok next ∧
      Stores space queue next held? (update inflight worker (payload :: inflight worker)) := by
  refine ⟨_, stores.lasting.write_applied ?_ now, stores.setInflight (stores.lasting.changes_put _ _)⟩
  change Write.apply? _ (slots.entry? (space.inflight worker queue)) = _
  rw [stores.inflight, apply?_prepend]

section Requests

variable {memory : Memory}

theorem purge_eq (stores : Stores space queue memory.slots held? inflight) (key : String) :
    memory.purge key = memory := by
  rw [Memory.purge, stores.lasting.purge_eq]

/-- A look at the type of the queue finds the type of what is there. -/
theorem perform_keyType (stores : Stores space queue memory.slots held? inflight) :
    memory.Arranged .refused ∧ memory.perform (.keyType (space.queue queue)) = (.error .refused, memory) ∨
      memory.perform (.keyType (space.queue queue)) =
        (.ok ((held?.map Entry.type).getD .absent), memory) := by
  by_cases unavailable : memory.unavailable = true
  · exact .inl ⟨unavailable, Memory.perform_unavailable unavailable _⟩
  · refine .inr ?_
    rw [Memory.perform_keyType stores.lasting (eq_false_of_ne_true unavailable), Memory.entry?,
      stores.content]

/-- A worker forgets the top of what it has in flight. -/
theorem popInflight (stores : Stores space queue memory.slots held? inflight) (worker : String) :
    ∃ next, memory.popInflight (space.inflight worker queue) = (.ok (inflight worker).head?, next) ∧
      Stores space queue next.slots held? (update inflight worker (inflight worker).tail) := by
  unfold Memory.popInflight
  rw [stores.purge_eq]
  have held := stores.inflight worker
  cases stack : inflight worker with
  | nil =>
    rw [stack] at held
    simp only [Memory.entry?, held, listed_nil, Slots.takeHead_none held]
    refine ⟨_, rfl, ?_⟩
    rw [List.tail_nil, ← stack, update_eq_self]
    exact stores
  | cons head rest =>
    rw [stack] at held
    obtain ⟨next, taken, changes⟩ := stores.lasting.takeHead_listed held
    simp only [Memory.entry?, held, listed_cons, taken]
    exact ⟨_, rfl, stores.setInflight changes⟩

end Requests

end Stores

/-! ## A queue that is a sorted set, or nothing when it has run empty -/

theorem apply?_schedule (key payload : String) (score : Binary64) (scores : Dict Binary64) :
    Write.apply? (.schedule key score payload) (Entry.sortedSet scores).kept =
      some (.sortedSet (Dict.insert scores payload score)) := by
  cases scores <;> rfl

theorem apply?_unschedule (key payload : String) (scores : Dict Binary64) :
    Write.apply? (.unschedule key payload) (Entry.sortedSet scores).kept =
      some (.sortedSet (Dict.erase scores payload)) := by
  cases scores <;> rfl

namespace Stores

variable {space : Keyspace} {queue : String} {slots : Slots} {scores : Dict Binary64}
  {inflight : String → List String}

/-- The writes of a payload that is scheduled. -/
theorem writeAll_schedule (stores : Stores space queue slots (Entry.sortedSet scores).kept inflight)
    (now : Nat) (payload : String) (score : Binary64) :
    ∃ next, slots.writeAll now (registering space queue [.schedule (space.queue queue) score payload]) =
        .ok next ∧
      Stores space queue next (Entry.sortedSet (Dict.insert scores payload score)).kept inflight := by
  obtain ⟨middle, registered, left⟩ := stores.register now
  obtain ⟨next, written, after⟩ :=
    left.write rfl (apply?_schedule (space.queue queue) payload score scores) now
  refine ⟨next, ?_, after⟩
  simp only [registering, Slots.writeAll, registered, written]

/-- The write of a payload that is cancelled. -/
theorem writeAll_cancel (stores : Stores space queue slots (Entry.sortedSet scores).kept inflight) (now : Nat)
    (payload : String) :
    ∃ next, slots.writeAll now [.unschedule (space.queue queue) payload] = .ok next ∧
      Stores space queue next (Entry.sortedSet (Dict.erase scores payload)).kept inflight := by
  obtain ⟨next, written, after⟩ := stores.write rfl (apply?_unschedule (space.queue queue) payload scores) now
  refine ⟨next, ?_, after⟩
  simp only [Slots.writeAll, written]

/-- A queue gives what its schedule gives first. -/
theorem takeReady (stores : Stores space queue slots (Entry.sortedSet scores).kept inflight) (worker : String)
    (now : Int) :
    slots.takeReady (route space worker queue) now =
      match Schedule.firstUpTo (Binary64.ofInt now) scores with
      | none => (none, slots)
      | some (payload, _) =>
        (some payload, slots.put (space.queue queue) (.sortedSet (Dict.erase scores payload))) := by
  have once (payload : String) : slots.frequency? (space.recurring queue) payload = none := by
    rw [Slots.frequency?, stores.companion]
  unfold Slots.takeReady
  rw [route, stores.content]
  cases scores with
  | nil => rfl
  | cons entry rest =>
    simp only [Entry.kept, Entry.isEmpty, List.isEmpty_cons, once]
    rfl

/-- What the schedule gives first goes on top of what a worker has in flight. -/
theorem popToInflight {memory : Memory}
    (stores : Stores space queue memory.slots (Entry.sortedSet scores).kept inflight) (worker : String)
    (now : Int) :
    ∃ next, match Schedule.firstUpTo (Binary64.ofInt now) scores with
      | none => memory.popToInflight (route space worker queue) now = (.ok none, next) ∧
        Stores space queue next.slots (Entry.sortedSet scores).kept inflight
      | some (payload, _) =>
          memory.popToInflight (route space worker queue) now = (.ok (some payload), next) ∧
        Stores space queue next.slots (Entry.sortedSet (Dict.erase scores payload)).kept
          (update inflight worker (payload :: inflight worker)) := by
  simp only [Memory.popToInflight, stores.purge_eq, stores.takeReady]
  cases Schedule.firstUpTo (Binary64.ofInt now) scores with
  | none => exact ⟨memory, rfl, stores⟩
  | some entry =>
    obtain ⟨payload, score⟩ := entry
    have taken := stores.setQueue
      (stores.lasting.changes_put (space.queue queue) (.sortedSet (Dict.erase scores payload)))
    obtain ⟨next, written, pushed⟩ := taken.push memory.clock worker payload
    simp only [route, written]
    exact ⟨_, rfl, pushed⟩

end Stores

end Queue

end JobQueue
