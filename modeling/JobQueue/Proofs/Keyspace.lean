import JobQueue.Keyspace

/-! # Keys that are the same

What stands behind the namespace decides, and it is always a name that a lock could have. A queue, its
companion, the jobs in flight of each worker and the set of queue names never share a key, whatever the names
of the namespace, the queue and the worker. Colons within names can make the queue of one name the companion
of another, shift the border between a worker and its queue, or give a lock the key of any of these; nothing
else makes two keys the same. If the names of queues have no colons, no two of their places share a key.
-/

namespace JobQueue.Keyspace

variable {space : Keyspace}

/-! ## What stands behind the namespace -/

theorem lock_inj {name other : String} : space.lock name = space.lock other ↔ name = other := by
  simp [lock, key, join]

/-- A key with parts is one that a lock may have. -/
theorem key_eq_lock (part : String) (parts : List String) :
    space.key (part :: parts) = space.lock (":".intercalate (part :: parts)) := by
  simp [lock, key, join, String.append_assoc]

theorem queues_eq_lock : space.queues = space.lock "queues" := rfl

theorem queue_eq_lock (name : String) : space.queue name = space.lock ("queue:" ++ name) := by
  rw [queue, key_eq_lock, String.intercalate_cons_cons, String.intercalate_singleton]
  rfl

theorem companion_lock (name : String) : companion (space.lock name) = space.lock (name ++ ":recurring") := by
  simp [companion, lock, key, join, String.append_assoc]

theorem recurring_eq_lock (name : String) :
    space.recurring name = space.lock ("queue:" ++ name ++ ":recurring") := by
  rw [recurring, queue_eq_lock, companion_lock]

theorem inflight_eq_lock (worker name : String) :
    space.inflight worker name = space.lock ("inflight:" ++ (worker ++ ":" ++ name)) := by
  rw [inflight, key_eq_lock]
  simp [String.append_assoc]

theorem lock_ne_lock {name other : String} (differ : name.toList ≠ other.toList) :
    space.lock name ≠ space.lock other :=
  fun same => differ (congrArg String.toList (lock_inj.mp same))

/-! ## Queues -/

theorem queues_ne_queue (name : String) : space.queues ≠ space.queue name := by
  rw [queues_eq_lock, queue_eq_lock]
  exact lock_ne_lock (by simp)

theorem recurring_ne_queue (name : String) : space.recurring name ≠ space.queue name := by
  rw [recurring_eq_lock, queue_eq_lock]
  exact lock_ne_lock (by simp)

theorem queues_ne_recurring (name : String) : space.queues ≠ space.recurring name := by
  rw [queues_eq_lock, recurring_eq_lock]
  exact lock_ne_lock (by simp)

theorem queue_inj {name other : String} : space.queue name = space.queue other ↔ name = other := by
  rw [queue_eq_lock, queue_eq_lock, lock_inj, String.append_right_inj]

theorem recurring_inj {name other : String} :
    space.recurring name = space.recurring other ↔ name = other := by
  rw [recurring_eq_lock, recurring_eq_lock, lock_inj, String.append_left_inj, String.append_right_inj]

/-- The queue of one name is the companion of another only if it is called so. -/
theorem queue_eq_recurring {name other : String} :
    space.queue name = space.recurring other ↔ name = other ++ ":recurring" := by
  rw [queue_eq_lock, recurring_eq_lock, lock_inj, String.append_assoc, String.append_right_inj]

theorem queue_ne_recurring {name other : String} (plain : ':' ∉ name.toList) :
    space.queue name ≠ space.recurring other := by
  rw [ne_eq, queue_eq_recurring]
  rintro rfl
  simp at plain

/-! ## Jobs in flight -/

theorem inflight_ne_queues (worker name : String) : space.inflight worker name ≠ space.queues := by
  rw [inflight_eq_lock, queues_eq_lock]
  exact lock_ne_lock (by simp)

theorem inflight_ne_queue (worker name other : String) : space.inflight worker name ≠ space.queue other := by
  rw [inflight_eq_lock, queue_eq_lock]
  exact lock_ne_lock (by simp)

theorem inflight_ne_recurring (worker name other : String) :
    space.inflight worker name ≠ space.recurring other := by
  rw [inflight_eq_lock, recurring_eq_lock]
  exact lock_ne_lock (by simp)

/-- The key does not show where the worker ends and the queue begins. -/
theorem inflight_eq_iff {worker other name queue : String} :
    space.inflight worker name = space.inflight other queue ↔
      worker ++ ":" ++ name = other ++ ":" ++ queue := by
  rw [inflight_eq_lock, inflight_eq_lock, lock_inj, String.append_right_inj]

/-- The workers of one queue have keys of their own. -/
theorem inflight_inj {worker other name : String} :
    space.inflight worker name = space.inflight other name ↔ worker = other := by
  rw [inflight_eq_iff, String.append_left_inj, String.append_left_inj]

/-- The last colon of a text decides where it is parted. -/
theorem append_colon_inj {first second one other : List Char} (plain : ':' ∉ first)
    (plainOther : ':' ∉ second) (same : one ++ ':' :: first = other ++ ':' :: second) :
    one = other ∧ first = second := by
  rcases List.append_eq_append_iff.mp same with ⟨between, rfl, rest⟩ | ⟨between, rfl, rest⟩
  · cases between with
    | nil => exact ⟨(List.append_nil _).symm, List.cons.inj rest |>.2⟩
    | cons head tail =>
      obtain ⟨-, rfl⟩ := List.cons.inj rest
      simp at plain
  · cases between with
    | nil => exact ⟨List.append_nil _, (List.cons.inj rest).2.symm⟩
    | cons head tail =>
      obtain ⟨-, rfl⟩ := List.cons.inj rest
      simp at plainOther

/-- Queues without colons in their names begin behind the last colon. -/
theorem parted_inj {worker other name queue : String} (plain : ':' ∉ name.toList)
    (plainOther : ':' ∉ queue.toList) :
    worker ++ ":" ++ name = other ++ ":" ++ queue ↔ worker = other ∧ name = queue := by
  constructor
  · intro same
    have lists := congrArg String.toList same
    simp only [String.toList_append, List.append_assoc] at lists
    obtain ⟨workers, names⟩ := append_colon_inj plain plainOther lists
    exact ⟨String.toList_inj.mp workers, String.toList_inj.mp names⟩
  · rintro ⟨rfl, rfl⟩
    rfl

/-- The jobs in flight of one worker and queue are no others', if queues have no colons in their names. -/
theorem inflight_eq_inflight {worker other name queue : String} (plain : ':' ∉ name.toList)
    (plainOther : ':' ∉ queue.toList) :
    space.inflight worker name = space.inflight other queue ↔ worker = other ∧ name = queue :=
  inflight_eq_iff.trans (parted_inj plain plainOther)

/-! ## All keys of a keyspace

Locks and channels have keys of a single part, which may be any text, so that nothing keeps them from the keys
of queues but how they are called.
-/

/-- Which names give a key of a single part to something else. -/
structure SinglePart (space : Keyspace) (keyOf : String → String) : Prop where
  own : ∀ name other, keyOf name = keyOf other ↔ name = other
  queues : ∀ name, keyOf name = space.queues ↔ name = "queues"
  queue : ∀ name queue, keyOf name = space.queue queue ↔ name = "queue:" ++ queue
  recurring : ∀ name queue, keyOf name = space.recurring queue ↔ name = "queue:" ++ queue ++ ":recurring"
  inflight : ∀ name worker queue,
    keyOf name = space.inflight worker queue ↔ name = "inflight:" ++ worker ++ ":" ++ queue

/-- Which names give one key to two things. -/
structure Collisions (space : Keyspace) : Prop where
  queue : ∀ name other, space.queue name = space.queue other ↔ name = other
  recurring : ∀ name other, space.recurring name = space.recurring other ↔ name = other
  companion : ∀ name other, space.queue name = space.recurring other ↔ name = other ++ ":recurring"
  inflight : ∀ worker name other queue, space.inflight worker name = space.inflight other queue ↔
    worker ++ ":" ++ name = other ++ ":" ++ queue
  plain : ∀ worker name other queue, ':' ∉ name.toList → ':' ∉ queue.toList →
    (worker ++ ":" ++ name = other ++ ":" ++ queue ↔ worker = other ∧ name = queue)
  queues_apart : ∀ worker name,
    space.queues ≠ space.queue name ∧ space.queues ≠ space.recurring name ∧
      space.queues ≠ space.inflight worker name
  inflight_apart : ∀ worker name other,
    space.queue other ≠ space.inflight worker name ∧ space.recurring other ≠ space.inflight worker name
  lock : space.SinglePart space.lock
  channel : space.SinglePart space.channel
  lock_channel : ∀ name other, space.lock name = space.channel other ↔ name = other

theorem singlePart_lock (space : Keyspace) : space.SinglePart space.lock where
  own _ _ := lock_inj
  queues _ := lock_inj
  queue name queue := by rw [queue_eq_lock, lock_inj]
  recurring name queue := by rw [recurring_eq_lock, lock_inj]
  inflight name worker queue := by
    rw [inflight_eq_lock, lock_inj, String.append_assoc, String.append_assoc, String.append_assoc]

/-- Whatever the namespace: two things share a key just if what their names add to it is the same text. -/
theorem collides_exactly (space : Keyspace) : space.Collisions where
  queue _ _ := queue_inj
  recurring _ _ := recurring_inj
  companion _ _ := queue_eq_recurring
  inflight _ _ _ _ := inflight_eq_iff
  plain _ _ _ _ := parted_inj
  queues_apart worker name :=
    ⟨queues_ne_queue name, queues_ne_recurring name, (inflight_ne_queues worker name).symm⟩
  inflight_apart worker name other :=
    ⟨(inflight_ne_queue worker name other).symm, (inflight_ne_recurring worker name other).symm⟩
  lock := space.singlePart_lock
  -- A channel has just the key that a lock of its name has.
  channel := space.singlePart_lock
  lock_channel _ _ := lock_inj

/-- Workers of one host are told apart, as long as no queue has a colon in its name. -/
theorem collides_exactly_host :
    ':' ∉ "mail".toList ∧
      Keyspace.inflight ⟨"app"⟩ "host:1" "mail" ≠ Keyspace.inflight ⟨"app"⟩ "host:2" "mail" ∧
      Keyspace.inflight ⟨"app"⟩ "host:1" "mail" = Keyspace.inflight ⟨"app"⟩ "host" "1:mail" := by
  have collisions := collides_exactly ⟨"app"⟩
  have plain : ':' ∉ "mail".toList := by decide
  refine ⟨plain, ?_, (collisions.inflight _ _ _ _).mpr rfl⟩
  rw [ne_eq, collisions.inflight, collisions.plain _ _ _ _ plain plain]
  decide

end JobQueue.Keyspace
