import JobQueue.Proofs.Keyspace
import JobQueue.Proofs.Queue.Operation
import JobQueue.Proofs.Store.Held
import JobQueue.Proofs.Store.Lasting

/-! # Where queues are kept

The places of queues in a store share no keys, if queues have no colons in their names. Each holds nothing or
what is of its own type, and where payloads are, the queue is registered. No request of an operation changes
that: a write does not apply to a key of another type, and a transaction registers its queue or does nothing
at all.
-/

namespace JobQueue

/-- The type of what a write leaves. -/
def Write.type : Write → KeyType
  | addMember .. => .set
  | append .. | prepend .. => .list
  | schedule .. | unschedule .. => .sortedSet
  | setField .. | dropField .. => .hash

/-- Whether a write only takes away. -/
def Write.removes : Write → Bool
  | unschedule .. | dropField .. => true
  | _ => false

section Writes

variable {write : Write} {held? : Option Entry} {entry : Entry}

theorem type_of_applies (applies : write.apply? held? = some entry) : entry.type = write.type := by
  cases held? with
  | none => cases write <;> cases applies <;> rfl
  | some held => cases write <;> cases held <;> cases applies <;> rfl

/-- A write that only takes away leaves a missing key missing. -/
theorem kept_of_removes (removes : write.removes = true) (applies : write.apply? none = some entry) :
    entry.kept = none := by
  cases write <;> cases removes <;> cases applies <;> rfl

theorem mem_insertMember {member other : String} {members : List String} :
    other ∈ insertMember member members ↔ other = member ∨ other ∈ members := by
  induction members with
  | nil => simp [insertMember]
  | cons head rest ih =>
    rw [insertMember]
    split
    · next same => simp [same]
    split
    · simp
    · rw [List.mem_cons, ih, List.mem_cons]
      exact or_left_comm

/-- A set keeps its members and gets another. -/
theorem set_of_addMember {key member : String}
    (applies : Write.apply? (.addMember key member) held? = some entry) :
    ∃ members, entry = .set members ∧ member ∈ members ∧
      ∀ others, held? = some (.set others) → ∀ other ∈ others, other ∈ members := by
  cases held? with
  | none =>
    cases applies
    exact ⟨_, rfl, List.mem_cons_self .., nofun⟩
  | some held =>
    cases held with
    | set others =>
      cases applies
      refine ⟨_, rfl, mem_insertMember.mpr (.inl rfl), ?_⟩
      rintro _ ⟨⟩ other found
      exact mem_insertMember.mpr (.inr found)
    | _ => contradiction

end Writes

namespace Queue

/-- A queue name without colons. -/
abbrev PlainName := { name : String // ':' ∉ name.toList }

/-- The places of queues in a store. -/
inductive Place where
  | names
  | queue (name : PlainName)
  | recurring (name : PlainName)
  | inflight (worker : String) (name : PlainName)

namespace Place

def key (space : Keyspace) : Place → String
  | names => space.queues
  | queue name => space.queue name
  | recurring name => space.recurring name
  | inflight worker name => space.inflight worker name

/-- What may be found at a place, unless nothing is. -/
def types : Place → List KeyType
  | names => [.set]
  | queue _ => [.list, .sortedSet]
  | recurring _ => [.hash]
  | inflight .. => [.list]

/-- The queue whose payloads are at a place. -/
def queue? : Place → Option PlainName
  | queue name | inflight _ name => some name
  | names | recurring _ => none

/-- No two places share a key. -/
theorem key_inj {space : Keyspace} {place other : Place} (same : place.key space = other.key space) :
    place = other := by
  cases place with
  | names =>
    cases other with
    | names => rfl
    | queue name => exact absurd same (Keyspace.queues_ne_queue _)
    | recurring name => exact absurd same (Keyspace.queues_ne_recurring _)
    | inflight worker name => exact absurd same.symm (Keyspace.inflight_ne_queues _ _)
  | queue name =>
    cases other with
    | names => exact absurd same.symm (Keyspace.queues_ne_queue _)
    | queue other => exact congrArg queue (Subtype.ext (Keyspace.queue_inj.mp same))
    | recurring other => exact absurd same (Keyspace.queue_ne_recurring name.property)
    | inflight worker other => exact absurd same.symm (Keyspace.inflight_ne_queue _ _ _)
  | recurring name =>
    cases other with
    | names => exact absurd same.symm (Keyspace.queues_ne_recurring _)
    | queue other => exact absurd same.symm (Keyspace.queue_ne_recurring other.property)
    | recurring other => exact congrArg recurring (Subtype.ext (Keyspace.recurring_inj.mp same))
    | inflight worker other => exact absurd same.symm (Keyspace.inflight_ne_recurring _ _ _)
  | inflight worker name =>
    cases other with
    | names => exact absurd same (Keyspace.inflight_ne_queues _ _)
    | queue other => exact absurd same (Keyspace.inflight_ne_queue _ _ _)
    | recurring other => exact absurd same (Keyspace.inflight_ne_recurring _ _ _)
    | inflight another other =>
      obtain ⟨rfl, names⟩ := (Keyspace.inflight_eq_inflight name.property other.property).mp same
      exact congrArg _ (Subtype.ext names)

end Place

/-- A queue is among the registered names. -/
def Registered (space : Keyspace) (slots : Slots) (name : PlainName) : Prop :=
  ∃ members, slots.entry? space.queues = some (.set members) ∧ name.val ∈ members

/-- Every place holds nothing or what may be there, and the places of payloads belong to registered queues. -/
structure Layout (space : Keyspace) (slots : Slots) : Prop where
  lasting : slots.Lasting
  typed : ∀ (place : Place) (entry : Entry), slots.entry? (place.key space) = some entry →
    entry.type ∈ place.types
  registered : ∀ (place : Place) (name : PlainName), place.queue? = some name →
    (slots.entry? (place.key space)).isSome → Registered space slots name

/-- A later store has the layout, and no fewer queues are registered. -/
structure Grows (space : Keyspace) (slots next : Slots) : Prop where
  layout : Layout space next
  registered : ∀ name, Registered space slots name → Registered space next name

/-- A write goes to a place of its own type, and what it may create belongs to a registered queue. -/
structure Suits (space : Keyspace) (slots : Slots) (place : Place) (write : Write) : Prop where
  key : write.key = place.key space
  typed : write.type ∈ place.types
  registered : ∀ name, place.queue? = some name → write.removes = true ∨ Registered space slots name

variable {space : Keyspace} {slots next last : Slots} {place : Place} {write : Write} {name : PlainName}

theorem Grows.trans (first : Grows space slots next) (second : Grows space next last) :
    Grows space slots last where
  layout := second.layout
  registered name found := second.registered name (first.registered name found)

theorem Suits.mono (suits : Suits space slots place write) (grows : Grows space slots next) :
    Suits space next place write where
  key := suits.key
  typed := suits.typed
  registered name owned := (suits.registered name owned).imp_right (grows.registered name)

/-- A change of another place leaves the names. -/
theorem Registered.changes (registered : Registered space slots name) (other : place ≠ .names)
    {held? : Option Entry} (changes : slots.Changes (place.key space) held? next) :
    Registered space next name := by
  obtain ⟨members, held, member⟩ := registered
  have differ : Place.names.key space ≠ place.key space := fun same => other (Place.key_inj same).symm
  exact ⟨members, (changes.others _ differ).trans held, member⟩

namespace Layout

theorem nil : Layout space [] := ⟨Slots.lasting_nil, nofun, nofun⟩

theorem grows (layout : Layout space slots) : Grows space slots slots := ⟨layout, fun _ => id⟩

/-- A change of one place. -/
theorem change (layout : Layout space slots) (place : Place) {held? : Option Entry}
    (changes : slots.Changes (place.key space) held? next)
    (typed : ∀ entry, held? = some entry → entry.type ∈ place.types)
    (registered : ∀ name, place.queue? = some name → held?.isSome → Registered space slots name)
    (kept : ∀ name, Registered space slots name → Registered space next name) :
    Grows space slots next where
  registered := kept
  layout := by
    have others (other : Place) (differ : other ≠ place) :
        next.entry? (other.key space) = slots.entry? (other.key space) :=
      changes.others _ fun same => differ (Place.key_inj same)
    refine ⟨changes.lasting, ?_, ?_⟩
    · intro other entry found
      by_cases same : other = place
      · subst same
        exact typed entry (changes.entry.symm.trans found)
      · exact layout.typed other entry ((others other same).symm.trans found)
    · intro other name owned found
      by_cases same : other = place
      · subst same
        exact kept name (registered name owned (changes.entry ▸ found))
      · exact kept name (layout.registered other name owned (others other same ▸ found))

/-- A change of a place of a registered queue, or one that leaves nothing. -/
theorem put (layout : Layout space slots) (place : Place) (other : place ≠ .names) {entry : Entry}
    (typed : entry.type ∈ place.types)
    (registered : ∀ name, place.queue? = some name → entry.kept.isSome → Registered space slots name) :
    Grows space slots (slots.put (place.key space) entry) := by
  have changes := layout.lasting.changes_put (place.key space) entry
  refine layout.change place changes ?_ registered fun _ found => found.changes other changes
  intro left kept
  exact eq_of_kept kept ▸ typed

/-- A queue that is entered into the names is registered. -/
theorem register (layout : Layout space slots) {now : Nat}
    (written : slots.write now (.addMember space.queues name.val) = .ok next) :
    Grows space slots next ∧ Registered space next name := by
  obtain ⟨entry, applies, changes⟩ := layout.lasting.written written
  obtain ⟨members, rfl, member, others⟩ := set_of_addMember applies
  have kept : (Entry.set members).kept = some (.set members) :=
    kept_of_not_isEmpty (List.isEmpty_eq_false_iff.mpr (List.ne_nil_of_mem member))
  rw [kept] at changes
  have entered : Registered space next name := ⟨members, changes.entry, member⟩
  refine ⟨layout.change .names changes ?_ nofun ?_, entered⟩
  · rintro _ ⟨⟩
    exact List.mem_singleton.mpr rfl
  · rintro other ⟨_, held, found⟩
    exact ⟨members, changes.entry, others _ held _ found⟩

/-- A write that suits its place. -/
theorem written (layout : Layout space slots) (suits : Suits space slots place write)
    (other : place ≠ .names) {now : Nat} (written : slots.write now write = .ok next) :
    Grows space slots next := by
  obtain ⟨entry, applies, changes⟩ := layout.lasting.written written
  rw [suits.key] at applies changes
  refine layout.change place changes ?_ ?_ fun _ found => found.changes other changes
  · intro left kept
    rw [← eq_of_kept kept, type_of_applies applies]
    exact suits.typed
  · intro name owned kept
    rcases suits.registered name owned with removes | registered
    · apply layout.registered place name owned
      cases held : slots.entry? (place.key space) with
      | some entry => rfl
      | none =>
        rw [held] at applies
        rw [kept_of_removes removes applies] at kept
        contradiction
    · exact registered

/-- Writes that suit their places, one after the other. -/
theorem writeAll {writes : List Write} (layout : Layout space slots)
    (suit : ∀ write ∈ writes, ∃ place ≠ Place.names, Suits space slots place write) {now : Nat}
    (written : slots.writeAll now writes = .ok next) : Grows space slots next := by
  induction writes generalizing slots with
  | nil =>
    cases written
    exact layout.grows
  | cons write writes ih =>
    obtain ⟨middle, one, rest⟩ := Slots.writeAll_cons written
    obtain ⟨place, other, suits⟩ := suit write (List.mem_cons_self ..)
    have grows := layout.written suits other one
    refine grows.trans (ih grows.layout ?_ rest)
    intro write member
    obtain ⟨place, other, suits⟩ := suit write (List.mem_cons_of_mem _ member)
    exact ⟨place, other, suits.mono grows⟩

/-- A queue is found to be a list or a sorted set, unless it is not there. -/
theorem held_queue (layout : Layout space slots) (name : PlainName) :
    slots.entry? (space.queue name) = none ∨
      (∃ items, slots.entry? (space.queue name) = some (.list items)) ∨
      ∃ scores, slots.entry? (space.queue name) = some (.sortedSet scores) := by
  have typed := layout.typed (.queue name)
  change ∀ entry, slots.entry? (space.queue name) = some entry → _ at typed
  cases held : slots.entry? (space.queue name) with
  | none => exact .inl rfl
  | some entry =>
    cases entry with
    | list items => exact .inr (.inl ⟨items, rfl⟩)
    | sortedSet scores => exact .inr (.inr ⟨scores, rfl⟩)
    | _ => simpa [Place.types, Entry.type] using typed _ held

/-- What a worker has in flight is found to be a list, unless it is not there. -/
theorem held_inflight (layout : Layout space slots) (worker : String) (name : PlainName) :
    slots.entry? (space.inflight worker name) = none ∨
      ∃ items, slots.entry? (space.inflight worker name) = some (.list items) := by
  have typed := layout.typed (.inflight worker name)
  change ∀ entry, slots.entry? (space.inflight worker name) = some entry → _ at typed
  cases held : slots.entry? (space.inflight worker name) with
  | none => exact .inl rfl
  | some entry =>
    cases entry with
    | list items => exact .inr ⟨items, rfl⟩
    | _ => simpa [Place.types, Entry.type] using typed _ held

/-- A payload of a registered queue is put on top of what a worker has in flight. -/
theorem push (layout : Layout space slots) (registered : Registered space slots name) (now : Nat)
    (worker payload : String) :
    ∃ next, slots.write now (.prepend (space.inflight worker name) payload) = .ok next ∧
      Grows space slots next := by
  obtain ⟨entry, applies⟩ : ∃ entry, Write.apply? (.prepend (space.inflight worker name) payload)
      (slots.entry? (space.inflight worker name)) = some entry := by
    rcases layout.held_inflight worker name with held | ⟨items, held⟩ <;> rw [held] <;> exact ⟨_, rfl⟩
  have written := layout.lasting.write_applied applies now
  have suits : Suits space slots (.inflight worker name)
      (.prepend (space.inflight worker name) payload) := by
    refine ⟨rfl, List.mem_singleton.mpr rfl, ?_⟩
    rintro _ ⟨⟩
    exact .inr registered
  exact ⟨_, written, layout.written suits nofun written⟩

/-- A payload of a registered queue is brought back to it. -/
theorem bringBack (layout : Layout space slots) (registered : Registered space slots name) (clock : Nat)
    (payload : String) (now : Int) :
    ∃ next, slots.write clock (slots.returnWrite (space.queue name) payload now) = .ok next ∧
      Grows space slots next := by
  obtain ⟨key, typed, entry, applies⟩ :
      (slots.returnWrite (space.queue name) payload now).key = space.queue name ∧
      (slots.returnWrite (space.queue name) payload now).type ∈ [.list, .sortedSet] ∧
      ∃ entry, Write.apply? (slots.returnWrite (space.queue name) payload now)
        (slots.entry? (space.queue name)) = some entry := by
    unfold Slots.returnWrite
    rcases layout.held_queue name with held | ⟨items, held⟩ | ⟨scores, held⟩ <;> rw [held]
    · exact ⟨rfl, by simp [Write.type], _, rfl⟩
    · exact ⟨rfl, by simp [Write.type], _, rfl⟩
    · exact ⟨rfl, by simp [Write.type], _, rfl⟩
  generalize slots.returnWrite (space.queue name) payload now = write at key typed applies ⊢
  rw [← key] at applies
  have suits : Suits space slots (.queue name) write := by
    refine ⟨key, typed, ?_⟩
    rintro _ ⟨⟩
    exact .inr registered
  have written := layout.lasting.write_applied applies clock
  exact ⟨_, written, layout.written suits nofun written⟩

/-- A queue gives a payload only if it is registered. -/
theorem takeReady (layout : Layout space slots) (worker : String) (name : PlainName) (now : Int) :
    Grows space slots (slots.takeReady (route space worker name) now).2 ∧
      ∀ payload, (slots.takeReady (route space worker name) now).1 = some payload →
        Registered space slots name := by
  have registered {entry : Entry} (held : slots.entry? (space.queue name) = some entry) :
      Registered space slots name :=
    layout.registered (.queue name) name rfl (Option.isSome_iff_exists.mpr ⟨entry, held⟩)
  have left {entry : Entry} (found : Registered space slots name)
      (typed : entry.type ∈ [.list, .sortedSet]) :
      Grows space slots (slots.put (space.queue name) entry) := by
    refine layout.put (.queue name) nofun typed ?_
    rintro _ ⟨⟩ _
    exact found
  unfold Slots.takeReady
  split
  · next scores held =>
    split
    · exact ⟨layout.grows, nofun⟩
    · exact ⟨left (registered held) (by simp [Entry.type]), fun _ _ => registered held⟩
  · next head rest held =>
    exact ⟨left (registered held) (by simp [Entry.type]), fun _ _ => registered held⟩
  · exact ⟨layout.grows, nofun⟩

/-- A worker has payloads in flight only if their queue is registered. -/
theorem takeHead (layout : Layout space slots) (worker : String) (name : PlainName) :
    Grows space slots (slots.takeHead (space.inflight worker name)).2 ∧
      ∀ payload, (slots.takeHead (space.inflight worker name)).1 = some payload →
        Registered space slots name := by
  unfold Slots.takeHead
  split
  · next head rest held =>
    have registered : Registered space slots name :=
      layout.registered (.inflight worker name) name rfl (Option.isSome_iff_exists.mpr ⟨_, held⟩)
    refine ⟨layout.put (.inflight worker name) nofun (List.mem_singleton.mpr rfl) ?_, ?_⟩
    · rintro _ ⟨⟩ _
      exact registered
    · exact fun _ _ => registered
  · exact ⟨layout.grows, nofun⟩

section Requests

variable {memory : Memory}

theorem purge_eq (layout : Layout space memory.slots) (key : String) : memory.purge key = memory := by
  rw [Memory.purge, layout.lasting.purge_eq]

theorem popToInflight (layout : Layout space memory.slots) (worker : String) (name : PlainName) (now : Int) :
    ∃ payload? next, memory.popToInflight (route space worker name) now = (.ok payload?, next) ∧
      Layout space next.slots := by
  obtain ⟨left, registered⟩ := layout.takeReady worker name now
  simp only [Memory.popToInflight, layout.purge_eq]
  cases taken : memory.slots.takeReady (route space worker name) now with
  | mk payload? slots =>
    rw [taken] at left registered
    cases payload? with
    | none => exact ⟨_, _, rfl, left.layout⟩
    | some payload =>
      obtain ⟨next, written, grows⟩ := left.layout.push (left.registered _ (registered payload rfl))
        memory.clock worker payload
      simp only [route, written]
      exact ⟨_, _, rfl, grows.layout⟩

theorem popInflight (layout : Layout space memory.slots) (worker : String) (name : PlainName) :
    ∃ payload? next, memory.popInflight (space.inflight worker name) = (.ok payload?, next) ∧
      Layout space next.slots := by
  have left := (layout.takeHead worker name).1
  simp only [Memory.popInflight, layout.purge_eq, Memory.entry?]
  rcases layout.held_inflight worker name with held | ⟨items, held⟩ <;> rw [held]
  · exact ⟨_, _, rfl, left.layout⟩
  · exact ⟨_, _, rfl, left.layout⟩

theorem restoreInflight (layout : Layout space memory.slots) (worker : String) (name : PlainName)
    (now : Int) :
    ∃ payload? next, memory.restoreInflight (route space worker name) now = (.ok payload?, next) ∧
      Layout space next.slots := by
  obtain ⟨left, registered⟩ := layout.takeHead worker name
  simp only [Memory.restoreInflight, layout.purge_eq, route]
  cases taken : memory.slots.takeHead (space.inflight worker name) with
  | mk payload? slots =>
    rw [taken] at left registered
    cases payload? with
    | none => exact ⟨_, _, rfl, left.layout⟩
    | some payload =>
      simp only []
      split
      · exact ⟨_, _, rfl, left.layout⟩
      · obtain ⟨next, written, grows⟩ := left.layout.bringBack
          (left.registered _ (registered payload rfl)) memory.clock payload now
        simp only [left.layout.lasting.purge_eq, written]
        exact ⟨_, _, rfl, grows.layout⟩

/-- A transaction that registers a queue may write to the places of the queue. -/
theorem registering (layout : Layout space memory.slots) {writes : List Write}
    (suit : ∀ slots, Registered space slots name → ∀ write ∈ writes,
      ∃ place ≠ Place.names, Suits space slots place write) :
    Layout space (memory.perform (.transaction (Queue.registering space name writes))).2.slots := by
  apply Memory.slots_transaction layout
  intro _ _ next written
  obtain ⟨middle, first, rest⟩ := Slots.writeAll_cons written
  obtain ⟨grows, registered⟩ := layout.register first
  exact (grows.layout.writeAll (suit middle registered) rest).layout

end Requests

end Layout

/-- A write to a queue that is registered, or that only takes away. -/
theorem suits_queue (key : write.key = space.queue name) (typed : write.type ∈ [.list, .sortedSet])
    (registered : write.removes = true ∨ Registered space slots name) :
    ∃ place ≠ Place.names, Suits space slots place write := by
  refine ⟨.queue name, nofun, key, typed, ?_⟩
  rintro _ ⟨⟩
  exact registered

/-- A write to the frequencies of a queue. -/
theorem suits_recurring (key : write.key = space.recurring name) (typed : write.type = .hash) :
    ∃ place ≠ Place.names, Suits space slots place write :=
  ⟨.recurring name, nofun, key, List.mem_singleton.mpr typed, nofun⟩

/-- Whether an operation is a worker's. -/
def Operation.isWorkers : Operation → Bool
  | list (.dequeue ..) | list (.removeInflight _) | list (.restoreInflight ..) => true
  | _ => false

section Requests

variable {memory : Memory}

/-- What workers ask is answered if the store can be reached, and leaves the layout. -/
theorem Layout.performWorkers (layout : Layout space memory.slots) (name : PlainName) {operation : Operation}
    (workers : operation.isWorkers = true) :
    Layout space (memory.perform (operation.request space name)).2.slots ∧
      ∀ cause, (memory.perform (operation.request space name)).1 = .error cause → cause = .refused := by
  by_cases unavailable : memory.unavailable = true
  · rw [Memory.perform_unavailable unavailable]
    refine ⟨layout, ?_⟩
    rintro _ ⟨⟩
    rfl
  have available : memory.unavailable = false := eq_false_of_ne_true unavailable
  have answered (payload? : Option String) (cause : StoreError)
      (failed : Except.ok payload? = Except.error cause) : cause = .refused := by contradiction
  cases operation with
  | list operation =>
    cases operation with
    | dequeue worker now =>
      obtain ⟨payload?, next, popped, left⟩ := layout.popToInflight worker name now
      simp only [Operation.request, ListOperation.request, Memory.perform, available]
      exact popped ▸ ⟨left, answered payload?⟩
    | removeInflight worker =>
      obtain ⟨payload?, next, popped, left⟩ := layout.popInflight worker name
      simp only [Operation.request, ListOperation.request, Memory.perform, available]
      exact popped ▸ ⟨left, answered payload?⟩
    | restoreInflight worker now =>
      obtain ⟨payload?, next, restored, left⟩ := layout.restoreInflight worker name now
      simp only [Operation.request, ListOperation.request, Memory.perform, available]
      exact restored ▸ ⟨left, answered payload?⟩
    | enqueue | enqueueFirst | enqueueAll => contradiction
  | enqueueDelayed | removeDelayed | enqueueRecurring | removeRecurring => contradiction

/-- The one request of an operation that may write leaves the layout. -/
theorem Layout.perform (layout : Layout space memory.slots) (name : PlainName) (operation : Operation) :
    Layout space (memory.perform (operation.request space name)).2.slots := by
  cases workers : operation.isWorkers with
  | true => exact (layout.performWorkers name workers).1
  | false =>
    cases operation with
    | list operation =>
      cases operation with
      | enqueue payload | enqueueFirst payload =>
        refine layout.registering fun slots registered => List.forall_mem_singleton.mpr ?_
        exact suits_queue rfl (by simp [Write.type]) (.inr registered)
      | enqueueAll payloads =>
        refine layout.registering fun slots registered => List.forall_mem_map.mpr fun payload _ => ?_
        exact suits_queue rfl (by simp [Write.type]) (.inr registered)
      | dequeue | removeInflight | restoreInflight => contradiction
    | enqueueDelayed payload readyAt =>
      refine layout.registering fun slots registered => List.forall_mem_singleton.mpr ?_
      exact suits_queue rfl (by simp [Write.type]) (.inr registered)
    | removeDelayed payload =>
      refine Memory.slots_transaction layout fun _ _ next written => (layout.writeAll ?_ written).layout
      exact List.forall_mem_singleton.mpr (suits_queue rfl (by simp [Write.type]) (.inl rfl))
    | enqueueRecurring payload nextFire frequency =>
      refine layout.registering fun slots registered => List.forall_mem_cons.mpr ⟨?_, ?_⟩
      · exact suits_queue rfl (by simp [Write.type]) (.inr registered)
      · exact List.forall_mem_singleton.mpr (suits_recurring rfl rfl)
    | removeRecurring payload =>
      refine Memory.slots_transaction layout fun _ _ next written => (layout.writeAll ?_ written).layout
      refine List.forall_mem_cons.mpr ⟨suits_recurring rfl rfl, ?_⟩
      exact List.forall_mem_singleton.mpr (suits_queue rfl (by simp [Write.type]) (.inl rfl))

end Requests

end Queue

end JobQueue
