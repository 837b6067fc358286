import JobQueue.Proofs.Binary64.Read
import JobQueue.Proofs.Keyspace
import JobQueue.Proofs.Queue.Frequencies
import JobQueue.Proofs.Queue.Operation
import JobQueue.Proofs.Store.Held
import JobQueue.Task.Run

/-! # A queue and its companion

A queue and its companion are coupled while the companion holds frequencies of members of the queue. Each
request of an operation on the queue keeps them so, except the one that takes a payload out of the schedule
and leaves its frequency.
-/

namespace JobQueue.Queue

/-- Whenever a queue has a companion, the queue is a sorted set, and every payload that has a frequency is a
member of it. -/
def Coupled (space : Keyspace) (queue : String) (slots : Slots) : Prop :=
  ∀ entry, slots.entry? (space.recurring queue) = some entry → ∃ frequencies scores,
    entry = .hash frequencies ∧ slots.entry? (space.queue queue) = some (.sortedSet scores) ∧
      ∀ payload, bound frequencies payload → bound scores payload

/-- A store in which nothing expires, and where a queue and its frequencies fit. -/
structure Sound (space : Keyspace) (queue : String) (slots : Slots) : Prop where
  lasting : slots.Lasting
  fits : Fits (slots.entry? (space.queue queue)) (slots.entry? (space.recurring queue))

/-- The writes of operations on a queue that keep the queue and its frequencies together. -/
inductive Keeps (space : Keyspace) (queue : String) (slots : Slots) : Write → Prop
  | register : Keeps space queue slots (.addMember space.queues queue)
  | append (payload : String) : Keeps space queue slots (.append (space.queue queue) payload)
  | prepend (payload : String) : Keeps space queue slots (.prepend (space.queue queue) payload)
  | flight (worker payload : String) :
    Keeps space queue slots (.prepend (space.inflight worker queue) payload)
  | schedule (score : Binary64) (payload : String) :
    Keeps space queue slots (.schedule (space.queue queue) score payload)
  /-- The payload has no frequency. -/
  | unschedule (payload : String) (once : slots.isRecurring (space.recurring queue) payload = false) :
    Keeps space queue slots (.unschedule (space.queue queue) payload)
  /-- The payload is scheduled. -/
  | setField (payload text : String) {scores : Dict Binary64}
    (held : slots.entry? (space.queue queue) = some (.sortedSet scores)) (scheduled : bound scores payload)
    (spelled : (Binary64.ofText? text).isSome) :
    Keeps space queue slots (.setField (space.recurring queue) payload text)
  | dropField (payload : String) : Keeps space queue slots (.dropField (space.recurring queue) payload)

/-- Whether an operation takes a payload out of the schedule and leaves its frequency, the store permitting. -/
def Operation.Severs (space : Keyspace) (queue : String) (memory : Memory) : Operation → Prop
  | removeDelayed payload => memory.unavailable = false ∧ memory.discardNext = false ∧
      memory.slots.isRecurring (space.recurring queue) payload = true
  | _ => False

/-- A payload is scheduled, or it is in the list of a simple queue. -/
def Waits (space : Keyspace) (queue : String) (slots : Slots) (payload : String) : Prop :=
  (∃ scores, slots.entry? (space.queue queue) = some (.sortedSet scores) ∧ bound scores payload) ∨
    ∃ items, slots.entry? (space.queue queue) = some (.list items) ∧ payload ∈ items

theorem isRecurring_eq_false_iff {slots : Slots} {key payload : String} :
    slots.isRecurring key payload = false ↔
      ∀ frequencies, slots.entry? key = some (.hash frequencies) → ¬ bound frequencies payload := by
  unfold Slots.isRecurring
  split
  · next fields held => simp [held, bound]
  · next other => simpa using fun frequencies held => absurd held (other frequencies)

namespace Sound

variable {space : Keyspace} {queue : String} {slots next : Slots}

theorem coupled (sound : Sound space queue slots) : Coupled space queue slots := by
  intro entry found
  obtain ⟨-, fits⟩ := sound
  rw [found] at fits
  generalize slots.entry? (space.queue queue) = queue? at fits ⊢
  cases fits with
  | recurring filled schedules => exact ⟨_, _, rfl, rfl, schedules.scheduled⟩

/-- A change of neither key. -/
theorem setOther (sound : Sound space queue slots) {key : String} {held? : Option Entry}
    (changes : slots.Changes key held? next) (notQueue : space.queue queue ≠ key)
    (notCompanion : space.recurring queue ≠ key) : Sound space queue next where
  lasting := changes.lasting
  fits := by
    rw [changes.others _ notQueue, changes.others _ notCompanion]
    exact sound.fits

theorem setQueue {held? : Option Entry} (changes : slots.Changes (space.queue queue) held? next)
    (fits : Fits held? (slots.entry? (space.recurring queue))) : Sound space queue next where
  lasting := changes.lasting
  fits := by
    rw [changes.entry, changes.others _ (Keyspace.recurring_ne_queue _)]
    exact fits

theorem setCompanion {held? : Option Entry} (changes : slots.Changes (space.recurring queue) held? next)
    (fits : Fits (slots.entry? (space.queue queue)) held?) : Sound space queue next where
  lasting := changes.lasting
  fits := by
    rw [changes.entry, changes.others _ (Keyspace.recurring_ne_queue _).symm]
    exact fits

/-- Writes that keep a queue and its frequencies together leave a sound store. -/
theorem write (sound : Sound space queue slots) {write : Write} (keeps : Keeps space queue slots write)
    {now : Nat} (written : slots.write now write = .ok next) : Sound space queue next := by
  obtain ⟨entry, applies, changes⟩ := sound.lasting.written written
  obtain ⟨lasting, fits⟩ := sound
  cases keeps with
  | register =>
    exact setOther ⟨lasting, fits⟩ changes (Keyspace.queues_ne_queue _).symm
      (Keyspace.queues_ne_recurring _).symm
  | flight worker payload =>
    exact setOther ⟨lasting, fits⟩ changes (Keyspace.inflight_ne_queue _ _ _).symm
      (Keyspace.inflight_ne_recurring _ _ _).symm
  | append payload | prepend payload =>
    refine setQueue changes (fits.other ?_ _)
    intro scores same
    change Write.apply? _ (slots.entry? (space.queue queue)) = _ at applies
    rw [same] at applies
    contradiction
  | schedule score payload => exact setQueue changes (fits.schedule applies)
  | unschedule payload once =>
    exact setQueue changes (fits.unschedule (isRecurring_eq_false_iff.mp once) applies)
  | setField payload text held scheduled spelled =>
    exact setCompanion changes (fits.setField held scheduled spelled applies)
  | dropField payload => exact setCompanion changes (fits.dropField applies)

/-- Writes that keep a queue and its frequencies together, whatever is written before them. -/
theorem writeAll (sound : Sound space queue slots) {writes : List Write}
    (keep : ∀ write ∈ writes, ∀ slots, Keeps space queue slots write) {now : Nat}
    (written : slots.writeAll now writes = .ok next) : Sound space queue next := by
  induction writes generalizing slots with
  | nil =>
    cases written
    exact sound
  | cons write writes ih =>
    obtain ⟨middle, first, rest⟩ := Slots.writeAll_cons written
    have after := sound.write (keep write (List.mem_cons_self ..) slots) first
    exact ih after (fun other member => keep other (List.mem_cons_of_mem _ member)) rest

/-- The writes of a payload that is to come again: its schedule, then its frequency. -/
theorem writeAll_recurring (sound : Sound space queue slots) {payload : String} {score : Binary64}
    {frequency now : Nat}
    (written : slots.writeAll now (registering space queue [.schedule (space.queue queue) score payload,
      .setField (space.recurring queue) payload (String.ofList (Text.integer frequency))]) = .ok next) :
    Sound space queue next := by
  obtain ⟨first, registered, written⟩ := Slots.writeAll_cons written
  obtain ⟨second, scheduled, written⟩ := Slots.writeAll_cons written
  obtain ⟨third, repeated, written⟩ := Slots.writeAll_cons written
  cases written
  have one := sound.write .register registered
  have two := one.write (.schedule _ _) scheduled
  obtain ⟨entry, applies, changes⟩ := one.lasting.written scheduled
  obtain ⟨scores, rfl, member⟩ := bound_of_schedule applies
  have held := changes.entry.trans (kept_of_bound member)
  exact two.write (.setField _ _ held member (Binary64.isSome_ofText?_integer _)) repeated

/-- A recurring payload is stopped before it is taken out of the schedule. -/
theorem writeAll_stop (sound : Sound space queue slots) {payload : String} {now : Nat}
    (written : slots.writeAll now [.dropField (space.recurring queue) payload,
      .unschedule (space.queue queue) payload] = .ok next) : Sound space queue next := by
  obtain ⟨first, dropped, written⟩ := Slots.writeAll_cons written
  obtain ⟨second, unscheduled, written⟩ := Slots.writeAll_cons written
  cases written
  have one := sound.write (.dropField _) dropped
  obtain ⟨entry, applies, changes⟩ := sound.lasting.written dropped
  have once : first.isRecurring (space.recurring queue) payload = false :=
    isRecurring_eq_false_iff.mpr fun frequencies held =>
      not_bound_of_dropField applies frequencies (changes.entry.symm.trans held)
  exact one.write (.unschedule _ once) unscheduled

/-- Taking a payload that is ready leaves it scheduled if it has a frequency. -/
theorem takeReady (sound : Sound space queue slots) (worker : String) (now : Int) :
    Sound space queue (slots.takeReady (route space worker queue) now).2 := by
  obtain ⟨lasting, fits⟩ := sound
  unfold Slots.takeReady
  split
  · next scores held =>
    split
    · exact ⟨lasting, fits⟩
    · next member _ _ =>
      refine setQueue (lasting.changes_put _ _) ?_
      change slots.entry? (space.queue queue) = _ at held
      rw [held] at fits
      apply fits.taken
      intro frequencies same
      change slots.frequency? (space.recurring queue) _ = _
      rw [Slots.frequency?, same]
  · next head rest held =>
    refine setQueue (lasting.changes_put _ _) (fits.other ?_ _)
    intro scores same
    cases held.symm.trans same
  · exact ⟨lasting, fits⟩

/-- What a worker has in flight does not matter to the queue. -/
theorem takeHead (sound : Sound space queue slots) (worker : String) :
    Sound space queue (slots.takeHead (space.inflight worker queue)).2 := by
  unfold Slots.takeHead
  split
  · exact sound.setOther (sound.lasting.changes_put _ _) (Keyspace.inflight_ne_queue _ _ _).symm
      (Keyspace.inflight_ne_recurring _ _ _).symm
  · exact sound

/-- The write that brings a payload back keeps a queue and its frequencies together. -/
theorem keeps_return (slots : Slots) (payload : String) (now : Int) :
    Keeps space queue slots (slots.returnWrite (space.queue queue) payload now) := by
  unfold Slots.returnWrite
  split
  · exact .schedule _ _
  · exact .prepend _

/-- A payload that is brought back waits. -/
theorem waits_of_return (sound : Sound space queue slots) {payload : String} {now : Int} {clock : Nat}
    (written : slots.write clock (slots.returnWrite (space.queue queue) payload now) = .ok next) :
    Waits space queue next payload := by
  unfold Slots.returnWrite at written
  split at written
  · obtain ⟨entry, applies, changes⟩ := sound.lasting.written written
    obtain ⟨scores, rfl, member⟩ := bound_of_schedule applies
    exact .inl ⟨scores, changes.entry.trans (kept_of_bound member), member⟩
  · obtain ⟨entry, applies, changes⟩ := sound.lasting.written written
    obtain ⟨items, rfl⟩ := list_of_prepend applies
    exact .inr ⟨_, changes.entry, List.mem_cons_self ..⟩

section Requests

variable {memory : Memory}

theorem purge_eq (sound : Sound space queue memory.slots) (key : String) : memory.purge key = memory := by
  rw [Memory.purge, sound.lasting.purge_eq]

theorem popToInflight (sound : Sound space queue memory.slots) (worker : String) (now : Int) :
    Sound space queue (memory.popToInflight (route space worker queue) now).2.slots := by
  have after := sound.takeReady worker now
  simp only [Memory.popToInflight, sound.purge_eq]
  split
  · next slots taken => simpa only [taken] using after
  · next payload slots taken =>
    rw [taken] at after
    split
    · next written => exact after.write (.flight worker payload) written
    · exact after

theorem popInflight (sound : Sound space queue memory.slots) (worker : String) :
    Sound space queue (memory.popInflight (space.inflight worker queue)).2.slots := by
  simp only [Memory.popInflight, sound.purge_eq]
  split
  · exact sound.takeHead worker
  · exact sound.takeHead worker
  · exact sound

theorem restoreInflight (sound : Sound space queue memory.slots) (worker : String) (now : Int) :
    Sound space queue (memory.restoreInflight (route space worker queue) now).2.slots := by
  have after := sound.takeHead worker
  simp only [Memory.restoreInflight, sound.purge_eq]
  split
  · next slots taken =>
    change memory.slots.takeHead (space.inflight worker queue) = _ at taken
    rw [taken] at after
    exact after
  · next payload slots taken =>
    change memory.slots.takeHead (space.inflight worker queue) = _ at taken
    rw [taken] at after
    split
    · exact after
    · rw [after.lasting.purge_eq]
      split
      · next written => exact after.write (keeps_return _ _ _) written
      · exact after

/-- Registering a queue is one more write that keeps it and its frequencies together. -/
theorem performRegistering (sound : Sound space queue memory.slots) {writes : List Write}
    (keep : ∀ write ∈ writes, ∀ slots, Keeps space queue slots write) :
    Sound space queue (memory.perform (.transaction (registering space queue writes))).2.slots := by
  have all : ∀ write ∈ registering space queue writes, ∀ slots, Keeps space queue slots write :=
    List.forall_mem_cons.mpr ⟨fun _ => .register, keep⟩
  exact Memory.slots_transaction sound fun _ _ next => sound.writeAll all

theorem performList (sound : Sound space queue memory.slots) (operation : ListOperation) :
    Sound space queue (memory.perform (operation.request space queue)).2.slots := by
  by_cases unavailable : memory.unavailable = true
  · rw [Memory.perform_unavailable unavailable]
    exact sound
  have available : memory.unavailable = false := eq_false_of_ne_true unavailable
  cases operation with
  | enqueue payload => exact sound.performRegistering (List.forall_mem_singleton.mpr fun _ => .append _)
  | enqueueFirst payload => exact sound.performRegistering (List.forall_mem_singleton.mpr fun _ => .prepend _)
  | enqueueAll payloads => exact sound.performRegistering (List.forall_mem_map.mpr fun _ _ _ => .append _)
  | dequeue worker now =>
    simp only [ListOperation.request, Memory.perform, available]
    exact sound.popToInflight worker now
  | removeInflight worker =>
    simp only [ListOperation.request, Memory.perform, available]
    exact sound.popInflight worker
  | restoreInflight worker now =>
    simp only [ListOperation.request, Memory.perform, available]
    exact sound.restoreInflight worker now

/-- The request of an operation leaves a sound store, unless it severs a payload from its frequency. -/
theorem perform (sound : Sound space queue memory.slots) {operation : Operation}
    (keeps : ¬ operation.Severs space queue memory) :
    Sound space queue (memory.perform (operation.request space queue)).2.slots := by
  cases operation with
  | list operation => exact sound.performList operation
  | enqueueDelayed payload readyAt =>
    exact sound.performRegistering (List.forall_mem_singleton.mpr fun _ => .schedule _ _)
  | removeDelayed payload =>
    apply Memory.slots_transaction sound
    intro available undisturbed next written
    obtain ⟨last, unscheduled, rest⟩ := Slots.writeAll_cons written
    cases rest
    have once : memory.slots.isRecurring (space.recurring queue) payload = false :=
      eq_false_of_ne_true fun recurring => keeps ⟨available, undisturbed, recurring⟩
    exact sound.write (.unschedule payload once) unscheduled
  | enqueueRecurring payload nextFire frequency =>
    exact Memory.slots_transaction sound fun _ _ next => sound.writeAll_recurring
  | removeRecurring payload => exact Memory.slots_transaction sound fun _ _ next => sound.writeAll_stop

/-- A payload that has a frequency is scheduled. -/
theorem held_of_isRecurring (sound : Sound space queue slots) {payload : String}
    (recurring : slots.isRecurring (space.recurring queue) payload = true) : ∃ scores frequencies,
      slots.entry? (space.queue queue) = some (.sortedSet scores) ∧
      slots.entry? (space.recurring queue) = some (.hash frequencies) ∧ bound frequencies payload := by
  unfold Slots.isRecurring at recurring
  split at recurring
  · next frequencies companion =>
    obtain ⟨_, scores, same, held, -⟩ := sound.coupled _ companion
    cases same
    exact ⟨scores, frequencies, held, companion, recurring⟩
  · contradiction

/-- A payload that is severed from its frequency leaves a queue that does not go with its companion. -/
theorem severed (sound : Sound space queue memory.slots) {operation : Operation}
    (severs : operation.Severs space queue memory) :
    ¬ Coupled space queue (memory.perform (operation.request space queue)).2.slots := by
  cases operation with
  | removeDelayed payload =>
    obtain ⟨available, undisturbed, recurring⟩ := severs
    obtain ⟨scores, frequencies, held, companion, member⟩ := sound.held_of_isRecurring recurring
    have applies :
        Write.apply? (.unschedule (space.queue queue) payload)
          (memory.slots.entry? (space.queue queue)) =
        some (.sortedSet (Dict.erase scores payload)) := by
      rw [held]
      rfl
    have written := sound.lasting.write_applied applies memory.clock
    have changes := sound.lasting.changes_put (space.queue queue) (.sortedSet (Dict.erase scores payload))
    simp only [Operation.request, Memory.perform, available, Memory.transaction, undisturbed,
      Slots.writeAll, written]
    intro coupled
    obtain ⟨_, later, same, left, scheduled⟩ :=
      coupled _ ((changes.others _ (Keyspace.recurring_ne_queue _)).trans companion)
    cases same
    cases eq_of_kept (changes.entry.symm.trans left)
    exact (bound_erase.mp (scheduled payload member)).1 rfl
  | _ => exact severs.elim

/-- What is brought back to a queue waits there, be it that it was still scheduled. -/
theorem waits_of_restoreInflight (sound : Sound space queue memory.slots) {worker payload : String}
    {now : Int} {next : Memory}
    (restored : memory.perform (.restoreInflight (route space worker queue) now) =
      (.ok (some payload), next)) : Waits space queue next.slots payload := by
  unfold Memory.perform at restored
  split at restored
  · cases restored
  have after := sound.takeHead worker
  simp only [Memory.restoreInflight, sound.purge_eq] at restored
  split at restored
  · cases restored
  · next head slots taken =>
    change memory.slots.takeHead (space.inflight worker queue) = _ at taken
    rw [taken] at after
    split at restored
    · next recurring =>
      cases restored
      obtain ⟨scores, frequencies, held, companion, member⟩ := after.held_of_isRecurring recurring
      obtain ⟨_, _, same, other, scheduled⟩ := after.coupled _ companion
      cases same
      cases held.symm.trans other
      exact .inl ⟨scores, held, scheduled _ member⟩
    · rw [after.lasting.purge_eq] at restored
      split at restored
      · next last written =>
        cases restored
        exact after.waits_of_return written
      · cases restored

theorem run_keyType (sound : Sound space queue memory.slots) (available : memory.unavailable = false)
    {α : Type} (key : String) (next : KeyType → Task QueueError α) :
    (ask (.keyType key) >>= next).run memory =
      (next (((memory.slots.entry? key).map Entry.type).getD .absent)).run memory := by
  rw [ask_bind, asking, Task.run_call, Memory.perform_keyType sound.lasting available]
  rfl

/-- A queue that has a companion is one that recurring payloads can be added to and removed from. -/
theorem requireRecurring_run (sound : Sound space queue memory.slots)
    (available : memory.unavailable = false) :
    memory.slots.entry? (space.recurring queue) = none ∨
      ((requireRecurring space queue).run memory).1 = .ok () := by
  cases companion : memory.slots.entry? (space.recurring queue) with
  | none => exact .inl rfl
  | some entry =>
    obtain ⟨frequencies, scores, rfl, held, -⟩ := sound.coupled _ companion
    refine .inr ?_
    rw [requireRecurring, sound.run_keyType available, held, sound.run_keyType available, companion]
    rfl

end Requests

end Sound

end JobQueue.Queue
