import JobQueue.Proofs.Queue.Drained
import JobQueue.Proofs.Queue.Layout
import JobQueue.Proofs.Store.Undo

/-! # Scheduling and cancelling a payload changes nothing

A payload that was nowhere in a queue is scheduled and then cancelled. The second call undoes the writes of the
first, the latest first, so every key holds what it held, also the time to live, whatever other payloads the
queue has; a queue that had none is gone again. Only the queue's name stays among the names of queues.
-/

namespace JobQueue

open Function (update update_self update_of_ne)
open Contents (set?)

variable {memory next : Memory} {space : Keyspace} {queue payload : String}

/-! ## Programs that have succeeded -/

theorem Task.run_bind_eq_ok {ε α β : Type} {task : Task ε α} {rest : α → Task ε β} {b : β}
    (ok : (task >>= rest).run memory = (.ok b, next)) :
    ∃ a between, task.run memory = (.ok a, between) ∧ (rest a).run between = (.ok b, next) := by
  rw [Task.bind_eq, Task.run_bind] at ok
  cases run : task.run memory with
  | mk result between =>
    rw [run] at ok
    cases result with
    | ok a => exact ⟨a, between, rfl, ok⟩
    | error cause => cases congrArg Prod.fst ok

/-- What is demanded holds. -/
theorem run_demand_eq_ok {holds : Bool} {cause : BadArgument}
    (ok : (Queue.demand holds cause).run memory = (.ok (), next)) : holds = true ∧ next = memory := by
  cases holds with
  | true => exact ⟨rfl, (congrArg Prod.snd ok).symm⟩
  | false => cases congrArg Prod.fst ok

/-- A look at a type changes nothing. -/
theorem run_ask_keyType_eq_ok {key : String} {found : KeyType}
    (ok : (Queue.ask (.keyType key)).run memory = (.ok found, next)) : next.held = memory.held := by
  rw [Queue.ask_eq, Queue.asking, Task.run_call] at ok
  have same := memory.held_perform_keyType key
  cases answer : (memory.perform (.keyType key)).1 with
  | ok reply =>
    rw [answer] at ok
    have last : (memory.perform (.keyType key)).2 = next := congrArg Prod.snd ok
    rwa [← last]
  | error cause =>
    rw [answer] at ok
    cases congrArg Prod.fst ok

theorem run_require_eq_ok {condition : Prop} [Decidable condition] {error : QueueError}
    (ok : (if condition then Task.done () else Task.fail error).run memory = (.ok (), next)) :
    next = memory := by
  split at ok
  · exact (congrArg Prod.snd ok).symm
  · cases congrArg Prod.fst ok

/-- Writes that have been committed were made, in a store that is ready for more. -/
theorem run_commit_eq_ok {writes : List Write} (ok : (Queue.commit writes).run memory = (.ok (), next)) :
    next.Ready ∧ Holdings.writeAll? memory.held writes = some next.held := by
  rw [Queue.commit, Queue.ask_eq, Queue.asking, Task.run_call] at ok
  by_cases unavailable : memory.unavailable = true
  · rw [Memory.perform_unavailable unavailable] at ok
    cases congrArg Prod.fst ok
  · rw [Memory.perform, if_neg unavailable] at ok
    by_cases discards : memory.discardNext = true
    · rw [Memory.transaction, if_pos discards] at ok
      cases congrArg Prod.fst ok
    · rw [Memory.transaction, if_neg discards] at ok
      cases made : memory.slots.writeAll memory.clock writes with
      | error cause =>
        rw [made] at ok
        cases congrArg Prod.fst ok
      | ok slots =>
        rw [made] at ok
        cases congrArg Prod.snd ok
        exact ⟨⟨eq_false_of_ne_true unavailable, eq_false_of_ne_true discards⟩,
          Slots.writeAll_iff.mpr ⟨slots, made, rfl⟩⟩

/-- Writes that apply are committed. -/
theorem run_commit_of_writeAll? (ready : memory.Ready) {writes : List Write} {after : Holdings}
    (applies : Holdings.writeAll? memory.held writes = some after) :
    ∃ next, (Queue.commit writes).run memory = (.ok (), next) ∧ next.held = after := by
  obtain ⟨slots, made, left⟩ := Slots.writeAll_iff.mp applies
  have committed : memory.perform (.transaction writes) =
      (.ok (), { memory with slots, transactions := memory.transactions + 1 }) := by
    simp [Memory.perform, ready.available, Memory.transaction, ready.undisturbed, made]
  refine ⟨{ memory with slots, transactions := memory.transactions + 1 }, ?_, left⟩
  rw [Queue.commit, Queue.ask_eq, Queue.asking, Task.run_call, committed]
  rfl

theorem run_demandName_eq_ok {rest : Unit → Task QueueError Unit}
    (ok : (Queue.demandName queue >>= rest).run memory = (.ok (), next)) :
    queue ≠ "" ∧ (rest ()).run memory = (.ok (), next) := by
  obtain ⟨_, _, demanded, behind⟩ := Task.run_bind_eq_ok ok
  obtain ⟨name, same⟩ := run_demand_eq_ok demanded
  exact ⟨bne_iff_ne.mp name, same ▸ behind⟩

/-- A look at a key, with a requirement of its type, changes nothing. -/
theorem run_requireType_eq_ok {key : String} {condition : KeyType → Prop} [∀ found, Decidable (condition found)]
    {error : KeyType → QueueError}
    (ok : (Queue.ask (.keyType key) >>= fun found =>
      if condition found then Task.done () else Task.fail (error found)).run memory = (.ok (), next)) :
    next.held = memory.held := by
  obtain ⟨found, _, look, required⟩ := Task.run_bind_eq_ok ok
  rw [run_require_eq_ok required]
  exact run_ask_keyType_eq_ok look

theorem run_requireRecurring_eq_ok (ok : (Queue.requireRecurring space queue).run memory = (.ok (), next)) :
    next.held = memory.held := by
  obtain ⟨found, _, look, required⟩ := Task.run_bind_eq_ok ok
  obtain ⟨companion, _, again, required⟩ := Task.run_bind_eq_ok required
  rw [run_require_eq_ok required]
  exact (run_ask_keyType_eq_ok again).trans (run_ask_keyType_eq_ok look)

/-- A change that has been made has looked at the types of keys, if at all, and has made its writes. -/
theorem Change.run_eq_ok {change : Change} (ok : (change.program space queue).run memory = (.ok (), next)) :
    queue ≠ "" ∧ next.Ready ∧ Holdings.writeAll? memory.held (change.writes space queue) = some next.held := by
  have behind {looks : Task QueueError Unit}
      (keeps : ∀ {looked}, looks.run memory = (.ok (), looked) → looked.held = memory.held)
      (ok : (looks >>= fun _ => Queue.commit (change.writes space queue)).run memory = (.ok (), next)) :
      next.Ready ∧ Holdings.writeAll? memory.held (change.writes space queue) = some next.held := by
    obtain ⟨_, _, looked, ok⟩ := Task.run_bind_eq_ok ok
    rw [← keeps looked]
    exact run_commit_eq_ok ok
  cases change with
  | enqueueRecurring payload nextFire frequency =>
    obtain ⟨name, ok⟩ := run_demandName_eq_ok ok
    obtain ⟨_, _, demanded, ok⟩ := Task.run_bind_eq_ok ok
    obtain ⟨-, same⟩ := run_demand_eq_ok demanded
    exact ⟨name, behind run_requireRecurring_eq_ok (same ▸ ok)⟩
  | removeRecurring payload =>
    obtain ⟨name, ok⟩ := run_demandName_eq_ok ok
    exact ⟨name, behind run_requireRecurring_eq_ok ok⟩
  | _ =>
    obtain ⟨name, ok⟩ := run_demandName_eq_ok ok
    exact ⟨name, behind run_requireType_eq_ok ok⟩

/-! ## Scheduling undone -/

/-- A payload that is in no sorted set and in no hash of a queue. -/
structure Memory.Unscheduled (memory : Memory) (space : Keyspace) (queue payload : String) : Prop where
  scores : ∀ scores, memory.contents (space.queue queue) = some (.sortedSet scores) →
    Dict.get? scores payload = none
  fields : ∀ fields, memory.contents (space.recurring queue) = some (.hash fields) →
    Dict.get? fields payload = none

/-- Every key holds what it held, with its time to live, except that a queue is among the names of queues. -/
structure Memory.SameButNamed (space : Keyspace) (queue : String) (memory after : Memory) : Prop where
  others : ∀ key, key ≠ space.queues → after.held key = memory.held key
  names : ∃ members, set? (memory.contents space.queues) = some members ∧
    after.held space.queues =
      some ⟨.set (insertMember queue members), (memory.held space.queues).bind Slot.expiresAt⟩

/-- What a write leaves is of the type of the write, if it is not empty. -/
theorem Holdings.type_of_write? {held after : Holdings} {write : Write} (made : held.write? write = some after)
    (kept : ∀ entry, write.apply? ((held write.key).map Slot.entry) = some entry → entry.kept = some entry) :
    (((after write.key).map Slot.entry).map Entry.type).getD .absent = write.type := by
  obtain ⟨entry, applied, rfl⟩ := held_of_write? made kept
  rw [update_self]
  exact type_of_applies applied

theorem Memory.type_of_held {key : String} {slot? : Option Slot} (same : memory.held key = slot?) :
    memory.contents.type key = ((slot?.map Slot.entry).map Entry.type).getD .absent :=
  congrArg (fun slot? => ((Option.map Slot.entry slot?).map Entry.type).getD .absent) same

/-- A change that is admitted behind another is made, with the effect of its writes. -/
theorem Change.run_behind {change undo : Change} (ok : (change.program space queue).run memory = (.ok (), next))
    (admitted : undo.Admitted space queue next.contents) (proper : undo.Proper) {after : Holdings}
    (applies : Holdings.writeAll? next.held (undo.writes space queue) = some after) :
    ∃ last, (undo.program space queue).run next = (.ok (), last) ∧ last.held = after := by
  obtain ⟨named, ready, -⟩ := run_eq_ok ok
  obtain ⟨looked, still, same, run⟩ := run_eq_commit ready named proper admitted
  rw [← same] at applies
  obtain ⟨last, committed, left⟩ := run_commit_of_writeAll? still applies
  exact ⟨last, run.trans committed, left⟩

/-- Keys that hold what they hold once a queue's name has been entered. -/
theorem Memory.sameButNamed_of_write? {after : Memory}
    (entered : Holdings.write? memory.held (.addMember space.queues queue) = some after.held) :
    memory.SameButNamed space queue after := by
  refine ⟨fun key other => Holdings.write?_other entered other, ?_⟩
  obtain ⟨left, leaves, same⟩ := Option.map_eq_some_iff.mp entered
  obtain ⟨entry, applied, rfl⟩ := Option.map_eq_some_iff.mp leaves
  rw [Contents.apply?_eq] at applied
  obtain ⟨members, names, rfl⟩ := Option.map_eq_some_iff.mp applied
  refine ⟨members, names, ?_⟩
  rw [← same, Write.key, update_self, kept_insertMember]
  rfl

/-- A payload that is scheduled once can be cancelled, and nothing else is left of it. -/
theorem removeDelayed_of_enqueueDelayed (filled : memory.slots.Filled)
    (new : memory.Unscheduled space queue payload) {readyAt : Int} {between : Memory}
    (ok : (Queue.enqueueDelayed space queue payload readyAt).run memory = (.ok (), between)) :
    ∃ after, (Queue.removeDelayed space queue payload).run between = (.ok (), after) ∧
      memory.SameButNamed space queue after := by
  have ok : ((Change.enqueueDelayed payload readyAt).program space queue).run memory = (.ok (), between) := ok
  obtain ⟨-, -, made⟩ := Change.run_eq_ok ok
  obtain ⟨named, names, made⟩ := Holdings.writeAll?_cons.mp made
  obtain ⟨_, scheduled, ⟨⟩⟩ := Holdings.writeAll?_cons.mp made
  have own := Holdings.write?_other names (Keyspace.queues_ne_queue queue).symm
  have undoes : (Write.unschedule (space.queue queue) payload).Undoes
      (.schedule (space.queue queue) (Binary64.ofInt readyAt) payload)
      ((named (space.queue queue)).map Slot.entry) :=
    own ▸ Write.unschedule_undoes (fun _ => memory.isEmpty_of_contents filled) new.scores _
  have undone : Holdings.writeAll? between.held ((Change.removeDelayed payload).writes space queue) = some named :=
    Holdings.writeAll?_cons.mpr ⟨_, Holdings.write?_undone scheduled undoes, rfl⟩
  have fits : (Change.removeDelayed payload).Admitted space queue between.contents :=
    .inr (Holdings.type_of_write? scheduled undoes.kept)
  obtain ⟨after, run, rfl⟩ := Change.run_behind ok fits trivial undone
  exact ⟨after, run, Memory.sameButNamed_of_write? names⟩

/-- A payload that is scheduled again and again can be cancelled, and nothing else is left of it. -/
theorem removeRecurring_of_enqueueRecurring (filled : memory.slots.Filled)
    (new : memory.Unscheduled space queue payload) {nextFire : Int} {frequency : Nat} {between : Memory}
    (ok : (Queue.enqueueRecurring space queue payload nextFire frequency).run memory = (.ok (), between)) :
    ∃ after, (Queue.removeRecurring space queue payload).run between = (.ok (), after) ∧
      memory.SameButNamed space queue after := by
  have ok : ((Change.enqueueRecurring payload nextFire frequency).program space queue).run memory =
    (.ok (), between) := ok
  obtain ⟨-, -, made⟩ := Change.run_eq_ok ok
  obtain ⟨named, names, made⟩ := Holdings.writeAll?_cons.mp made
  obtain ⟨scheduled, scheduling, made⟩ := Holdings.writeAll?_cons.mp made
  obtain ⟨_, bound, ⟨⟩⟩ := Holdings.writeAll?_cons.mp made
  have own := Holdings.write?_other names (Keyspace.queues_ne_queue queue).symm
  have companion := (Holdings.write?_other scheduling (Keyspace.recurring_ne_queue queue)).trans
    (Holdings.write?_other names (Keyspace.queues_ne_recurring queue).symm)
  have unschedules : (Write.unschedule (space.queue queue) payload).Undoes
      (.schedule (space.queue queue) (Binary64.ofInt nextFire) payload)
      ((named (space.queue queue)).map Slot.entry) :=
    own ▸ Write.unschedule_undoes (fun _ => memory.isEmpty_of_contents filled) new.scores _
  have drops : (Write.dropField (space.recurring queue) payload).Undoes
      (.setField (space.recurring queue) payload (String.ofList (Text.integer frequency)))
      ((scheduled (space.recurring queue)).map Slot.entry) :=
    companion ▸ Write.dropField_undoes (fun _ => memory.isEmpty_of_contents filled) new.fields _
  have undone :
      Holdings.writeAll? between.held ((Change.removeRecurring payload).writes space queue) = some named :=
    Holdings.writeAll?_cons.mpr ⟨scheduled, Holdings.write?_undone bound drops,
      Holdings.writeAll?_cons.mpr ⟨_, Holdings.write?_undone scheduling unschedules, rfl⟩⟩
  have still := Holdings.write?_other bound (Keyspace.recurring_ne_queue queue).symm
  have fits : (Change.removeRecurring payload).Admitted space queue between.contents :=
    .inr ⟨(Memory.type_of_held still).trans (Holdings.type_of_write? scheduling unschedules.kept),
      Holdings.type_of_write? bound drops.kept⟩
  obtain ⟨after, run, rfl⟩ := Change.run_behind ok fits trivial undone
  exact ⟨after, run, Memory.sameButNamed_of_write? names⟩

/-- Whatever else a store holds, a payload that is new to a queue can be scheduled and cancelled, once or again and
again, and only the queue's name is left of it. That no empty container is stored holds of every store that comes
about (`Memory.filled_occurAll`). -/
theorem Queue.cancelling_undoes_scheduling (filled : memory.slots.Filled)
    (new : memory.Unscheduled space queue payload) :
    (∀ readyAt between, (enqueueDelayed space queue payload readyAt).run memory = (.ok (), between) →
      ∃ after, (removeDelayed space queue payload).run between = (.ok (), after) ∧
        memory.SameButNamed space queue after) ∧
    ∀ nextFire frequency between,
      (enqueueRecurring space queue payload nextFire frequency).run memory = (.ok (), between) →
        ∃ after, (removeRecurring space queue payload).run between = (.ok (), after) ∧
          memory.SameButNamed space queue after :=
  ⟨fun _ _ ok => removeDelayed_of_enqueueDelayed filled new ok,
    fun _ _ _ ok => removeRecurring_of_enqueueRecurring filled new ok⟩

/-- A recurring queue of one payload, which expires after five seconds. -/
def digests : Memory where
  slots := [("n:queue:mail", ⟨.sortedSet [("digest", Binary64.ofInt 60000)], some 5000⟩),
    ("n:queue:mail:recurring", ⟨.hash [("digest", "60000")], none⟩)]

/-- A second payload comes and goes. -/
theorem Queue.cancelling_undoes_scheduling_digests :
    (∃ between after, (enqueueDelayed ⟨"n"⟩ "mail" "report" 1000).run digests = (.ok (), between) ∧
      (removeDelayed ⟨"n"⟩ "mail" "report").run between = (.ok (), after) ∧
      digests.SameButNamed ⟨"n"⟩ "mail" after) ∧
    ∃ between after, (enqueueRecurring ⟨"n"⟩ "mail" "report" 1000 250).run digests = (.ok (), between) ∧
      (removeRecurring ⟨"n"⟩ "mail" "report").run between = (.ok (), after) ∧
      digests.SameButNamed ⟨"n"⟩ "mail" after := by
  have filled : digests.slots.Filled := by
    unfold Slots.Filled
    decide
  have new : digests.Unscheduled ⟨"n"⟩ "mail" "report" :=
    ⟨by rintro _ ⟨⟩; rfl, by rintro _ ⟨⟩; rfl⟩
  obtain ⟨once, again⟩ := cancelling_undoes_scheduling filled new
  obtain ⟨after, cancelled, same⟩ := once 1000 _ rfl
  obtain ⟨last, stopped, alike⟩ := again 1000 250 _ rfl
  exact ⟨⟨_, after, rfl, cancelled, same⟩, _, last, rfl, stopped, alike⟩

end JobQueue
