import JobQueue.Proofs.Queue.Drained

/-! # Payloads at once and one by one

Payloads put at the end of a simple queue at once leave what they leave when they are put there one after the
other, up to the first failure: the same answer, and at every key the same, the time to live included. The
only difference is in the number of transactions, one for all of them or one for each. Whatever can fail
fails at the first payload, before anything is written: behind it the queue is a list that has its name among
the names of queues, and such a queue takes any payload.
-/

namespace JobQueue

/-- Entering a name once more changes nothing. -/
theorem insertMember_idem (member : String) (members : List String) :
    insertMember member (insertMember member members) = insertMember member members := by
  induction members with
  | nil => simp [insertMember]
  | cons head rest ih =>
    by_cases same : member = head
    · simp [insertMember, same]
    by_cases before : member < head
    · simp [insertMember, same, before]
    · simp [insertMember, same, before, ih]

namespace Slots

/-! ## Keys that have been written -/

/-- A key holds something that is stored and has not expired. -/
def Holds (now : Nat) (key : String) (entry : Entry) (slots : Slots) : Prop :=
  ∃ time?, Dict.get? slots key = some ⟨entry, time?⟩ ∧ Slot.liveAt ⟨entry, time?⟩ now = true

variable {slots next : Slots} {now : Nat} {key names queue : String} {entry : Entry}

namespace Holds

/-- A look drops nothing. -/
theorem purge (holds : slots.Holds now key entry) : slots.purge now key = slots := by
  obtain ⟨time?, found, live⟩ := holds
  rw [Slots.purge, Memory.hasExpired_eq, found]
  simp [live]

theorem contents (holds : slots.Holds now key entry) : slots.contents now key = some entry := by
  obtain ⟨time?, found, live⟩ := holds
  rw [Slots.contents, found, Option.filter_some, if_pos live]
  rfl

theorem of_sameBut {other : String} (holds : slots.Holds now key entry) (same : SameBut other slots next)
    (differ : key ≠ other) : next.Holds now key entry := by
  obtain ⟨time?, found, live⟩ := holds
  exact ⟨time?, (same key differ).trans found, live⟩

/-- A write that leaves what was held changes nothing. -/
theorem write_eq_self {write : Write} (holds : slots.Holds now write.key entry)
    (applies : write.apply? (some entry) = some entry) (filled : entry.kept = some entry) :
    slots.write now write = .ok slots := by
  have full : ¬ entry.isEmpty = true := fun empty => nomatch (kept_of_isEmpty empty).symm.trans filled
  have found : Slots.entry? slots write.key = some entry := by
    rw [← holds.contents, ← entry?_purge, holds.purge]
  obtain ⟨time?, stored, -⟩ := id holds
  have unchanged : slots.put write.key entry = slots := by
    rw [put, if_neg full, stored]
    exact Dict.insert_of_get? stored
  simp only [Slots.write, holds.purge, found, applies, unchanged]

end Holds

/-- What a write leaves is held at its key, and all other keys are left alone. -/
theorem holds_of_write {write : Write} (applies : write.apply? (slots.contents now write.key) = some entry)
    (filled : entry.kept = some entry) :
    ∃ next, slots.write now write = .ok next ∧ next.Holds now write.key entry ∧
      SameBut write.key slots next := by
  have full : ¬ entry.isEmpty = true := fun empty => nomatch (kept_of_isEmpty empty).symm.trans filled
  have looked : Dict.get? (slots.purge now write.key) write.key = slots.held now write.key :=
    get?_purge slots now write.key
  refine ⟨(slots.purge now write.key).put write.key entry, ?_, ?_,
    ((SameBut.refl slots).purge now).put entry⟩
  · simp only [Slots.write, entry?_purge, applies]
  · refine ⟨(slots.held now write.key).bind Slot.expiresAt, ?_, ?_⟩
    · rw [put, if_neg full, Dict.get?_insert, if_pos rfl, looked]
    · cases held : slots.held now write.key with
      | none => rfl
      | some slot => exact (Option.filter_eq_some_iff.mp held).2

/-- A queue that takes any payload: its key holds a list, and its name is among the names of queues. -/
structure Taking (now : Nat) (names queue key : String) (slots : Slots) : Prop where
  listed : ∃ items, slots.Holds now key (.list items)
  /-- To enter the name once more changes nothing. -/
  entered : ∃ members, insertMember queue members = members ∧ slots.Holds now names (.set members)

/-- A list takes any value. -/
theorem write_append {items : List String} (held : Contents.list? (slots.contents now key) = some items)
    (value : String) :
    ∃ next, slots.write now (.append key value) = .ok next ∧
      next.Holds now key (.list (items ++ [value])) ∧ SameBut key slots next := by
  apply holds_of_write _ (kept_append items value)
  rw [Contents.apply?_eq, Write.key, held]
  rfl

namespace Taking

theorem write_addMember (taking : slots.Taking now names queue key) :
    slots.write now (.addMember names queue) = .ok slots := by
  obtain ⟨members, entered, holds⟩ := taking.entered
  have holds : slots.Holds now (Write.addMember names queue).key (.set members) := holds
  have filled : (Entry.set members).kept = some (.set members) := by
    rw [← entered]
    exact kept_insertMember queue members
  have applies : Write.apply? (.addMember names queue) (some (.set members)) = some (.set members) :=
    congrArg (fun members => some (Entry.set members)) entered
  exact holds.write_eq_self applies filled

/-- A queue that takes any payload takes one, and then any other. -/
theorem write_append (taking : slots.Taking now names queue key) (differ : names ≠ key) (value : String) :
    ∃ next, slots.write now (.append key value) = .ok next ∧ next.Taking now names queue key := by
  obtain ⟨items, list⟩ := taking.listed
  obtain ⟨members, entered, set⟩ := taking.entered
  obtain ⟨next, written, holds, same⟩ :=
    Slots.write_append (congrArg Contents.list? list.contents) value
  exact ⟨next, written, ⟨_, holds⟩, members, entered, set.of_sameBut same differ⟩

end Taking

/-- A name that has been entered can be entered again. -/
theorem entered_of_write (written : slots.write now (.addMember names queue) = .ok next) :
    ∃ members, insertMember queue members = members ∧ next.Holds now names (.set members) := by
  have effect := contents_write written
  rw [Contents.write?_eq] at effect
  obtain ⟨members, found, -⟩ := Option.map_eq_some_iff.mp effect
  have applies : Write.apply? (.addMember names queue) (slots.contents now names) =
      some (.set (insertMember queue members)) := by
    rw [Contents.apply?_eq, found]
    rfl
  obtain ⟨after, made, holds, -⟩ := holds_of_write applies (kept_insertMember queue members)
  rw [made] at written
  cases written
  exact ⟨_, insertMember_idem queue members, holds⟩

/-- Behind a first payload the queue takes any other; if the first fails, it fails with all that follow. -/
theorem writeAll_enqueue (slots : Slots) (now : Nat) (queue : String) (differ : names ≠ key)
    (value : String) :
    (∃ next : Slots, next.Taking now names queue key ∧ ∀ rest,
        slots.writeAll now (.addMember names queue :: .append key value :: rest) = next.writeAll now rest) ∨
      ∃ cause, ∀ rest,
        slots.writeAll now (.addMember names queue :: .append key value :: rest) = .error cause := by
  simp only [writeAll]
  cases first : slots.write now (.addMember names queue) with
  | error cause => exact .inr ⟨cause, fun _ => rfl⟩
  | ok between =>
    obtain ⟨members, entered, set⟩ := entered_of_write first
    dsimp only
    cases held : Contents.list? (between.contents now key) with
    | none =>
      refine .inr ⟨.wrongType key, fun _ => ?_⟩
      have refused : Write.apply? (.append key value) (between.contents now key) = none := by
        rw [Contents.apply?_eq, held]
        rfl
      simp only [write, entry?_purge, Write.key, refused]
    | some items =>
      obtain ⟨next, written, holds, same⟩ := write_append held value
      refine .inl ⟨next, ⟨⟨_, holds⟩, members, entered, set.of_sameBut same differ⟩, fun _ => ?_⟩
      rw [written]

end Slots

/-! ## Programs that put payloads at the end of a queue -/

namespace Queue

/-- Puts payloads at the end of a simple queue, one after the other, up to the first failure. -/
def enqueueEach (space : Keyspace) (queue : String) (payloads : List String) : Task QueueError Unit :=
  payloads.forM (enqueue space queue)

/-- One payload is put at the end like many. -/
theorem enqueue_eq_enqueueAll (space : Keyspace) (queue payload : String) :
    enqueue space queue payload = enqueueAll space queue [payload] := rfl

end Queue

/-- A store behind some transactions, with the slots that they have left. -/
def Memory.committed (memory : Memory) (slots : Slots) (count : Nat) : Memory :=
  { memory with slots, transactions := memory.transactions + count }

section Runs

variable {memory : Memory} {space : Keyspace} {queue : String}

theorem Memory.Ready.committed (ready : memory.Ready) (slots : Slots) (count : Nat) :
    (memory.committed slots count).Ready := ⟨ready.available, ready.undisturbed⟩

theorem Memory.committed_committed (memory : Memory) (first slots : Slots) (one others : Nat) :
    (memory.committed first one).committed slots others = memory.committed slots (others + one) := by
  rw [committed, committed, committed, Nat.add_assoc, Nat.add_comm one]

theorem Task.run_bind_of_error {ε α β : Type} {task : Task ε α} {cause : ε} {next : Memory}
    (fails : task.run memory = (.error cause, next)) (rest : α → Task ε β) :
    (task >>= rest).run memory = (.error cause, next) :=
  (Task.run_bind task rest memory).trans (by rw [fails])

theorem run_commit_of_ok (ready : memory.Ready) {writes : List Write} {slots : Slots}
    (written : memory.slots.writeAll memory.clock writes = .ok slots) :
    (Queue.commit writes).run memory = (.ok (), memory.committed slots 1) := by
  rw [Queue.commit, Queue.ask_eq, Queue.asking, Task.run_call]
  simp [Memory.perform, ready.available, Memory.transaction, ready.undisturbed, written, Memory.committed]

theorem run_commit_of_error (ready : memory.Ready) {writes : List Write} {cause : StoreError}
    (fails : memory.slots.writeAll memory.clock writes = .error cause) :
    (Queue.commit writes).run memory = (.error (.store cause), memory) := by
  rw [Queue.commit, Queue.ask_eq, Queue.asking, Task.run_call]
  simp [Memory.perform, ready.available, Memory.transaction, ready.undisturbed, fails]

/-- Payloads go to the end of what is a list or nothing. -/
theorem run_enqueueAll_of_fits (ready : memory.Ready) (named : queue ≠ "")
    (fits : memory.contents.type (space.queue queue) = .absent ∨
      memory.contents.type (space.queue queue) = .list)
    (payload : String) (rest : List String) :
    (Queue.enqueueAll space queue (payload :: rest)).run memory =
      (Queue.commit (.addMember space.queues queue :: .append (space.queue queue) payload ::
        rest.map (.append (space.queue queue)))).run (memory.purge (space.queue queue)) := by
  refine (Task.run_bind_of_ok (run_demandName named) _).trans ?_
  rw [if_neg (by simp)]
  exact Task.run_bind_of_ok (run_requireSimple ready fits) _

/-- Any other queue is of the wrong kind. -/
theorem run_enqueueAll_of_not_fits (ready : memory.Ready) (named : queue ≠ "")
    (other : ¬ (memory.contents.type (space.queue queue) = .absent ∨
      memory.contents.type (space.queue queue) = .list))
    (payload : String) (rest : List String) :
    (Queue.enqueueAll space queue (payload :: rest)).run memory =
      (.error (.wrongKind queue .simple (.alone (memory.contents.type (space.queue queue)))),
        memory.purge (space.queue queue)) := by
  have refused : (Queue.requireSimple space queue).run memory =
      (.error (.wrongKind queue .simple (.alone (memory.contents.type (space.queue queue)))),
        memory.purge (space.queue queue)) := by
    refine (Task.run_bind_of_ok (run_ask_keyType ready _) _).trans ?_
    rw [if_neg other]
    rfl
  refine (Task.run_bind_of_ok (run_demandName named) _).trans ?_
  rw [if_neg (by simp)]
  exact Task.run_bind_of_error refused _

/-- Behind a first payload the others are appended to its list; if the first fails, it fails with all that
follow, and no key is changed. -/
theorem run_enqueueAll_cons (ready : memory.Ready) (space : Keyspace) (queue payload : String) :
    (∃ next : Slots, next.Taking memory.clock space.queues queue (space.queue queue) ∧ queue ≠ "" ∧
        ∀ rest slots, next.writeAll memory.clock (rest.map (.append (space.queue queue))) = .ok slots →
          (Queue.enqueueAll space queue (payload :: rest)).run memory = (.ok (), memory.committed slots 1)) ∨
      ∃ cause failed, failed.held = memory.held ∧ failed.transactions = memory.transactions ∧
        ∀ rest, (Queue.enqueueAll space queue (payload :: rest)).run memory = (.error cause, failed) := by
  by_cases named : queue = ""
  · subst named
    exact .inr ⟨_, memory, rfl, rfl, fun _ => rfl⟩
  have looked := memory.held_look (space.queue queue)
  by_cases fits : memory.contents.type (space.queue queue) = .absent ∨
      memory.contents.type (space.queue queue) = .list
  · have run := run_enqueueAll_of_fits ready named fits payload
    have differ : space.queues ≠ space.queue queue := Keyspace.queues_ne_queue queue
    rcases (memory.purge (space.queue queue)).slots.writeAll_enqueue memory.clock queue differ payload with
      ⟨next, taking, behind⟩ | ⟨cause, fails⟩
    · refine .inl ⟨next, taking, named, fun rest slots made => (run rest).trans ?_⟩
      exact run_commit_of_ok (ready.purge _) ((behind _).trans made)
    · refine .inr ⟨.store cause, _, looked, rfl, fun rest => (run rest).trans ?_⟩
      exact run_commit_of_error (ready.purge _) (fails _)
  · exact .inr ⟨_, _, looked, rfl, run_enqueueAll_of_not_fits ready named fits payload⟩

/-- A queue that takes any payload takes many, one after the other. -/
theorem run_enqueueEach_of_taking (ready : memory.Ready) (named : queue ≠ "")
    (taking : memory.slots.Taking memory.clock space.queues queue (space.queue queue))
    (payloads : List String) :
    ∃ slots, memory.slots.writeAll memory.clock (payloads.map (.append (space.queue queue))) = .ok slots ∧
      (Queue.enqueueEach space queue payloads).run memory =
        (.ok (), memory.committed slots payloads.length) := by
  induction payloads generalizing memory with
  | nil => exact ⟨memory.slots, rfl, rfl⟩
  | cons payload payloads ih =>
    obtain ⟨next, written, still⟩ := taking.write_append (Keyspace.queues_ne_queue queue) payload
    obtain ⟨items, list⟩ := taking.listed
    have fits : memory.contents.type (space.queue queue) = .list := by
      rw [Contents.type, Memory.contents, list.contents]
      rfl
    have looked : memory.purge (space.queue queue) = memory := by rw [Memory.purge, list.purge]
    have made : memory.slots.writeAll memory.clock
        [.addMember space.queues queue, .append (space.queue queue) payload] = .ok next := by
      rw [Slots.writeAll, taking.write_addMember]
      dsimp only
      rw [Slots.writeAll, written]
      rfl
    have first : (Queue.enqueue space queue payload).run memory = (.ok (), memory.committed next 1) := by
      rw [Queue.enqueue_eq_enqueueAll, run_enqueueAll_of_fits ready named (.inr fits), looked]
      exact run_commit_of_ok ready made
    obtain ⟨slots, rest, run⟩ := ih (ready.committed next 1) still
    refine ⟨slots, ?_, ?_⟩
    · rw [List.map_cons, Slots.writeAll, written]
      exact rest
    · rw [Memory.committed_committed] at run
      exact (Task.run_bind_of_ok first _).trans run

/-- What comes of payloads that are put at the end of a queue at once, beside what comes of as many that are
put there one after the other. -/
structure Queue.Batched (before : Memory) (count : Nat) (once each : Except QueueError Unit × Memory) :
    Prop where
  answer : each.1 = once.1
  /-- Every key holds the same, for as long. -/
  held : each.2.held = once.2.held
  /-- Nothing else differs but the number of transactions. -/
  store : each.2 = { once.2 with transactions := each.2.transactions }
  made : once.1 = .ok () →
    once.2.transactions = before.transactions + 1 ∧ each.2.transactions = before.transactions + count
  /-- What fails leaves every key alone. -/
  refused (cause : QueueError) : once.1 = .error cause → once.2.held = before.held ∧
    once.2.transactions = before.transactions ∧ each.2.transactions = before.transactions

/-- Payloads are put at the end of a queue at once as they are one after the other. -/
theorem Queue.run_enqueueAll_batched (ready : memory.Ready) (space : Keyspace) (queue payload : String)
    (payloads : List String) :
    Batched memory (payload :: payloads).length ((enqueueAll space queue (payload :: payloads)).run memory)
      ((enqueueEach space queue (payload :: payloads)).run memory) := by
  rcases run_enqueueAll_cons ready space queue payload with
    ⟨next, taking, named, made⟩ | ⟨cause, failed, held, count, fails⟩
  · have first : (enqueue space queue payload).run memory = (.ok (), memory.committed next 1) :=
      made [] next rfl
    obtain ⟨last, written, others⟩ :=
      run_enqueueEach_of_taking (ready.committed next 1) named taking payloads
    have each : (enqueueEach space queue (payload :: payloads)).run memory =
        (.ok (), memory.committed last (payloads.length + 1)) := by
      rw [Memory.committed_committed] at others
      exact (Task.run_bind_of_ok first _).trans others
    rw [made payloads last written, each]
    exact ⟨rfl, rfl, rfl, fun _ => ⟨rfl, rfl⟩, nofun⟩
  · have each : (enqueueEach space queue (payload :: payloads)).run memory = (.error cause, failed) :=
      Task.run_bind_of_error (fails []) _
    rw [fails, each]
    exact ⟨rfl, rfl, rfl, nofun, fun _ _ => ⟨held, count, count⟩⟩

end Runs

/-- A queue with a time to live, in a store that knows of another queue. -/
def filling : Memory where
  slots := [("q:queue:mail", ⟨.list ["first"], some 5000⟩), ("q:queues", ⟨.set ["tasks"], none⟩)]
  clock := 1000

/-- A store that has a string where the names of queues belong. -/
def misnamed : Memory where
  slots := [("q:queues", ⟨.string "tasks", none⟩)]

/-- Two payloads are put behind the first, which goes on to expire; in the other store none can be. -/
theorem run_enqueueAll_batched_filling :
    (filling.Ready ∧
      Queue.Batched filling 2 ((Queue.enqueueAll ⟨"q"⟩ "mail" ["second", "third"]).run filling)
        ((Queue.enqueueEach ⟨"q"⟩ "mail" ["second", "third"]).run filling) ∧
      ((Queue.enqueueAll ⟨"q"⟩ "mail" ["second", "third"]).run filling).2.held "q:queue:mail" =
        some ⟨.list ["first", "second", "third"], some 5000⟩) ∧
    misnamed.Ready ∧
      Queue.Batched misnamed 2 ((Queue.enqueueAll ⟨"q"⟩ "mail" ["second", "third"]).run misnamed)
        ((Queue.enqueueEach ⟨"q"⟩ "mail" ["second", "third"]).run misnamed) ∧
      ((Queue.enqueueAll ⟨"q"⟩ "mail" ["second", "third"]).run misnamed).1 =
        .error (.store (.wrongType "q:queues")) := by
  have ready : filling.Ready := ⟨rfl, rfl⟩
  have readyToo : misnamed.Ready := ⟨rfl, rfl⟩
  exact ⟨⟨ready, Queue.run_enqueueAll_batched ready ⟨"q"⟩ "mail" "second" ["third"], by decide⟩, readyToo,
    Queue.run_enqueueAll_batched readyToo ⟨"q"⟩ "mail" "second" ["third"], rfl⟩

end JobQueue
