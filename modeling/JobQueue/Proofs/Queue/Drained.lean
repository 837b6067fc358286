import JobQueue.Proofs.Queue.Commitment
import JobQueue.Proofs.Store.Containers

/-! # A queue that has run empty

What runs empty is not stored, so a queue without elements is of no type, and every change of a queue finds
that it is of the kind that the change needs. This holds behind every run of a store, whatever has been
written, taken, expired or refused on the way.
-/

namespace JobQueue

open Function (update update_self update_of_ne)
open Contents (set?)

/-- A store that can be reached, and that will not discard the next transaction. -/
structure Memory.Ready (memory : Memory) : Prop where
  available : memory.unavailable = false
  undisturbed : memory.discardNext = false

/-- The type of what a key holds. -/
def Contents.type (contents : Contents) (key : String) : KeyType :=
  ((contents key).map Entry.type).getD .absent

namespace Change

/-- The keys that a change wants to be of certain types. -/
def keys (space : Keyspace) (queue : String) : Change → List String
  | enqueueRecurring .. | removeRecurring _ => [space.queue queue, space.recurring queue]
  | _ => [space.queue queue]

/-- The type of a queue that a change finds without elements, behind the change. -/
def type : Change → KeyType
  | enqueue _ | enqueueFirst _ | enqueueAll _ _ => .list
  | enqueueDelayed _ _ | enqueueRecurring _ _ _ => .sortedSet
  | removeDelayed _ | removeRecurring _ => .absent

/-- What recurs, recurs at a distance. -/
def Proper : Change → Prop
  | enqueueRecurring _ _ frequency => frequency ≠ 0
  | _ => True

/-- The keys of a queue are of the types that a change admits. -/
def Admitted (space : Keyspace) (queue : String) (contents : Contents) : Change → Prop
  | enqueue _ | enqueueFirst _ | enqueueAll _ _ =>
    contents.type (space.queue queue) = .absent ∨ contents.type (space.queue queue) = .list
  | enqueueDelayed _ _ | removeDelayed _ =>
    contents.type (space.queue queue) = .absent ∨ contents.type (space.queue queue) = .sortedSet
  | enqueueRecurring _ _ _ | removeRecurring _ =>
    contents.type (space.queue queue) = .absent ∧ contents.type (space.recurring queue) = .absent ∨
      contents.type (space.queue queue) = .sortedSet ∧ contents.type (space.recurring queue) = .hash

/-- A queue without elements admits every change. -/
theorem admitted_of_drained {space : Keyspace} {queue : String} {contents : Contents} {change : Change}
    (drained : ∀ key ∈ change.keys space queue, contents key = none) : change.Admitted space queue contents := by
  have absent {key : String} (member : key ∈ change.keys space queue) : contents.type key = .absent := by
    rw [Contents.type, drained key member]
    rfl
  cases change with
  | enqueueRecurring | removeRecurring =>
    exact .inl ⟨absent List.mem_cons_self, absent (List.mem_cons_of_mem _ List.mem_cons_self)⟩
  | _ => exact .inl (absent List.mem_cons_self)

end Change

/-! ## Programs that run alone -/

section Runs

variable {memory next : Memory} {space : Keyspace} {queue : String}

theorem Task.run_bind_of_ok {ε α β : Type} {task : Task ε α} {a : α}
    (first : task.run memory = (.ok a, next)) (rest : α → Task ε β) :
    (task >>= rest).run memory = (rest a).run next :=
  (Task.run_bind task rest memory).trans (by rw [first])

theorem Memory.Ready.purge (ready : memory.Ready) (key : String) : (memory.purge key).Ready :=
  ⟨ready.available, ready.undisturbed⟩

theorem Memory.contents_of_held (same : next.held = memory.held) : next.contents = memory.contents := by
  funext key
  exact congrArg (Option.map Slot.entry) (congrFun same key)

theorem run_demandName (named : queue ≠ "") : (Queue.demandName queue).run memory = (.ok (), memory) := by
  rw [Queue.ListOperation.demandName_eq named]
  rfl

theorem run_ask_keyType (ready : memory.Ready) (key : String) :
    (Queue.ask (.keyType key)).run memory = (.ok (memory.contents.type key), memory.purge key) := by
  rw [Queue.ask_eq, Queue.asking, Task.run_call, Memory.perform,
    if_neg (ne_true_of_eq_false ready.available)]
  dsimp only [Memory.answering]
  rw [memory.typeOf_eq]
  rfl

theorem run_requireSimple (ready : memory.Ready)
    (fits : memory.contents.type (space.queue queue) = .absent ∨
      memory.contents.type (space.queue queue) = .list) :
    (Queue.requireSimple space queue).run memory = (.ok (), memory.purge (space.queue queue)) := by
  refine (Task.run_bind_of_ok (run_ask_keyType ready _) _).trans ?_
  rw [if_pos fits]
  rfl

theorem run_requireDelayed (ready : memory.Ready)
    (fits : memory.contents.type (space.queue queue) = .absent ∨
      memory.contents.type (space.queue queue) = .sortedSet) :
    (Queue.requireDelayed space queue).run memory = (.ok (), memory.purge (space.queue queue)) := by
  refine (Task.run_bind_of_ok (run_ask_keyType ready _) _).trans ?_
  rw [if_pos fits]
  rfl

theorem run_requireRecurring (ready : memory.Ready)
    (fits : memory.contents.type (space.queue queue) = .absent ∧
        memory.contents.type (space.recurring queue) = .absent ∨
      memory.contents.type (space.queue queue) = .sortedSet ∧
        memory.contents.type (space.recurring queue) = .hash) :
    (Queue.requireRecurring space queue).run memory =
      (.ok (), (memory.purge (space.queue queue)).purge (space.recurring queue)) := by
  have companion := Memory.contents_of_held (memory.held_look (space.queue queue))
  rw [← companion] at fits
  refine (Task.run_bind_of_ok (run_ask_keyType ready _) _).trans ?_
  refine (Task.run_bind_of_ok (run_ask_keyType (ready.purge _) _) _).trans ?_
  rw [companion] at fits ⊢
  rw [if_pos fits]
  rfl

theorem run_commit (ready : memory.Ready) {writes : List Write} {after : Contents}
    (applies : memory.contents.writeAll? writes = some after) :
    ((Queue.commit writes).run memory).1 = .ok () ∧ ((Queue.commit writes).run memory).2.contents = after := by
  have ⟨made, left⟩ := Memory.perform_transaction_of_contents ready.available ready.undisturbed applies
  rw [Queue.commit, Queue.ask_eq, Queue.asking, Task.run_call, made]
  exact ⟨rfl, left⟩

/-- A change that is admitted makes its writes behind looks that change no key. -/
theorem Change.run_eq_commit (ready : memory.Ready) (named : queue ≠ "") {change : Change}
    (proper : change.Proper) (admitted : change.Admitted space queue memory.contents) :
    ∃ looked, looked.Ready ∧ looked.held = memory.held ∧
      (change.program space queue).run memory = (Queue.commit (change.writes space queue)).run looked := by
  have name (rest : Unit → Task QueueError Unit) :
      (Queue.demandName queue >>= rest).run memory = (rest ()).run memory :=
    Task.run_bind_of_ok (run_demandName named) rest
  have once : (memory.purge (space.queue queue)).Ready ∧ (memory.purge (space.queue queue)).held = memory.held :=
    ⟨ready.purge _, memory.held_look _⟩
  have twice : ((memory.purge (space.queue queue)).purge (space.recurring queue)).Ready ∧
      ((memory.purge (space.queue queue)).purge (space.recurring queue)).held = memory.held :=
    ⟨once.1.purge _, (Memory.held_look _ _).trans once.2⟩
  cases change with
  | enqueue | enqueueFirst | enqueueAll =>
    exact ⟨_, once.1, once.2, (name _).trans (Task.run_bind_of_ok (run_requireSimple ready admitted) _)⟩
  | enqueueDelayed | removeDelayed =>
    exact ⟨_, once.1, once.2, (name _).trans (Task.run_bind_of_ok (run_requireDelayed ready admitted) _)⟩
  | enqueueRecurring payload nextFire frequency =>
    have demand : (Queue.demand (frequency != 0) .zeroFrequency).run memory = (.ok (), memory) := by
      rw [Queue.demand, if_pos (bne_iff_ne.mpr proper)]
      rfl
    exact ⟨_, twice.1, twice.2, (name _).trans ((Task.run_bind_of_ok demand _).trans
      (Task.run_bind_of_ok (run_requireRecurring ready admitted) _))⟩
  | removeRecurring payload =>
    exact ⟨_, twice.1, twice.2, (name _).trans
      (Task.run_bind_of_ok (run_requireRecurring ready admitted) _)⟩

/-- A queue without elements takes what a change puts into it, once its name can be entered. -/
theorem Change.effect?_of_drained {contents : Contents} {change : Change}
    (names : (set? (contents space.queues)).isSome)
    (drained : ∀ key ∈ change.keys space queue, contents key = none) :
    ∃ after, change.effect? space queue contents = some after ∧
      ((after (space.queue queue)).map Entry.type).getD .absent = change.type := by
  have own : contents (space.queue queue) = none := by
    apply drained
    cases change <;> exact List.mem_cons_self
  obtain ⟨members, names⟩ := Option.isSome_iff_exists.mp names
  cases change with
  | enqueue | enqueueFirst | enqueueAll | enqueueDelayed =>
    refine ⟨_, by simp only [effect?, registered?, names, own]; rfl, ?_⟩
    rw [update_self]
    rfl
  | removeDelayed =>
    refine ⟨_, by simp only [effect?, own]; rfl, ?_⟩
    rw [update_self]
    rfl
  | enqueueRecurring =>
    have companion := drained (space.recurring queue) (List.mem_cons_of_mem _ List.mem_cons_self)
    refine ⟨_, by simp only [effect?, registered?, names, own, companion]; rfl, ?_⟩
    rw [update_of_ne (Keyspace.recurring_ne_queue queue).symm, update_self]
    rfl
  | removeRecurring =>
    have companion := drained (space.recurring queue) (List.mem_cons_of_mem _ List.mem_cons_self)
    refine ⟨_, by simp only [effect?, own, companion]; rfl, ?_⟩
    rw [update_self]
    rfl

/-- A queue without elements is free to take any kind. -/
theorem Change.run_of_drained (ready : memory.Ready) (named : queue ≠ "") {change : Change}
    (proper : change.Proper) (names : (set? (memory.contents space.queues)).isSome)
    (drained : ∀ key ∈ change.keys space queue, memory.contents key = none) :
    ((change.program space queue).run memory).1 = .ok () ∧
      (((change.program space queue).run memory).2.typeOf (space.queue queue)).1 = change.type := by
  obtain ⟨looked, still, same, run⟩ := run_eq_commit ready named proper (admitted_of_drained drained)
  have same := Memory.contents_of_held same
  obtain ⟨after, effect, type⟩ := effect?_of_drained names drained
  rw [← change.writeAll?_writes, ← same] at effect
  obtain ⟨made, left⟩ := run_commit still effect
  rw [run, Memory.typeOf_eq, left]
  exact ⟨made, type⟩

end Runs

/-! ## What always holds of a store -/

/-- A store in which what is empty is not held. -/
structure Memory.Tidy (memory : Memory) : Prop where
  /-- No list, set, sorted set or hash is stored that is empty. -/
  filled : ∀ entry ∈ memory.slots, entry.2.entry.isEmpty = false
  /-- A key without elements has the type of a missing key, and no other key has. -/
  typeOf_iff (key : String) : (memory.typeOf key).1 = .absent ↔ memory.elements key = []
  keyType_iff (available : memory.unavailable = false) (key : String) :
    (memory.perform (.keyType key)).1 = .ok .absent ↔ memory.elements key = []
  /-- A key without elements takes any write. -/
  any_write (ready : memory.Ready) (write : Write) (drained : memory.elements write.key = []) :
    (memory.perform (.transaction [write])).1 = .ok ()
  /-- A queue without elements takes any kind. -/
  any_kind (ready : memory.Ready) {space : Keyspace} {queue : String} (named : queue ≠ "") {change : Change}
    (proper : change.Proper) (names : (set? (memory.contents space.queues)).isSome)
    (drained : ∀ key ∈ change.keys space queue, memory.elements key = []) :
    ((change.program space queue).run memory).1 = .ok () ∧
      (((change.program space queue).run memory).2.typeOf (space.queue queue)).1 = change.type

theorem Memory.tidy_of_filled {memory : Memory} (filled : memory.slots.Filled) : memory.Tidy where
  filled := filled
  typeOf_iff key := (memory.typeOf_eq_absent_iff key).trans (elements_eq_nil_iff filled key).symm
  keyType_iff available key := by
    rw [elements_eq_nil_iff filled, ← memory.typeOf_eq_absent_iff, perform,
      if_neg (ne_true_of_eq_false available)]
    exact ⟨Except.ok.inj, congrArg Except.ok⟩
  any_write ready write drained := by
    rw [elements_eq_nil_iff filled] at drained
    obtain ⟨after, applies⟩ := Contents.write?_of_absent drained
    have applies : memory.contents.writeAll? [write] = some after := by
      rw [Contents.writeAll?, List.foldlM_cons, applies]
      rfl
    exact (perform_transaction_of_contents ready.available ready.undisturbed applies).1
  any_kind ready _ _ named _ proper names drained :=
    Change.run_of_drained ready named proper names fun key member =>
      (elements_eq_nil_iff filled key).mp (drained key member)

/-- Whatever has happened to a store that was empty, what is empty in it is not held. -/
theorem Memory.tidy_occurAll (occurrences : List Occurrence) : (Memory.occurAll {} occurrences).Tidy :=
  tidy_of_filled (filled_occurAll Slots.filled_nil occurrences)

end JobQueue
