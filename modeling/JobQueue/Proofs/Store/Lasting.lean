import JobQueue.Store.Memory

/-! # Stores in which nothing expires

The operations on queues never give a key a time to live. In a store where no key has one, looking at a key
drops nothing, and a write changes what its own key holds and nothing else.
-/

namespace JobQueue

/-- What is held of an entry: a container that has run empty is not. -/
def Entry.kept (entry : Entry) : Option Entry := if entry.isEmpty then none else some entry

/-- What is held of a list. -/
def listed (items : List String) : Option Entry := (Entry.list items).kept

theorem kept_of_isEmpty {entry : Entry} (empty : entry.isEmpty = true) : entry.kept = none := if_pos empty

theorem kept_of_not_isEmpty {entry : Entry} (filled : entry.isEmpty = false) : entry.kept = some entry :=
  if_neg (by simp [filled])

theorem eq_of_kept {entry other : Entry} (kept : entry.kept = some other) : entry = other := by
  unfold Entry.kept at kept
  split at kept
  · contradiction
  · exact Option.some.inj kept

theorem Dict.isEmpty_insert {α : Type} (dict : Dict α) (key : String) (value : α) :
    (Dict.insert dict key value).isEmpty = false := by
  cases dict with
  | nil => rfl
  | cons entry rest =>
    rw [Dict.insert]
    split <;> rfl

/-! What has been put in leaves a container that is held. -/

theorem kept_insertMember (member : String) (members : List String) :
    (Entry.set (insertMember member members)).kept = some (.set (insertMember member members)) := by
  apply kept_of_not_isEmpty
  cases members with
  | nil => rfl
  | cons head rest =>
    rw [insertMember]
    split
    · rfl
    · split <;> rfl

theorem kept_append (items : List String) (value : String) :
    (Entry.list (items ++ [value])).kept = some (.list (items ++ [value])) := by
  cases items <;> rfl

theorem kept_schedule (scores : Dict Binary64) (member : String) (score : Binary64) :
    (Entry.sortedSet (Dict.insert scores member score)).kept =
      some (.sortedSet (Dict.insert scores member score)) :=
  kept_of_not_isEmpty (Dict.isEmpty_insert scores member score)

theorem kept_setField (fields : Dict String) (field value : String) :
    (Entry.hash (Dict.insert fields field value)).kept = some (.hash (Dict.insert fields field value)) :=
  kept_of_not_isEmpty (Dict.isEmpty_insert fields field value)

@[simp] theorem listed_nil : listed [] = none := rfl

@[simp] theorem listed_cons (head : String) (rest : List String) :
    listed (head :: rest) = some (.list (head :: rest)) := rfl

theorem apply?_prepend (key value : String) (items : List String) :
    Write.apply? (.prepend key value) (listed items) = some (.list (value :: items)) := by
  cases items <;> rfl

theorem apply?_append (key value : String) (items : List String) :
    Write.apply? (.append key value) (listed items) = some (.list (items ++ [value])) := by
  cases items <;> rfl

namespace Slots

/-- No key has a time to live. -/
def Lasting (slots : Slots) : Prop := ∀ key slot, Dict.get? slots key = some slot → slot.expiresAt = none

theorem lasting_nil : Lasting [] := nofun

/-- A store and the same store but for what one key holds; in both nothing expires. -/
structure Changes (slots : Slots) (key : String) (held? : Option Entry) (next : Slots) : Prop where
  lasting : next.Lasting
  entry : next.entry? key = held?
  others : ∀ other, other ≠ key → next.entry? other = slots.entry? other

theorem Changes.trans {first second third : Slots} {key : String} {held? other? : Option Entry}
    (one : first.Changes key held? second) (other : second.Changes key other? third) :
    first.Changes key other? third where
  lasting := other.lasting
  entry := other.entry
  others := fun name differ => (other.others name differ).trans (one.others name differ)

/-- The first of some writes is made before the others. -/
theorem writeAll_cons {slots last : Slots} {now : Nat} {write : Write} {rest : List Write}
    (written : slots.writeAll now (write :: rest) = .ok last) :
    ∃ next, slots.write now write = .ok next ∧ next.writeAll now rest = .ok last := by
  rw [writeAll] at written
  split at written
  · next next first => exact ⟨next, first, written⟩
  · contradiction

/-- Writes behind others. -/
theorem writeAll_append {slots middle last : Slots} {now : Nat} {first rest : List Write}
    (one : slots.writeAll now first = .ok middle) (others : middle.writeAll now rest = .ok last) :
    slots.writeAll now (first ++ rest) = .ok last := by
  induction first generalizing slots with
  | nil =>
    cases one
    exact others
  | cons write first ih =>
    obtain ⟨next, made, behind⟩ := writeAll_cons one
    rw [List.cons_append, writeAll, made]
    exact ih behind

section Lasting

variable {slots : Slots}

theorem Lasting.expiresAt (lasting : slots.Lasting) (key : String) :
    (Dict.get? slots key).bind Slot.expiresAt = none := by
  cases found : Dict.get? slots key with
  | none => rfl
  | some slot => exact lasting key slot found

/-- Looking at a key drops nothing. -/
@[simp] theorem Lasting.purge_eq (lasting : slots.Lasting) (now : Nat) (key : String) :
    slots.purge now key = slots := by
  unfold purge hasExpired
  rw [lasting.expiresAt]
  rfl

theorem Lasting.changes (lasting : slots.Lasting) (key : String) :
    slots.Changes key (slots.entry? key) slots :=
  ⟨lasting, rfl, fun _ _ => rfl⟩

theorem Lasting.changes_put (lasting : slots.Lasting) (key : String) (entry : Entry) :
    slots.Changes key entry.kept (slots.put key entry) := by
  unfold put
  rw [lasting.expiresAt]
  split
  · next empty =>
    constructor
    · intro other slot found
      rw [Dict.get?_erase] at found
      split at found
      · contradiction
      · exact lasting other slot found
    · rw [Slots.entry?, Dict.get?_erase, if_pos rfl, kept_of_isEmpty empty]
      rfl
    · intro other differ
      rw [Slots.entry?, Dict.get?_erase, if_neg differ.symm]
      rfl
  · next filled =>
    constructor
    · intro other slot found
      rw [Dict.get?_insert] at found
      split at found
      · cases found
        rfl
      · exact lasting other slot found
    · rw [Slots.entry?, Dict.get?_insert, if_pos rfl, kept_of_not_isEmpty (eq_false_of_ne_true filled)]
      rfl
    · intro other differ
      rw [Slots.entry?, Dict.get?_insert, if_neg differ.symm]
      rfl

/-- A write looks at what its key holds. -/
theorem Lasting.write_eq (lasting : slots.Lasting) (now : Nat) (write : Write) :
    slots.write now write = match write.apply? (slots.entry? write.key) with
      | some entry => .ok (slots.put write.key entry)
      | none => .error (.wrongType write.key) := by
  cases applies : write.apply? (slots.entry? write.key) <;> simp only [Slots.write, lasting.purge_eq, applies]

/-- A write that applies to what its key holds is made. -/
theorem Lasting.write_applied (lasting : slots.Lasting) {write : Write} {entry : Entry}
    (applies : write.apply? (slots.entry? write.key) = some entry) (now : Nat) :
    slots.write now write = .ok (slots.put write.key entry) := by
  rw [lasting.write_eq, applies]

/-- A write that is made has applied, and has changed its own key. -/
theorem Lasting.written (lasting : slots.Lasting) {write : Write} {now : Nat} {next : Slots}
    (written : slots.write now write = .ok next) :
    ∃ entry, write.apply? (slots.entry? write.key) = some entry ∧
      slots.Changes write.key entry.kept next := by
  rw [lasting.write_eq] at written
  split at written
  · next entry applies =>
    cases written
    exact ⟨entry, applies, lasting.changes_put _ _⟩
  · contradiction

/-- Where nothing expires, writes leave the same whenever they are made, and nothing expires then. -/
theorem Lasting.always_writeAll (lasting : slots.Lasting) {now : Nat} {writes : List Write} {next : Slots}
    (written : slots.writeAll now writes = .ok next) :
    next.Lasting ∧ ∀ later, slots.writeAll later writes = .ok next := by
  induction writes generalizing slots with
  | nil =>
    cases written
    exact ⟨lasting, fun _ => rfl⟩
  | cons write rest ih =>
    obtain ⟨between, made, behind⟩ := writeAll_cons written
    obtain ⟨_, _, left⟩ := lasting.written made
    obtain ⟨still, always⟩ := ih left.lasting behind
    refine ⟨still, fun later => ?_⟩
    rw [lasting.write_eq] at made
    rw [Slots.writeAll, lasting.write_eq, made]
    exact always later

/-- A member enters a set, which comes into being if there is none. -/
theorem Lasting.addMember (lasting : slots.Lasting) {key : String}
    (held : slots.entry? key = none ∨ ∃ members, slots.entry? key = some (.set members)) (member : String) :
    ∃ members next, (∀ now, slots.write now (.addMember key member) = .ok next) ∧
      slots.Changes key (Entry.set members).kept next := by
  obtain ⟨members, applies⟩ : ∃ members,
      Write.apply? (.addMember key member) (slots.entry? key) = some (.set members) := by
    rcases held with absent | ⟨members, present⟩
    · exact ⟨_, by rw [absent]; rfl⟩
    · exact ⟨_, by rw [present]; rfl⟩
  exact ⟨members, _, lasting.write_applied applies, lasting.changes_put _ _⟩

/-- Values go to the end of a list, one after the other. -/
theorem Lasting.writeAll_append (lasting : slots.Lasting) {key : String} {items : List String}
    (held : slots.entry? key = listed items) (now : Nat) (values : List String) :
    ∃ next, slots.writeAll now (values.map (.append key)) = .ok next ∧
      slots.Changes key (listed (items ++ values)) next := by
  induction values generalizing slots items with
  | nil =>
    refine ⟨slots, rfl, ?_⟩
    rw [List.append_nil, ← held]
    exact lasting.changes key
  | cons value values ih =>
    have applies : Write.apply? (.append key value) (slots.entry? key) = some (.list (items ++ [value])) := by
      rw [held, apply?_append]
    have one := lasting.changes_put key (.list (items ++ [value]))
    obtain ⟨next, written, rest⟩ := ih one.lasting one.entry
    refine ⟨next, ?_, ?_⟩
    · rw [List.map_cons, writeAll, lasting.write_applied applies]
      exact written
    · rw [List.append_cons]
      exact one.trans rest

/-- A list of jobs gives its head. -/
theorem Lasting.takeHead_listed (lasting : slots.Lasting) {key head : String} {rest : List String}
    (held : slots.entry? key = listed (head :: rest)) :
    ∃ next, slots.takeHead key = (some head, next) ∧ slots.Changes key (listed rest) next := by
  refine ⟨slots.put key (.list rest), ?_, lasting.changes_put key _⟩
  unfold takeHead
  rw [held]
  rfl

theorem takeHead_none {key : String} (free : slots.entry? key = none) :
    slots.takeHead key = (none, slots) := by
  unfold takeHead
  rw [free]

/-- Jobs go back to the head of a list. -/
theorem returnWrite_listed {key : String} {items : List String} (held : slots.entry? key = listed items)
    (payload : String) (now : Int) : slots.returnWrite key payload now = .prepend key payload := by
  unfold returnWrite
  rw [held]
  cases items <;> rfl

end Lasting

end Slots

namespace Memory

/-- In a store where nothing expires the type of a key is that of what it holds. -/
theorem perform_keyType {memory : Memory} (lasting : memory.slots.Lasting)
    (available : memory.unavailable = false) (key : String) :
    memory.perform (.keyType key) = (.ok (((memory.entry? key).map Entry.type).getD .absent), memory) := by
  have same : memory.purge key = memory := by
    rw [purge, lasting.purge_eq]
  simp only [perform, available, typeOf, answering, same]
  rfl

/-- In a store where nothing expires a look at a type changes nothing. -/
theorem look {memory : Memory} (lasting : memory.slots.Lasting) (key : String) :
    (memory.perform (.keyType key)).2 = memory := by
  unfold perform
  split
  · rfl
  · change memory.purge key = memory
    rw [purge, lasting.purge_eq]

/-- A transaction makes all of its writes, or it leaves what is held as it is. -/
theorem slots_transaction {property : Slots → Prop} {memory : Memory} (before : property memory.slots)
    {writes : List Write}
    (written : memory.unavailable = false → memory.discardNext = false → ∀ next,
      memory.slots.writeAll memory.clock writes = .ok next → property next) :
    property (memory.perform (.transaction writes)).2.slots := by
  unfold perform
  split
  · exact before
  · next available =>
    simp only [transaction]
    split
    · exact before
    · next undisturbed =>
      split
      · next next made =>
        exact written (eq_false_of_ne_true available) (eq_false_of_ne_true undisturbed) next made
      · exact before

end Memory

end JobQueue
