import JobQueue.Proofs.Store.Contents

/-! # No empty container is stored

A container that runs empty is removed at once, by whatever request takes the last of its elements. So a key
that holds no element is a key that holds nothing, and its type is that of a missing key.
-/

namespace JobQueue

/-- What a container holds. A string is its own only element, and a hash holds its fields. -/
def Entry.elements : Entry → List String
  | string value => [value]
  | list items => items
  | set members => members
  | sortedSet scores => Dict.keys scores
  | hash fields => Dict.keys fields

theorem Entry.elements_eq_nil_iff (entry : Entry) : entry.elements = [] ↔ entry.isEmpty = true := by
  cases entry <;> simp [elements, isEmpty, Dict.keys]

theorem Dict.mem_of_mem_insert {α : Type} {dict : Dict α} {key : String} {value : α} {entry : String × α}
    (member : entry ∈ Dict.insert dict key value) : entry.2 = value ∨ entry ∈ dict := by
  induction dict with
  | nil =>
    cases List.mem_singleton.mp member
    exact .inl rfl
  | cons head rest ih =>
    rw [insert] at member
    split at member
    all_goals rcases List.mem_cons.mp member with rfl | later
    · exact .inl rfl
    · exact .inr (List.mem_cons_of_mem _ later)
    · exact .inr List.mem_cons_self
    · exact (ih later).imp_right (List.mem_cons_of_mem _)

namespace Slots

/-- No key holds an empty container, be it expired or not. -/
def Filled (slots : Slots) : Prop := ∀ entry ∈ slots, entry.2.entry.isEmpty = false

theorem filled_nil : Filled [] := List.forall_mem_nil _

namespace Filled

variable {slots : Slots}

theorem isEmpty_of_get? (filled : slots.Filled) {key : String} {slot : Slot}
    (found : Dict.get? slots key = some slot) : slot.entry.isEmpty = false :=
  filled _ (Dict.mem_of_get? found)

theorem erase (filled : slots.Filled) (key : String) : Slots.Filled (Dict.erase slots key) :=
  fun entry member => filled entry (List.mem_filter.mp member).1

theorem insert (filled : slots.Filled) (key : String) {slot : Slot} (some : slot.entry.isEmpty = false) :
    Slots.Filled (Dict.insert slots key slot) := by
  intro entry member
  rcases Dict.mem_of_mem_insert member with same | old
  · rw [same]
    exact some
  · exact filled entry old

theorem purge (filled : slots.Filled) (now : Nat) (key : String) : (slots.purge now key).Filled := by
  unfold Slots.purge
  split
  · exact filled.erase key
  · exact filled

/-- Whatever is put at a key, it is removed if it is empty. -/
theorem put (filled : slots.Filled) (key : String) (entry : Entry) : (slots.put key entry).Filled := by
  unfold Slots.put
  split
  · exact filled.erase key
  · next some => exact filled.insert key (eq_false_of_ne_true some)

theorem write (filled : slots.Filled) {now : Nat} {write : Write} {next : Slots}
    (written : slots.write now write = .ok next) : next.Filled := by
  simp only [Slots.write] at written
  split at written
  · cases written
    exact (filled.purge now write.key).put _ _
  · contradiction

theorem writeAll (filled : slots.Filled) {now : Nat} {writes : List Write} {next : Slots}
    (written : slots.writeAll now writes = .ok next) : next.Filled := by
  induction writes generalizing slots with
  | nil =>
    cases written
    exact filled
  | cons write rest ih =>
    obtain ⟨between, first, behind⟩ := writeAll_cons written
    exact ih (filled.write first) behind

theorem takeHead (filled : slots.Filled) {key : String} {head? : Option String} {next : Slots}
    (taken : slots.takeHead key = (head?, next)) : next.Filled := by
  obtain rfl : (slots.takeHead key).2 = next := congrArg Prod.snd taken
  unfold Slots.takeHead
  split
  · exact filled.put _ _
  · exact filled

theorem takeReady (filled : slots.Filled) {route : Route} {now : Int} {payload? : Option String} {next : Slots}
    (taken : slots.takeReady route now = (payload?, next)) : next.Filled := by
  obtain rfl : (slots.takeReady route now).2 = next := congrArg Prod.snd taken
  unfold Slots.takeReady
  split
  · split
    · exact filled
    · exact filled.put _ _
  · exact filled.put _ _
  · exact filled

end Filled

end Slots

namespace Memory

variable {memory : Memory}

/-- A request leaves no empty container behind, whether it succeeds or fails, and also if it names one key in
several roles. -/
theorem filled_perform (filled : memory.slots.Filled) (request : Request) :
    (memory.perform request).2.slots.Filled := by
  have purged (key : String) : (memory.slots.purge memory.clock key).Filled := filled.purge _ key
  unfold perform
  split
  · exact filled
  cases request with
  | ping | publish => exact filled
  | keyType key | timeToLive key => exact purged key
  | get key =>
    simp only [get]
    split <;> exact purged key
  | setIfAbsent key value =>
    simp only [answering, setIfAbsent]
    split
    · exact purged key
    · exact (purged key).insert key rfl
  | expire key seconds =>
    simp only [answering, expire]
    split
    · exact purged key
    · next entry found =>
      obtain ⟨slot, stored, rfl⟩ := Option.map_eq_some_iff.mp found
      have some : slot.entry.isEmpty = false := (purged key).isEmpty_of_get? stored
      exact (purged key).insert key some
  | delete key => exact (purged key).erase key
  | compareAndDelete key expected =>
    simp only [answering, compareAndDelete]
    split
    · exact (purged key).erase key
    · exact purged key
  | transaction writes =>
    simp only [transaction]
    split
    · exact filled
    · split
      · next slots written => exact filled.writeAll written
      · exact filled
  | popToInflight route now =>
    have looked := (purged route.queue).purge memory.clock route.recurring
    simp only [popToInflight]
    split
    · next slots taken => exact looked.takeReady taken
    · next payload slots taken =>
      have left := looked.takeReady taken
      split
      · next next written => exact left.write written
      · exact left
  | popInflight key =>
    simp only [popInflight]
    split
    · exact (purged key).takeHead rfl
    · exact (purged key).takeHead rfl
    · exact purged key
  | restoreInflight route now =>
    simp only [restoreInflight]
    split
    · next slots taken => exact (purged route.inflight).takeHead taken
    · next payload slots taken =>
      have left := (purged route.inflight).takeHead taken
      split
      · exact left
      · have looked := left.purge memory.clock route.queue
        split
        · next next written => exact looked.write written
        · exact looked

/-! ## Runs -/

/-- What happens to a store: a request, time, or something that is arranged for it. -/
inductive Occurrence where
  | request (request : Request)
  | wait (millis : Nat)
  | look (key : String)
  | string (key value : String)
  | subscribers (channel : String) (count : Nat)
  | reachable (reachable : Bool)
  | discardNext

/-- The store behind an occurrence. -/
def occur (memory : Memory) : Occurrence → Memory
  | .request request => (memory.perform request).2
  | .wait millis => memory.advance millis
  | .look key => (memory.typeOf key).2
  | .string key value => memory.setString key value
  | .subscribers channel count => memory.setSubscribers channel count
  | .reachable reachable => { memory with unavailable := !reachable }
  | .discardNext => { memory with discardNext := true }

/-- The store behind some occurrences, one after the other. -/
def occurAll (memory : Memory) (occurrences : List Occurrence) : Memory := occurrences.foldl occur memory

theorem filled_occur (filled : memory.slots.Filled) (occurrence : Occurrence) :
    (memory.occur occurrence).slots.Filled := by
  cases occurrence with
  | request request => exact filled_perform filled request
  | wait | subscribers | reachable | discardNext => exact filled
  | look key => exact filled.purge _ key
  | string key value => exact filled.insert key rfl

theorem filled_occurAll (filled : memory.slots.Filled) (occurrences : List Occurrence) :
    (memory.occurAll occurrences).slots.Filled := by
  induction occurrences generalizing memory with
  | nil => exact filled
  | cons occurrence rest ih => exact ih (filled_occur filled occurrence)

/-! ## Types and elements -/

/-- The elements that a key holds, as requests see it. -/
def elements (memory : Memory) (key : String) : List String :=
  ((memory.contents key).map Entry.elements).getD []

theorem typeOf_eq (memory : Memory) (key : String) :
    (memory.typeOf key).1 = ((memory.contents key).map Entry.type).getD .absent :=
  congrArg (fun held => (Option.map Entry.type held).getD .absent) (entry?_purge memory key)

theorem isEmpty_of_contents (filled : memory.slots.Filled) {key : String} {entry : Entry}
    (found : memory.contents key = some entry) : entry.isEmpty = false := by
  obtain ⟨slot, held, rfl⟩ := Option.map_eq_some_iff.mp found
  exact filled.isEmpty_of_get? (Option.filter_eq_some_iff.mp held).1

/-- With no empty container stored, a key without elements holds nothing. -/
theorem elements_eq_nil_iff (filled : memory.slots.Filled) (key : String) :
    memory.elements key = [] ↔ memory.contents key = none := by
  rw [elements]
  cases found : memory.contents key with
  | none => exact iff_of_true rfl rfl
  | some entry => simp [Entry.elements_eq_nil_iff, isEmpty_of_contents filled found]

theorem typeOf_eq_absent_iff (memory : Memory) (key : String) :
    (memory.typeOf key).1 = .absent ↔ memory.contents key = none := by
  rw [typeOf_eq]
  cases memory.contents key with
  | none => exact iff_of_true rfl rfl
  | some entry => cases entry <;> simp [Entry.type]

end Memory

end JobQueue
