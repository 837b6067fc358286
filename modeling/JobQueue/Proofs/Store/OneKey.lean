import JobQueue.Store.Memory

/-! # Requests about one key

Most requests name one key. Such a request changes at most what that key holds: every other key holds what
it held, and nothing else about the store changes.
-/

namespace JobQueue

/-- The one key that a request is about, if there is one. -/
def Request.key? : Request → Option String
  | keyType key | get key | setIfAbsent key _ | expire key _ | timeToLive key | delete key
  | compareAndDelete key _ | popInflight key => some key
  | ping | transaction _ | popToInflight _ _ | restoreInflight _ _ | publish _ _ => none

/-- Some slots and the same slots but for those of one key. -/
def Slots.SameBut (key : String) (slots next : Slots) : Prop :=
  ∀ other, other ≠ key → Dict.get? next other = Dict.get? slots other

namespace Slots.SameBut

variable {key : String} {first second third : Slots}

theorem refl (slots : Slots) : Slots.SameBut key slots slots := fun _ _ => rfl

theorem trans (one : Slots.SameBut key first second) (two : Slots.SameBut key second third) :
    Slots.SameBut key first third := fun other differ => (two other differ).trans (one other differ)

theorem insert (slot : Slot) (same : Slots.SameBut key first second) :
    Slots.SameBut key first (Dict.insert second key slot) := by
  intro other differ
  rw [Dict.get?_insert, if_neg differ.symm]
  exact same other differ

theorem erase (same : Slots.SameBut key first second) : Slots.SameBut key first (Dict.erase second key) := by
  intro other differ
  rw [Dict.get?_erase, if_neg differ.symm]
  exact same other differ

theorem purge (now : Nat) (same : Slots.SameBut key first second) :
    Slots.SameBut key first (second.purge now key) := by
  unfold Slots.purge
  split
  · exact same.erase
  · exact same

theorem put (entry : Entry) (same : Slots.SameBut key first second) :
    Slots.SameBut key first (second.put key entry) := by
  unfold Slots.put
  split
  · exact same.erase
  · exact same.insert _

theorem takeHead (same : Slots.SameBut key first second) :
    Slots.SameBut key first (second.takeHead key).2 := by
  unfold Slots.takeHead
  split
  · exact same.put _
  · exact same

end Slots.SameBut

namespace Memory

/-- A request about one key changes at most what that key holds. -/
theorem perform_sameBut {memory : Memory} {request : Request} {key : String}
    (about : request.key? = some key) :
    ∃ slots, (memory.perform request).2 = { memory with slots } ∧ Slots.SameBut key memory.slots slots := by
  have purged : Slots.SameBut key memory.slots (memory.slots.purge memory.clock key) :=
    (Slots.SameBut.refl _).purge _
  unfold perform
  split
  · exact ⟨_, rfl, .refl _⟩
  cases request with
  | keyType name | timeToLive name =>
    cases about
    exact ⟨_, rfl, purged⟩
  | get name =>
    cases about
    simp only [get]
    split <;> exact ⟨_, rfl, purged⟩
  | setIfAbsent name value =>
    cases about
    simp only [answering, setIfAbsent]
    split
    · exact ⟨_, rfl, purged⟩
    · exact ⟨_, rfl, purged.insert _⟩
  | expire name seconds =>
    cases about
    simp only [answering, expire]
    split
    · exact ⟨_, rfl, purged⟩
    · exact ⟨_, rfl, purged.insert _⟩
  | delete name =>
    cases about
    exact ⟨_, rfl, purged.erase⟩
  | compareAndDelete name expected =>
    cases about
    simp only [answering, compareAndDelete]
    split
    · exact ⟨_, rfl, purged.erase⟩
    · exact ⟨_, rfl, purged⟩
  | popInflight name =>
    cases about
    simp only [popInflight]
    split
    · exact ⟨_, rfl, purged.takeHead⟩
    · exact ⟨_, rfl, purged.takeHead⟩
    · exact ⟨_, rfl, purged⟩
  | ping | transaction | popToInflight | restoreInflight | publish => contradiction

end Memory

end JobQueue
