import JobQueue.Store.Memory

/-! # What a key holds when a request looks at it

A key whose time has come is gone for every request that looks at it, whether or not it has been dropped.
`held` is the key as such a request sees it. The requests about one key are described by what they answer
and by what the key holds behind them.
-/

namespace JobQueue

/-- Whether the time of a slot has not come. -/
def Slot.liveAt (slot : Slot) (now : Nat) : Bool :=
  match slot.expiresAt with
  | none => true
  | some time => decide (now < time)

namespace Memory

/-- A key as a request sees it: a slot whose time has not come. -/
def held (memory : Memory) (key : String) : Option Slot :=
  (Dict.get? memory.slots key).filter (Slot.liveAt · memory.clock)

theorem hasExpired_eq (slots : Slots) (now : Nat) (key : String) :
    slots.hasExpired now key = (Dict.get? slots key).any fun slot => !slot.liveAt now := by
  unfold Slots.hasExpired
  cases Dict.get? slots key with
  | none => rfl
  | some slot =>
    obtain ⟨entry, time?⟩ := slot
    cases time? with
    | none => rfl
    | some time => simp [Slot.liveAt, ← decide_not]

/-- A request that looks at a key finds what the key holds, and leaves nothing else there. -/
theorem get?_purge (memory : Memory) (key : String) :
    Dict.get? (memory.purge key).slots key = memory.held key := by
  have expired := hasExpired_eq memory.slots memory.clock key
  rw [held]
  simp only [purge, Slots.purge]
  split
  · next late =>
    rw [Dict.get?_erase, if_pos rfl]
    rw [late] at expired
    cases found : Dict.get? memory.slots key with
    | none => rfl
    | some slot =>
      have dead : slot.liveAt memory.clock = false := by simpa [found] using expired
      simp [Option.filter, dead]
  · next early =>
    rw [eq_false_of_ne_true early] at expired
    cases found : Dict.get? memory.slots key with
    | none => rfl
    | some slot =>
      have live : slot.liveAt memory.clock = true := by simpa [found] using expired
      simp [Option.filter, live]

theorem entry?_purge (memory : Memory) (key : String) :
    Memory.entry? (memory.purge key) key = (memory.held key).map Slot.entry := by
  rw [Memory.entry?, Slots.entry?, get?_purge]

theorem entry?_purge_of_held {memory : Memory} {key : String} {slot? : Option Slot}
    (held : memory.held key = slot?) : Memory.entry? (memory.purge key) key = slot?.map Slot.entry := by
  rw [Memory.entry?, Slots.entry?, get?_purge, held]

theorem held_of_get? {memory : Memory} {key : String} {slot? : Option Slot}
    (found : Dict.get? memory.slots key = slot?)
    (live : ∀ slot, slot? = some slot → slot.liveAt memory.clock = true) :
    memory.held key = slot? := by
  rw [held, found]
  cases slot? with
  | none => rfl
  | some slot => simp [Option.filter, live slot rfl]

/-- What is held has not expired. -/
theorem live_of_held {memory : Memory} {key : String} {slot : Slot} (held : memory.held key = some slot) :
    slot.liveAt memory.clock = true := by
  rw [Memory.held, Option.filter_eq_some_iff] at held
  exact held.2

@[simp] theorem held_purge (memory : Memory) (key : String) : (memory.purge key).held key = memory.held key :=
  held_of_get? (get?_purge memory key) fun _ => live_of_held

/-- While the time of a slot has not come, time changes nothing. -/
theorem held_advance {memory : Memory} {key : String} {slot : Slot} (held : memory.held key = some slot)
    {millis : Nat} (live : slot.liveAt (memory.clock + millis) = true) :
    (memory.advance millis).held key = some slot := by
  rw [Memory.held, Option.filter_eq_some_iff] at held
  refine held_of_get? held.1 ?_
  rintro _ ⟨⟩
  exact live

/-- When its time has come a slot is gone. -/
theorem held_advance_none {memory : Memory} {key : String} {slot : Slot} (held : memory.held key = some slot)
    {millis : Nat} (expired : slot.liveAt (memory.clock + millis) = false) :
    (memory.advance millis).held key = none := by
  rw [Memory.held, Option.filter_eq_some_iff] at held
  rw [Memory.held, Option.filter_eq_none_iff]
  intro other found
  cases held.1.symm.trans found
  exact Bool.not_eq_true _ ▸ expired

/-- Time only takes away. -/
theorem held_advance_or (memory : Memory) (key : String) (millis : Nat) :
    (memory.advance millis).held key = memory.held key ∨ (memory.advance millis).held key = none := by
  cases later : (memory.advance millis).held key with
  | none => exact .inr rfl
  | some slot =>
    rw [held, Option.filter_eq_some_iff] at later
    obtain ⟨found, live⟩ := later
    have now : memory.held key = some slot := by
      refine held_of_get? found ?_
      intro other same
      cases same
      obtain ⟨entry, time?⟩ := slot
      cases time? with
      | none => rfl
      | some time =>
        have before : memory.clock + millis < time := of_decide_eq_true live
        exact decide_eq_true (by omega)
    exact .inl now.symm

/-- Nothing has changed but what is held and what was sent; an order to discard a transaction may be done. -/
structure Framed (memory after : Memory) : Prop where
  clock : after.clock = memory.clock
  unavailable : after.unavailable = memory.unavailable
  discardNext : after.discardNext = true → memory.discardNext = true

/-- Requests take no time, do not change whether the store can be reached, and order nothing. -/
theorem framed_perform (memory : Memory) (request : Request) : memory.Framed (memory.perform request).2 := by
  unfold perform
  split
  · exact ⟨rfl, rfl, id⟩
  cases request with
  | transaction writes =>
    simp only [transaction]
    split
    · exact ⟨rfl, rfl, Bool.noConfusion⟩
    · split <;> exact ⟨rfl, rfl, id⟩
  | _ =>
    simp only [answering, typeOf, get, setIfAbsent, expire, timeToLive, delete, compareAndDelete,
      popToInflight, popInflight, restoreInflight, publish]
    (repeat' split) <;> exact ⟨rfl, rfl, id⟩

theorem clock_perform (memory : Memory) (request : Request) :
    (memory.perform request).2.clock = memory.clock :=
  (framed_perform memory request).clock

theorem unavailable_perform (memory : Memory) (request : Request) :
    (memory.perform request).2.unavailable = memory.unavailable :=
  (framed_perform memory request).unavailable

/-- Out of reach, a store refuses every request and stays as it is. -/
theorem perform_unavailable {memory : Memory} (unavailable : memory.unavailable = true) (request : Request) :
    memory.perform request = (.error .refused, memory) := by
  unfold perform
  rw [if_pos unavailable]

/-- A request succeeds with an answer, and a key holds something behind it. -/
structure Answers (memory : Memory) (request : Request) (answer : request.Reply) (key : String)
    (slot? : Option Slot) : Prop where
  answer : (memory.perform request).1 = .ok answer
  held : (memory.perform request).2.held key = slot?

section Requests

variable {memory : Memory} {key : String}

/-- A request that only looks at a key leaves there what the key holds. -/
theorem Answers.of_purge {request : Request} {answer : request.Reply} {slot? : Option Slot}
    (held : memory.held key = slot?) (performed : memory.perform request = (.ok answer, memory.purge key)) :
    memory.Answers request answer key slot? where
  answer := congrArg Prod.fst performed
  held := by rw [performed, held_purge, held]

/-- A request is answered, and behind it a key holds what does not expire yet. -/
theorem Answers.of_get? {request : Request} {answer : request.Reply} {after : Memory} {slot? : Option Slot}
    (performed : memory.perform request = (.ok answer, after))
    (found : Dict.get? after.slots key = slot?)
    (live : ∀ slot, slot? = some slot → slot.liveAt after.clock = true) :
    memory.Answers request answer key slot? where
  answer := congrArg Prod.fst performed
  held := by rw [performed, held_of_get? found live]

theorem answers_get_none (available : memory.unavailable = false) (free : memory.held key = none) :
    memory.Answers (.get key) none key none := by
  have entry := entry?_purge_of_held free
  apply Answers.of_purge free
  simp only [perform, available, get, entry, Option.map_none]
  rfl

theorem answers_get (available : memory.unavailable = false) {value : String} {time? : Option Nat}
    (held : memory.held key = some ⟨.string value, time?⟩) :
    memory.Answers (.get key) (some value) key (some ⟨.string value, time?⟩) := by
  have entry := entry?_purge_of_held held
  apply Answers.of_purge held
  simp only [perform, available, get, entry, Option.map_some]
  rfl

theorem answers_setIfAbsent (available : memory.unavailable = false) (free : memory.held key = none)
    (value : String) : memory.Answers (.setIfAbsent key value) true key (some ⟨.string value, none⟩) := by
  have entry := entry?_purge_of_held free
  have performed : memory.perform (.setIfAbsent key value) =
      (.ok true, (memory.purge key).setString key value) := by
    simp only [perform, available, answering, setIfAbsent, entry, Option.map_none]
    rfl
  apply Answers.of_get? performed
  · rw [setString, Dict.get?_insert, if_pos rfl]
  · rintro _ ⟨⟩
    rfl

theorem answers_setIfAbsent_held (available : memory.unavailable = false) {slot : Slot}
    (held : memory.held key = some slot) (value : String) :
    memory.Answers (.setIfAbsent key value) false key (some slot) := by
  have entry := entry?_purge_of_held held
  apply Answers.of_purge held
  simp only [perform, available, answering, setIfAbsent, entry, Option.map_some]
  rfl

/-- A key that is held gets its time to live, whoever asks for it. -/
theorem answers_expire (available : memory.unavailable = false) {slot : Slot}
    (held : memory.held key = some slot) {seconds : Nat} (positive : 0 < seconds) :
    memory.Answers (.expire key seconds) true key
      (some ⟨slot.entry, some (memory.clock + seconds * 1000)⟩) := by
  have entry := entry?_purge_of_held held
  have performed : memory.perform (.expire key seconds) = (.ok true, { memory.purge key with
      slots := Dict.insert (memory.purge key).slots key
        ⟨slot.entry, some (memory.clock + seconds * 1000)⟩ }) := by
    simp only [perform, available, answering, expire, entry, Option.map_some]
    rfl
  apply Answers.of_get? performed
  · rw [Dict.get?_insert, if_pos rfl]
  · rintro _ ⟨⟩
    have later : memory.clock < memory.clock + seconds * 1000 := by omega
    simpa [Slot.liveAt, purge] using later

theorem answers_expire_none (available : memory.unavailable = false) (free : memory.held key = none)
    (seconds : Nat) : memory.Answers (.expire key seconds) false key none := by
  have entry := entry?_purge_of_held free
  apply Answers.of_purge free
  simp only [perform, available, answering, expire, entry, Option.map_none]
  rfl

/-- A key that is looked at is not changed. -/
theorem held_perform_get (memory : Memory) (key : String) :
    (memory.perform (.get key)).2.held key = memory.held key := by
  unfold perform
  split
  · rfl
  · simp only [get]
    split <;> exact held_purge memory key

/-- Only the holder that a string names is found. -/
theorem entry_of_get {value : String} (found : (memory.perform (.get key)).1 = .ok (some value)) :
    (memory.held key).map Slot.entry = some (.string value) := by
  unfold perform at found
  split at found
  · contradiction
  · simp only [get] at found
    rw [← entry?_purge]
    split at found
    · cases found
    · next value entry =>
      cases found
      exact entry
    · contradiction

/-- What a key that may be held says about its time. -/
theorem answers_timeToLive (available : memory.unavailable = false) :
    memory.Answers (.timeToLive key) (match memory.held key with
      | none => .missing
      | some ⟨_, none⟩ => .persistent
      | some ⟨_, some time⟩ => .expires ((time - memory.clock + 999) / 1000)) key (memory.held key) := by
  apply Answers.of_purge rfl
  simp only [perform, available, answering, timeToLive, get?_purge]
  rfl

theorem answers_compareAndDelete (available : memory.unavailable = false) {value : String}
    {time? : Option Nat} (held : memory.held key = some ⟨.string value, time?⟩) :
    memory.Answers (.compareAndDelete key value) true key none := by
  have entry := entry?_purge_of_held held
  have performed : memory.perform (.compareAndDelete key value) =
      (.ok true, { memory.purge key with slots := Dict.erase (memory.purge key).slots key }) := by
    simp only [perform, available, answering, compareAndDelete, entry, Option.map_some]
    rfl
  apply Answers.of_get? performed
  · rw [Dict.get?_erase, if_pos rfl]
  · intro slot found
    contradiction

theorem answers_compareAndDelete_other (available : memory.unavailable = false) {expected : String}
    (other : (memory.held key).map Slot.entry ≠ some (.string expected)) :
    memory.Answers (.compareAndDelete key expected) false key (memory.held key) := by
  have entry := entry?_purge memory key
  apply Answers.of_purge rfl
  simp only [perform, available, answering, compareAndDelete, entry]
  rw [if_neg other]
  rfl

end Requests

end Memory

end JobQueue
