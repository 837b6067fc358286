import JobQueue.Proofs.Store.Containers
import JobQueue.Proofs.Store.Expiry

/-! # Writes that take back other writes

A write changes what its key holds, and the key goes on to expire when it was to expire, unless the write leaves
a container empty, which then goes. So the effect of a write on a key is known with the time to live. What has
been put into a container where it was not is taken out again without a trace: a container that was there is as
it was, and one that was not is gone.
-/

namespace JobQueue

open Function (update update_self update_of_ne update_idem update_eq_self)

/-- What each key holds, with the time that it has to live. -/
abbrev Holdings := String → Option Slot

/-- What a key holds after a write, given what it held before; none if the write applies to another type. -/
def Write.leave? (write : Write) (slot? : Option Slot) : Option (Option Slot) :=
  Option.map (fun entry => entry.kept.map (Slot.mk · (slot?.bind Slot.expiresAt))) <|
    write.apply? (slot?.map Slot.entry)

/-- What a key holds of an entry without a time to live. -/
def Entry.forGood (entry : Entry) : Option Slot := entry.kept.map (Slot.mk · none)

theorem Entry.map_forGood (entry : Entry) : entry.forGood.map Slot.entry = entry.kept := by
  rw [forGood]
  cases entry.kept <;> rfl

/-- Time does not take away what is held for good. -/
theorem Entry.filter_forGood (entry : Entry) (now : Nat) :
    entry.forGood.filter (Slot.liveAt · now) = entry.forGood := by
  rw [forGood]
  cases entry.kept <;> rfl

/-- What is held for good is held for good behind a write. -/
theorem Write.leave?_forGood {write : Write} {entry later : Entry} (applies : write.apply? entry.kept = some later) :
    write.leave? entry.forGood = some later.forGood := by
  have lasts : entry.forGood.bind Slot.expiresAt = none := by
    rw [Entry.forGood]
    cases entry.kept <;> rfl
  rw [leave?, Entry.map_forGood, applies, lasts]
  rfl

namespace Holdings

/-- What the keys hold after a write. -/
def write? (held : Holdings) (write : Write) : Option Holdings :=
  (write.leave? (held write.key)).map (update held write.key)

/-- What the keys hold after some writes, one after the other. -/
def writeAll? (held : Holdings) (writes : List Write) : Option Holdings := writes.foldlM write? held

end Holdings

/-! ## Writes to a store -/

namespace Slots

variable {slots next : Slots} {now : Nat}

/-- A write is made or not, and leaves what it leaves, as its key holds something or not. -/
theorem write_eq (slots : Slots) (now : Nat) (write : Write) :
    (∃ next, slots.write now write = .ok next ∧ Holdings.write? (slots.held now) write = some (next.held now)) ∨
      slots.write now write = .error (.wrongType write.key) ∧ Holdings.write? (slots.held now) write = none := by
  have found : Slots.entry? (slots.purge now write.key) write.key = (slots.held now write.key).map Slot.entry :=
    congrArg (Option.map Slot.entry) (get?_purge slots now write.key)
  rw [Slots.write, found, Holdings.write?, Write.leave?]
  cases applied : write.apply? ((slots.held now write.key).map Slot.entry) with
  | none => exact .inr ⟨rfl, rfl⟩
  | some entry =>
    refine .inl ⟨_, rfl, ?_⟩
    rw [held_put fun _ => live_purge, held_purge, get?_purge]
    rfl

/-- Writes are made if and only if they apply one after the other, and they leave what they leave. -/
theorem writeAll_iff {writes : List Write} {after : Holdings} :
    Holdings.writeAll? (slots.held now) writes = some after ↔
      ∃ next, slots.writeAll now writes = .ok next ∧ next.held now = after := by
  induction writes generalizing slots with
  | nil => exact ⟨fun same => ⟨slots, rfl, Option.some.inj same⟩, by rintro ⟨_, ⟨⟩, rfl⟩; rfl⟩
  | cons write rest ih =>
    rw [Holdings.writeAll?, List.foldlM_cons, Slots.writeAll]
    rcases slots.write_eq now write with ⟨next, made, left⟩ | ⟨failed, misfit⟩
    · rw [made, left]
      exact ih
    · rw [failed, misfit]
      exact iff_of_false (Option.some_ne_none _).symm (by rintro ⟨_, ⟨⟩, _⟩)

end Slots

/-! ## What is taken back -/

/-- What has been put under a new key is taken out again. -/
theorem Dict.erase_insert {α : Type} {dict : Dict α} {key : String} (new : Dict.get? dict key = none) (value : α) :
    Dict.erase (Dict.insert dict key value) key = dict := by
  induction dict with
  | nil => simp [Dict.insert, Dict.erase]
  | cons entry rest ih =>
    obtain ⟨name, old⟩ := entry
    rw [Dict.get?_cons] at new
    split at new
    · contradiction
    · next other =>
      rw [Dict.insert, if_neg other, Dict.erase, List.filter_cons, if_pos (bne_iff_ne.mpr other)]
      exact congrArg _ (ih new)

/-- A write that takes back what another has made of an entry. -/
structure Write.Undoes (undo write : Write) (held? : Option Entry) : Prop where
  key : undo.key = write.key
  /-- What the other leaves is not empty. -/
  kept : ∀ entry, write.apply? held? = some entry → entry.kept = some entry
  back : ∀ entry, write.apply? held? = some entry →
    ∃ before, undo.apply? (some entry) = some before ∧ before.kept = held?

namespace Write

variable {held? : Option Entry} {key member : String}

/-- A member that is scheduled and taken out again leaves no trace. -/
theorem unschedule_undoes (filled : ∀ entry ∈ held?, entry.isEmpty = false)
    (new : ∀ scores, held? = some (.sortedSet scores) → Dict.get? scores member = none) (score : Binary64) :
    (unschedule key member).Undoes (schedule key score member) held? where
  key := rfl
  kept entry scheduled := by
    rw [Contents.apply?_eq] at scheduled
    obtain ⟨scores, -, rfl⟩ := Option.map_eq_some_iff.mp scheduled
    exact kept_schedule ..
  back entry scheduled := by
    cases held? with
    | none =>
      cases scheduled
      refine ⟨.sortedSet [], ?_, rfl⟩
      exact congrArg (some ∘ Entry.sortedSet) (@Dict.erase_insert _ [] member rfl score)
    | some held =>
      cases held with
      | sortedSet scores =>
        cases scheduled
        refine ⟨.sortedSet scores, ?_, kept_of_not_isEmpty (filled _ rfl)⟩
        exact congrArg (some ∘ Entry.sortedSet) (Dict.erase_insert (new scores rfl) score)
      | _ => contradiction

/-- A field that is bound and dropped again leaves no trace. -/
theorem dropField_undoes (filled : ∀ entry ∈ held?, entry.isEmpty = false)
    (new : ∀ fields, held? = some (.hash fields) → Dict.get? fields member = none) (value : String) :
    (dropField key member).Undoes (setField key member value) held? where
  key := rfl
  kept entry bound := by
    rw [Contents.apply?_eq] at bound
    obtain ⟨fields, -, rfl⟩ := Option.map_eq_some_iff.mp bound
    exact kept_setField ..
  back entry bound := by
    cases held? with
    | none =>
      cases bound
      refine ⟨.hash [], ?_, rfl⟩
      exact congrArg (some ∘ Entry.hash) (@Dict.erase_insert _ [] member rfl value)
    | some held =>
      cases held with
      | hash fields =>
        cases bound
        refine ⟨.hash fields, ?_, kept_of_not_isEmpty (filled _ rfl)⟩
        exact congrArg (some ∘ Entry.hash) (Dict.erase_insert (new fields rfl) value)
      | _ => contradiction

end Write

namespace Holdings

variable {held after : Holdings} {write undo : Write}

/-- A write that leaves no empty container leaves its key with what it has made of it. -/
theorem held_of_write? (made : held.write? write = some after)
    (kept : ∀ entry, write.apply? ((held write.key).map Slot.entry) = some entry → entry.kept = some entry) :
    ∃ entry, write.apply? ((held write.key).map Slot.entry) = some entry ∧
      after = update held write.key (some ⟨entry, (held write.key).bind Slot.expiresAt⟩) := by
  obtain ⟨left, leaves, rfl⟩ := Option.map_eq_some_iff.mp made
  obtain ⟨entry, applied, rfl⟩ := Option.map_eq_some_iff.mp leaves
  refine ⟨entry, applied, ?_⟩
  rw [kept entry applied]
  rfl

/-- What a write has made of its key is taken back, and the key has the time to live that it had. -/
theorem write?_undone (made : held.write? write = some after)
    (undoes : undo.Undoes write ((held write.key).map Slot.entry)) : after.write? undo = some held := by
  obtain ⟨entry, applied, rfl⟩ := held_of_write? made undoes.kept
  obtain ⟨before, taken, same⟩ := undoes.back entry applied
  have still : before.kept.map (Slot.mk · ((held write.key).bind Slot.expiresAt)) = held write.key := by
    rw [same]
    cases held write.key <;> rfl
  rw [write?, undoes.key, update_self, Write.leave?, Option.map_some, taken, Option.map_some, Option.map_some,
    Option.bind_some, still, update_idem, update_eq_self]

/-- A write changes its own key only. -/
theorem write?_other (made : held.write? write = some after) {key : String} (other : key ≠ write.key) :
    after key = held key := by
  obtain ⟨left, -, rfl⟩ := Option.map_eq_some_iff.mp made
  exact update_of_ne other ..

theorem writeAll?_cons {rest : List Write} :
    held.writeAll? (write :: rest) = some after ↔
      ∃ between, held.write? write = some between ∧ between.writeAll? rest = some after := by
  rw [writeAll?, List.foldlM_cons]
  exact Option.bind_eq_some_iff

/-- Writes change their own keys only. -/
theorem writeAll?_other {writes : List Write} (made : held.writeAll? writes = some after) {key : String}
    (others : ∀ write ∈ writes, key ≠ write.key) : after key = held key := by
  induction writes generalizing held with
  | nil =>
    cases made
    rfl
  | cons write rest ih =>
    obtain ⟨own, others⟩ := List.forall_mem_cons.mp others
    obtain ⟨between, first, behind⟩ := writeAll?_cons.mp made
    exact (ih behind others).trans (write?_other first own)

/-- Writes are made behind others. -/
theorem writeAll?_append (held : Holdings) (first second : List Write) :
    held.writeAll? (first ++ second) = (held.writeAll? first).bind (writeAll? · second) :=
  List.foldlM_append

end Holdings

end JobQueue
