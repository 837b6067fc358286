import Mathlib.Logic.Function.Basic
import JobQueue.Proofs.Store.Held
import JobQueue.Proofs.Store.Lasting
import JobQueue.Proofs.Store.OneKey

/-! # What a store holds, key by key

The contents of a store are what each of its keys holds, as requests see it: a key whose time has come holds
nothing. A write changes the contents of its own key, whatever else is in the store and whatever expires; so
a transaction is known by what its writes do to contents one after the other.
-/

namespace JobQueue

open Function (update update_self update_of_ne update_idem)

/-- What each key holds. -/
abbrev Contents := String → Option Entry

/-- What the keys of some slots hold at a time, as requests see it, with the time that it has to live. -/
def Slots.held (slots : Slots) (now : Nat) (key : String) : Option Slot :=
  (Dict.get? slots key).filter (Slot.liveAt · now)

/-- What the keys of some slots hold at a time. -/
def Slots.contents (slots : Slots) (now : Nat) : Contents :=
  fun key => ((Dict.get? slots key).filter (Slot.liveAt · now)).map Slot.entry

/-- What the keys of a store hold, as requests see it. -/
def Memory.contents (memory : Memory) : Contents := memory.slots.contents memory.clock

/-- Looking at a key changes no key as requests see it. -/
theorem Memory.held_look (memory : Memory) (key : String) : (memory.purge key).held = memory.held := by
  funext other
  by_cases same : other = key
  · subst same
    exact held_purge memory other
  · have unchanged := (Slots.SameBut.refl memory.slots).purge memory.clock other same
    exact congrArg (Option.filter _) unchanged

namespace Slots

variable {slots next : Slots} {now : Nat} {key : String}

theorem contents_eq (slots : Slots) (now : Nat) (key : String) :
    slots.contents now key = (slots.held now key).map Slot.entry := rfl

theorem held_purge (slots : Slots) (now : Nat) (key : String) :
    (slots.purge now key).held now = slots.held now :=
  Memory.held_look { slots, clock := now } key

/-- Of what a key holds, time leaves what has still time to live. -/
theorem held_later {later : Nat} (since : now ≤ later) (slots : Slots) (key : String) :
    slots.held later key = (slots.held now key).filter (Slot.liveAt · later) := by
  have still {slot : Slot} (live : slot.liveAt later = true) : slot.liveAt now = true := by
    obtain ⟨entry, time?⟩ := slot
    cases time? with
    | none => rfl
    | some time =>
      have before : later < time := of_decide_eq_true live
      exact decide_eq_true (by omega)
  rw [held, held, Option.filter_filter]
  congr 1
  funext slot
  rw [Bool.eq_iff_iff, Bool.and_eq_true]
  exact ⟨fun live => ⟨still live, live⟩, And.right⟩

/-- A key that has been looked at holds what requests see there. -/
theorem get?_purge (slots : Slots) (now : Nat) (key : String) :
    Dict.get? (slots.purge now key) key = slots.held now key :=
  Memory.get?_purge { slots, clock := now } key

/-- A key that has been looked at holds no more than can be seen. -/
theorem live_purge {slot : Slot} (found : Dict.get? (slots.purge now key) key = some slot) :
    slot.liveAt now = true :=
  (Option.filter_eq_some_iff.mp ((get?_purge slots now key).symm.trans found)).2

/-- Looking at a key does not change what any key holds. -/
theorem contents_purge (slots : Slots) (now : Nat) (key : String) :
    (slots.purge now key).contents now = slots.contents now := by
  funext other
  exact congrArg (Option.map Slot.entry) (congrFun (held_purge slots now key) other)

/-- What is found at a key that has been looked at is what the key holds. -/
theorem entry?_purge (slots : Slots) (now : Nat) (key : String) :
    Slots.entry? (slots.purge now key) key = slots.contents now key :=
  congrArg (Option.map Slot.entry) (get?_purge slots now key)

/-- What is put at a key is what the key holds, unless it is empty, for as long as it was to hold something. -/
theorem held_put (live : ∀ slot, Dict.get? slots key = some slot → slot.liveAt now = true) (entry : Entry) :
    (slots.put key entry).held now =
      update (slots.held now) key (entry.kept.map (Slot.mk · ((Dict.get? slots key).bind Slot.expiresAt))) := by
  funext other
  by_cases same : other = key
  · subst same
    rw [update_self, held, put]
    split
    · next empty =>
      rw [Dict.get?_erase, if_pos rfl, kept_of_isEmpty empty]
      rfl
    · next filled =>
      rw [Dict.get?_insert, if_pos rfl, kept_of_not_isEmpty (eq_false_of_ne_true filled)]
      have still : Slot.liveAt ⟨entry, (Dict.get? slots other).bind Slot.expiresAt⟩ now = true := by
        cases found : Dict.get? slots other with
        | none => rfl
        | some slot => exact live slot found
      rw [Option.filter_some, if_pos still]
      rfl
  · rw [update_of_ne same, held, held, (SameBut.refl slots).put entry other same]

/-- What is put at a key is what the key holds, unless it is empty. -/
theorem contents_put (live : ∀ slot, Dict.get? slots key = some slot → slot.liveAt now = true)
    (entry : Entry) : (slots.put key entry).contents now = update (slots.contents now) key entry.kept := by
  funext other
  rw [contents_eq, held_put live]
  by_cases same : other = key
  · subst same
    rw [update_self, update_self]
    cases entry.kept <;> rfl
  · rw [update_of_ne same, update_of_ne same, contents_eq]

end Slots

namespace Contents

/-- What the keys hold after a write; none if the write applies to another type. -/
def write? (contents : Contents) (write : Write) : Option Contents :=
  Option.map (fun entry => update contents write.key entry.kept) <| write.apply? (contents write.key)

/-- What the keys hold after some writes, one after the other. -/
def writeAll? (contents : Contents) (writes : List Write) : Option Contents :=
  writes.foldlM write? contents

end Contents

namespace Slots

variable {slots next : Slots} {now : Nat}

/-- A write that is made has applied to what its key held, and has changed what that key holds. -/
theorem contents_write {write : Write} (written : slots.write now write = .ok next) :
    (slots.contents now).write? write = some (next.contents now) := by
  rw [Slots.write, entry?_purge] at written
  split at written
  · next entry applies =>
    cases written
    rw [Contents.write?, applies, contents_put fun _ found => live_purge found, contents_purge]
    rfl
  · contradiction

/-- A write is made if it applies to what its key holds. -/
theorem write_of_contents {write : Write} {after : Contents}
    (applies : (slots.contents now).write? write = some after) :
    ∃ next, slots.write now write = .ok next ∧ next.contents now = after := by
  obtain ⟨entry, applied, -⟩ := Option.map_eq_some_iff.mp applies
  have written : slots.write now write = .ok ((slots.purge now write.key).put write.key entry) := by
    rw [Slots.write, entry?_purge, applied]
  have effect := contents_write written
  rw [applies] at effect
  exact ⟨_, written, (Option.some.inj effect).symm⟩

/-- Writes are made if they apply one after the other. -/
theorem writeAll_of_contents {writes : List Write} {after : Contents}
    (applies : (slots.contents now).writeAll? writes = some after) :
    ∃ next, slots.writeAll now writes = .ok next ∧ next.contents now = after := by
  induction writes generalizing slots with
  | nil => exact ⟨slots, rfl, Option.some.inj applies⟩
  | cons write rest ih =>
    rw [Contents.writeAll?, List.foldlM_cons] at applies
    obtain ⟨between, first, behind⟩ := Option.bind_eq_some_iff.mp applies
    obtain ⟨next, written, rfl⟩ := write_of_contents first
    obtain ⟨last, rest, left⟩ := ih behind
    refine ⟨last, ?_, left⟩
    rw [Slots.writeAll, written]
    exact rest

/-- Writes that are made have changed what their keys hold one after the other. -/
theorem contents_writeAll {writes : List Write} (written : slots.writeAll now writes = .ok next) :
    (slots.contents now).writeAll? writes = some (next.contents now) := by
  induction writes generalizing slots with
  | nil =>
    cases written
    rfl
  | cons write rest ih =>
    obtain ⟨between, first, behind⟩ := writeAll_cons written
    rw [Contents.writeAll?, List.foldlM_cons, contents_write first]
    exact ih behind

end Slots

/-! ## Containers

A key that holds nothing counts as a container of any type that is empty. In this sense each write is a
change of a container of its type.
-/

namespace Contents

def list? : Option Entry → Option (List String)
  | none => some []
  | some (.list items) => some items
  | some _ => none

def set? : Option Entry → Option (List String)
  | none => some []
  | some (.set members) => some members
  | some _ => none

def scores? : Option Entry → Option (Dict Binary64)
  | none => some []
  | some (.sortedSet scores) => some scores
  | some _ => none

def fields? : Option Entry → Option (Dict String)
  | none => some []
  | some (.hash fields) => some fields
  | some _ => none

theorem apply?_eq (write : Write) (held? : Option Entry) : write.apply? held? = match write with
    | .addMember _ member => (set? held?).map fun members => .set (insertMember member members)
    | .append _ value => (list? held?).map fun items => .list (items ++ [value])
    | .prepend _ value => (list? held?).map fun items => .list (value :: items)
    | .schedule _ score member => (scores? held?).map fun scores =>
        .sortedSet (Dict.insert scores member score)
    | .unschedule _ member => (scores? held?).map fun scores => .sortedSet (Dict.erase scores member)
    | .setField _ field value => (fields? held?).map fun fields => .hash (Dict.insert fields field value)
    | .dropField _ field => (fields? held?).map fun fields => .hash (Dict.erase fields field) := by
  cases held? with
  | none => cases write <;> rfl
  | some held => cases write <;> cases held <;> rfl

/-- A write changes a container of its type, if its key holds one. -/
theorem write?_eq (contents : Contents) (write : Write) : contents.write? write = match write with
    | .addMember key member => (set? (contents key)).map fun members =>
      update contents key (some (.set (insertMember member members)))
    | .append key value => (list? (contents key)).map fun items =>
      update contents key (some (.list (items ++ [value])))
    | .prepend key value => (list? (contents key)).map fun items =>
      update contents key (some (.list (value :: items)))
    | .schedule key score member => (scores? (contents key)).map fun scores =>
      update contents key (some (.sortedSet (Dict.insert scores member score)))
    | .unschedule key member => (scores? (contents key)).map fun scores =>
      update contents key (Entry.sortedSet (Dict.erase scores member)).kept
    | .setField key field value => (fields? (contents key)).map fun fields =>
      update contents key (some (.hash (Dict.insert fields field value)))
    | .dropField key field => (fields? (contents key)).map fun fields =>
      update contents key (Entry.hash (Dict.erase fields field)).kept := by
  rw [write?, apply?_eq]
  cases write with
  | prepend key value => exact Option.map_map ..
  | _ =>
    simp only [Write.key, Option.map_map, Function.comp_def, kept_insertMember, kept_append, kept_schedule,
      kept_setField]

/-- A key that holds nothing takes any write. -/
theorem write?_of_absent {contents : Contents} {write : Write} (absent : contents write.key = none) :
    ∃ after, contents.write? write = some after := by
  rw [write?, absent]
  cases write <;> exact ⟨_, rfl⟩

/-- Values go to the end of a list, one after the other. -/
theorem writeAll?_append (contents : Contents) (key value : String) (values : List String) :
    contents.writeAll? ((value :: values).map (.append key)) =
      (list? (contents key)).map fun items =>
        update contents key (some (.list (items ++ value :: values))) := by
  induction values generalizing contents value with
  | nil =>
    simp only [List.map_cons, List.map_nil, writeAll?, List.foldlM_cons, List.foldlM_nil, write?_eq,
      bind_pure]
  | cons other values ih =>
    rw [List.map_cons, writeAll?, List.foldlM_cons, write?_eq]
    dsimp only
    cases list? (contents key) with
    | none => rfl
    | some items =>
      refine (ih _ other).trans ?_
      simp only [update_self, update_idem, list?, Option.map_some, List.append_assoc, List.singleton_append]

end Contents

end JobQueue
