import JobQueue.Proofs.Store.Contents

/-! # Keys whose time has come

A key whose time has come stays stored until a request drops it. A store is swept when all such keys are
removed from it at once. Requests drop the keys that they look at, so they answer the same before and after a
sweep, and they leave stores that are the same once they are swept. There is one exception: a job that comes
back to its queue is taken for recurring also because of a frequency whose time has come.
-/

namespace JobQueue

namespace Slots

variable {slots other : Slots} {now : Nat} {key : String}

/-- Slots whose keys hold the same, as requests see it. -/
def Alike (now : Nat) (slots other : Slots) : Prop := slots.held now = other.held now

/-- Attempts that leave the same, as requests see it, succeed together or fail for one reason. -/
theorem eq_or_eq_of_map_eq {first second : Except StoreError Slots}
    (same : first.map (held · now) = second.map (held · now)) :
    (∃ next after, first = .ok next ∧ second = .ok after ∧ Alike now next after) ∨
      ∃ cause, first = .error cause ∧ second = .error cause := by
  cases first <;> cases second
  · cases same
    exact .inr ⟨_, rfl, rfl⟩
  · contradiction
  · contradiction
  · exact .inl ⟨_, _, rfl, rfl, Except.ok.inj same⟩

namespace Alike

theorem contents (alike : Alike now slots other) : slots.contents now = other.contents now := by
  funext key
  rw [contents_eq, contents_eq, alike]

theorem purge (alike : Alike now slots other) (key : String) :
    Alike now (slots.purge now key) (other.purge now key) := by
  rw [Alike, held_purge, held_purge, alike]

theorem get?_purge (alike : Alike now slots other) (key : String) :
    Dict.get? (slots.purge now key) key = Dict.get? (other.purge now key) key := by
  rw [Slots.get?_purge, Slots.get?_purge, alike]

/-- What is stored at a key stays the same on both sides while another key is looked at. -/
theorem get?_purge_of_eq (alike : Alike now slots other) (same : Dict.get? slots key = Dict.get? other key)
    (looked : String) :
    Dict.get? (slots.purge now looked) key = Dict.get? (other.purge now looked) key := by
  by_cases own : key = looked
  · rw [own]
    exact alike.get?_purge looked
  · rw [(SameBut.refl slots).purge now key own, (SameBut.refl other).purge now key own, same]

theorem insert (alike : Alike now slots other) (key : String) (slot : Slot) :
    Alike now (Dict.insert slots key slot) (Dict.insert other key slot) := by
  funext name
  have same := congrFun alike name
  simp only [held, Dict.get?_insert] at same ⊢
  split
  · rfl
  · exact same

theorem erase (alike : Alike now slots other) (key : String) :
    Alike now (Dict.erase slots key) (Dict.erase other key) := by
  funext name
  have same := congrFun alike name
  simp only [held, Dict.get?_erase] at same ⊢
  split
  · rfl
  · exact same

theorem put (alike : Alike now slots other) (same : Dict.get? slots key = Dict.get? other key)
    (entry : Entry) : Alike now (slots.put key entry) (other.put key entry) := by
  unfold Slots.put
  rw [same]
  split
  · exact alike.erase key
  · exact alike.insert key _

/-- A write looks at its key, so it is made on both sides, with the same effect, or on none. -/
theorem write (alike : Alike now slots other) (write : Write) :
    (slots.write now write).map (held · now) = (other.write now write).map (held · now) := by
  have same := alike.get?_purge write.key
  simp only [Slots.write, entry?, same]
  split
  · exact congrArg Except.ok ((alike.purge write.key).put same _)
  · rfl

theorem writeAll (alike : Alike now slots other) (writes : List Write) :
    (slots.writeAll now writes).map (held · now) = (other.writeAll now writes).map (held · now) := by
  induction writes generalizing slots other with
  | nil => exact congrArg Except.ok alike
  | cons write rest ih =>
    rw [Slots.writeAll, Slots.writeAll]
    rcases eq_or_eq_of_map_eq (alike.write write) with
      ⟨next, after, made, same, left⟩ | ⟨cause, failed, same⟩
    · rw [made, same]
      exact ih left
    · rw [failed, same]

theorem takeHead (alike : Alike now slots other) (same : Dict.get? slots key = Dict.get? other key) :
    (slots.takeHead key).1 = (other.takeHead key).1 ∧
      Alike now (slots.takeHead key).2 (other.takeHead key).2 := by
  simp only [Slots.takeHead, entry?, same]
  split
  · exact ⟨rfl, alike.put same _⟩
  · exact ⟨rfl, alike⟩

theorem takeReady (alike : Alike now slots other) {route : Route}
    (queue : Dict.get? slots route.queue = Dict.get? other route.queue)
    (recurring : Dict.get? slots route.recurring = Dict.get? other route.recurring) (time : Int) :
    (slots.takeReady route time).1 = (other.takeReady route time).1 ∧
      Alike now (slots.takeReady route time).2 (other.takeReady route time).2 := by
  simp only [Slots.takeReady, frequency?, entry?, queue, recurring]
  split
  · split
    · exact ⟨rfl, alike⟩
    · exact ⟨rfl, alike.put queue _⟩
  · exact ⟨rfl, alike.put queue _⟩
  · exact ⟨rfl, alike⟩

end Alike

end Slots

namespace Memory

/-- The store without the keys whose time has come. -/
def swept (memory : Memory) : Memory :=
  { memory with slots := memory.slots.filter fun entry => !memory.slots.hasExpired memory.clock entry.1 }

/-- Stores that are the same once both are swept. -/
structure Agrees (memory other : Memory) : Prop where
  keys : ∀ key, Dict.get? memory.swept.slots key = Dict.get? other.swept.slots key
  rest : { memory with slots := [] } = { other with slots := [] }

/-- The same answer, and stores that agree. -/
structure Matches {α : Type} (one other : α × Memory) : Prop where
  answer : one.1 = other.1
  agrees : one.2.Agrees other.2

/-- The job at the head of a list is taken for recurring because of a frequency whose time has come. It makes
no difference if the job is already scheduled for just the time that it would be restored to. -/
def Mistakes (memory : Memory) (route : Route) (now : Int) : Prop :=
  ∃ payload rest, memory.contents route.inflight = some (.list (payload :: rest)) ∧
    memory.slots.hasExpired memory.clock route.recurring = true ∧
    memory.slots.isRecurring route.recurring payload = true ∧
    ¬ ∃ scores, memory.contents route.queue = some (.sortedSet scores) ∧
      Dict.get? scores payload = some (Binary64.ofInt now)

/-- A request for which it matters that a key is still stored whose time has come. -/
def Overlooks (memory : Memory) : Request → Prop
  | .restoreInflight route now => memory.unavailable = false ∧ memory.Mistakes route now
  | _ => False

variable {memory : Memory} {slots other : Slots}

/-- A sweep leaves the keys whose time has not come. -/
theorem get?_swept_eq_ite (memory : Memory) (key : String) :
    Dict.get? memory.swept.slots key =
      if !memory.slots.hasExpired memory.clock key then Dict.get? memory.slots key else none :=
  Dict.get?_filter memory.slots (!memory.slots.hasExpired memory.clock ·) key

/-- A sweep leaves what requests see. -/
theorem get?_swept (memory : Memory) (key : String) :
    Dict.get? memory.swept.slots key = memory.slots.held memory.clock key := by
  rw [get?_swept_eq_ite, hasExpired_eq, Slots.held]
  cases Dict.get? memory.slots key with
  | none => exact ite_self _
  | some slot =>
    rw [Option.any_some, Bool.not_not, Option.filter_some]

theorem alike_swept (memory : Memory) : Slots.Alike memory.clock memory.swept.slots memory.slots := by
  funext key
  rw [Slots.held, get?_swept, Slots.held, Option.filter_filter]
  simp only [Bool.and_self]

/-- Stores agree if they differ in nothing but slots that are alike. -/
theorem Agrees.of_alike (alike : Slots.Alike memory.clock slots other) :
    ({ memory with slots } : Memory).Agrees { memory with slots := other } where
  keys key := by
    rw [get?_swept, get?_swept]
    exact congrFun alike key
  rest := rfl

/-- Stores that agree see the same at each key. -/
theorem Agrees.contents {next : Memory} (agrees : memory.Agrees next) : memory.contents = next.contents := by
  have clock : memory.clock = next.clock := (Memory.mk.inj agrees.rest).2.1
  funext key
  have same := agrees.keys key
  rw [get?_swept, get?_swept] at same
  exact congrArg (Option.map Slot.entry) same

theorem Matches.of_alike {α : Type} (memory : Memory) (alike : Slots.Alike memory.clock slots other)
    (answer : α) :
    Matches (answer, { memory with slots }) (answer, { memory with slots := other }) :=
  ⟨rfl, .of_alike alike⟩

/-! ## Requests that look before they leap -/

/-- An operation that cannot tell slots apart that are alike. -/
def Blind {α : Type} (operation : Memory → α × Memory) : Prop :=
  ∀ (memory : Memory) (slots : Slots), Slots.Alike memory.clock slots memory.slots →
    Matches (operation { memory with slots }) (operation memory)

/-- A key that is looked at holds the same in slots that are alike. -/
theorem entry?_purge_of_alike (alike : Slots.Alike memory.clock slots memory.slots) (key : String) :
    Memory.entry? (purge { memory with slots } key) key = Memory.entry? (memory.purge key) key :=
  congrArg (Option.map Slot.entry) (alike.get?_purge key)

section Operations

variable (key : String)

theorem blind_typeOf : Blind (typeOf · key) := by
  intro memory slots alike
  dsimp only [typeOf]
  rw [entry?_purge_of_alike alike]
  exact .of_alike memory (alike.purge key) _

theorem blind_get : Blind (get · key) := by
  intro memory slots alike
  dsimp only [get]
  rw [entry?_purge_of_alike alike]
  split <;> exact .of_alike memory (alike.purge key) _

theorem blind_setIfAbsent (value : String) : Blind (setIfAbsent · key value) := by
  intro memory slots alike
  dsimp only [setIfAbsent]
  rw [entry?_purge_of_alike alike]
  cases (Memory.entry? (memory.purge key) key).isSome with
  | true => exact .of_alike memory (alike.purge key) _
  | false => exact .of_alike memory ((alike.purge key).insert key _) _

theorem blind_expire (seconds : Nat) : Blind (expire · key seconds) := by
  intro memory slots alike
  dsimp only [expire]
  rw [entry?_purge_of_alike alike]
  split
  · exact .of_alike memory (alike.purge key) _
  · exact .of_alike memory ((alike.purge key).insert key _) _

theorem blind_timeToLive : Blind (timeToLive · key) := by
  intro memory slots alike
  simp only [timeToLive, purge, alike.get?_purge key]
  exact .of_alike memory (alike.purge key) _

theorem blind_delete : Blind (delete · key) := by
  intro memory slots alike
  dsimp only [delete]
  rw [entry?_purge_of_alike alike]
  exact .of_alike memory ((alike.purge key).erase key) _

theorem blind_compareAndDelete (expected : String) : Blind (compareAndDelete · key expected) := by
  intro memory slots alike
  dsimp only [compareAndDelete]
  rw [entry?_purge_of_alike alike]
  by_cases found : Memory.entry? (memory.purge key) key = some (.string expected)
  · rw [if_pos found, if_pos found]
    exact .of_alike memory ((alike.purge key).erase key) _
  · rw [if_neg found, if_neg found]
    exact .of_alike memory (alike.purge key) _

theorem blind_popInflight : Blind (popInflight · key) := by
  intro memory slots alike
  obtain ⟨given, left⟩ := (alike.purge key).takeHead (alike.get?_purge key)
  dsimp only [popInflight]
  rw [entry?_purge_of_alike alike]
  split
  · exact ⟨congrArg Except.ok given, .of_alike left⟩
  · exact ⟨congrArg Except.ok given, .of_alike left⟩
  · exact .of_alike memory (alike.purge key) _

theorem blind_transaction (writes : List Write) : Blind (transaction · writes) := by
  intro memory slots alike
  dsimp only [transaction]
  by_cases discarded : memory.discardNext = true
  · rw [if_pos discarded, if_pos discarded]
    exact .of_alike { memory with discardNext := false } alike _
  · rw [if_neg discarded, if_neg discarded]
    rcases Slots.eq_or_eq_of_map_eq (alike.writeAll writes) with
      ⟨next, after, made, same, left⟩ | ⟨cause, failed, same⟩
    · rw [made, same]
      exact .of_alike { memory with transactions := memory.transactions + 1 } left _
    · rw [failed, same]
      exact .of_alike memory alike _

/-- Slots that are alike take a write alike. -/
theorem Matches.of_write {α : Type} (alike : Slots.Alike memory.clock slots other) (write : Write)
    (answer : α) :
    Matches (α := Except StoreError α)
      (match slots.write memory.clock write with
        | .ok slots => (.ok answer, { memory with slots })
        | .error error => (.error error, { memory with slots }))
      (match other.write memory.clock write with
        | .ok slots => (.ok answer, { memory with slots })
        | .error error => (.error error, { memory with slots := other })) := by
  rcases Slots.eq_or_eq_of_map_eq (alike.write write) with
    ⟨next, after, made, same, left⟩ | ⟨cause, failed, same⟩
  · rw [made, same]
    exact .of_alike memory left _
  · rw [failed, same]
    exact .of_alike memory alike _

theorem blind_popToInflight (route : Route) (now : Int) : Blind (popToInflight · route now) := by
  intro memory slots alike
  have looked := (alike.purge route.queue).purge route.recurring
  have queue := (alike.purge route.queue).get?_purge_of_eq (alike.get?_purge route.queue) route.recurring
  have recurring := (alike.purge route.queue).get?_purge route.recurring
  obtain ⟨given, left⟩ := looked.takeReady queue recurring now
  dsimp only [popToInflight, purge]
  generalize Slots.takeReady ((slots.purge memory.clock route.queue).purge memory.clock
    route.recurring) route now = one at given left ⊢
  generalize Slots.takeReady ((memory.slots.purge memory.clock route.queue).purge memory.clock
    route.recurring) route now = other at given left ⊢
  obtain ⟨payload?, slots⟩ := one
  obtain ⟨_, other⟩ := other
  cases given
  cases payload? with
  | none => exact .of_alike memory left _
  | some payload => exact .of_write left _ _

theorem blind_publish (channel message : String) : Blind (publish · channel message) :=
  fun memory _ alike =>
    .of_alike { memory with published := memory.published ++ [(channel, message)] } alike _

end Operations

/-! ## The job at the head of a list -/

section Restoration

variable {now : Nat} {key payload : String} {rest : List String} {route : Route} {time : Int}

/-- If both sides take the job for recurring, or both do not, they do the same with it. -/
theorem matches_restoreInflight (alike : Slots.Alike memory.clock slots memory.slots)
    (same : ∀ payload,
      (slots.purge memory.clock route.inflight |>.takeHead route.inflight).1 = some payload →
      (slots.purge memory.clock route.inflight |>.takeHead route.inflight).2.isRecurring
          route.recurring payload =
        (memory.slots.purge memory.clock route.inflight |>.takeHead route.inflight).2.isRecurring
          route.recurring payload) :
    Matches (restoreInflight { memory with slots } route time) (memory.restoreInflight route time) := by
  obtain ⟨given, left⟩ := (alike.purge route.inflight).takeHead (alike.get?_purge route.inflight)
  dsimp only [restoreInflight, purge]
  generalize Slots.takeHead (slots.purge memory.clock route.inflight) route.inflight = one
    at same given left ⊢
  generalize Slots.takeHead (memory.slots.purge memory.clock route.inflight) route.inflight = other
    at same given left ⊢
  obtain ⟨payload?, slots⟩ := one
  obtain ⟨_, other⟩ := other
  cases given
  cases payload? with
  | none => exact .of_alike memory left _
  | some payload =>
    dsimp only at same left ⊢
    rw [same payload rfl]
    cases other.isRecurring route.recurring payload with
    | true => exact .of_alike memory left _
    | false =>
      have queue := left.get?_purge route.queue
      simp only [Slots.returnWrite, Slots.entry?, queue]
      exact .of_write (left.purge route.queue) _ _

theorem takeHead_of_contents (head : slots.contents now key = some (.list (payload :: rest))) :
    Slots.takeHead (slots.purge now key) key =
      (some payload, (slots.purge now key).put key (.list rest)) := by
  rw [Slots.takeHead, Slots.entry?_purge, head]

theorem contents_of_takeHead (taken : (Slots.takeHead (slots.purge now key) key).1 = some payload) :
    ∃ rest, slots.contents now key = some (.list (payload :: rest)) := by
  rw [Slots.takeHead, Slots.entry?_purge] at taken
  split at taken
  · next head rest found =>
    cases taken
    exact ⟨rest, found⟩
  · contradiction

/-- Taking the head of a list leaves the frequencies at another key. -/
theorem isRecurring_takeHead (slots : Slots) (now : Nat) {inflight recurring : String}
    (differ : recurring ≠ inflight) (payload : String) :
    (Slots.takeHead (slots.purge now inflight) inflight).2.isRecurring recurring payload =
      slots.isRecurring recurring payload := by
  have same := ((Slots.SameBut.refl slots).purge now).takeHead recurring differ
  simp only [Slots.isRecurring, Slots.entry?, same]

/-- A key that holds something has not expired. -/
theorem hasExpired_of_contents {entry : Entry} (found : slots.contents now key = some entry) :
    slots.hasExpired now key = false := by
  obtain ⟨slot, held, -⟩ := Option.map_eq_some_iff.mp found
  obtain ⟨stored, live⟩ := Option.filter_eq_some_iff.mp held
  simp [hasExpired_eq, stored, live]

/-- A sweep takes the frequencies away whose time has come. -/
theorem isRecurring_swept_of_expired (expired : memory.slots.hasExpired memory.clock key = true)
    (payload : String) : memory.swept.slots.isRecurring key payload = false := by
  rw [Slots.isRecurring, Slots.entry?, get?_swept_eq_ite, expired]
  rfl

/-- A list has no frequencies. -/
theorem isRecurring_put_list (slots : Slots) (key payload : String) (items : List String) :
    (slots.put key (.list items)).isRecurring key payload = false := by
  unfold Slots.put
  split <;> simp [Slots.isRecurring, Slots.entry?, Dict.get?_erase, Dict.get?_insert]

/-- A store and the store once swept disagree only about a job whose frequency has expired. -/
theorem expired_of_isRecurring_ne (head : memory.contents route.inflight = some (.list (payload :: rest)))
    (disagree :
      (Slots.takeHead (memory.swept.slots.purge memory.clock route.inflight) route.inflight).2.isRecurring
          route.recurring payload ≠
        (Slots.takeHead (memory.slots.purge memory.clock route.inflight) route.inflight).2.isRecurring
          route.recurring payload) :
    memory.slots.hasExpired memory.clock route.recurring = true ∧
      memory.slots.isRecurring route.recurring payload = true := by
  have seen : memory.swept.slots.contents memory.clock route.inflight = some (.list (payload :: rest)) :=
    (congrFun (alike_swept memory).contents route.inflight).trans head
  have differ : route.recurring ≠ route.inflight := by
    intro same
    rw [takeHead_of_contents head, takeHead_of_contents seen, same, isRecurring_put_list,
      isRecurring_put_list] at disagree
    exact disagree rfl
  rw [isRecurring_takeHead _ _ differ, isRecurring_takeHead _ _ differ] at disagree
  cases expired : memory.slots.hasExpired memory.clock route.recurring with
  | false =>
    rw [Slots.isRecurring, Slots.entry?, get?_swept_eq_ite, expired] at disagree
    exact absurd rfl disagree
  | true =>
    rw [isRecurring_swept_of_expired expired] at disagree
    exact ⟨rfl, eq_true_of_ne_false disagree.symm⟩

/-- Scheduling a job for the time that it is scheduled for changes nothing. -/
theorem write_schedule_unchanged {scores : Dict Binary64} {score : Binary64}
    (queue : slots.contents now key = some (.sortedSet scores))
    (found : Dict.get? scores payload = some score) :
    ∃ next, slots.write now (.schedule key score payload) = .ok next ∧ Slots.Alike now next slots := by
  obtain ⟨⟨_, expiresAt⟩, held, rfl⟩ := Option.map_eq_some_iff.mp queue
  have stored : Dict.get? (slots.purge now key) key = some ⟨.sortedSet scores, expiresAt⟩ :=
    (Slots.get?_purge slots now key).trans held
  have filled : (Entry.sortedSet scores).isEmpty = false :=
    List.isEmpty_eq_false_iff_exists_mem.mpr ⟨_, Dict.mem_of_get? found⟩
  refine ⟨Dict.insert (slots.purge now key) key ⟨.sortedSet scores, expiresAt⟩, ?_, ?_⟩
  · simp only [Slots.write, Write.key, Slots.entry?, stored, Option.map_some, Write.apply?,
      Dict.insert_of_get? found, Slots.put, filled, Bool.false_eq_true, if_false, Option.bind_some]
  · rw [Dict.insert_of_get? stored]
    exact Slots.held_purge slots now key

/-- A job that is brought back to its queue changes the queue, if it is not scheduled there for the time
that it is restored to. -/
theorem scheduled_of_contents_eq {next : Slots}
    (written : (slots.purge now key).write now
      ((slots.purge now key).returnWrite key payload time) = .ok next)
    (unchanged : next.contents now = slots.contents now) :
    ∃ scores, slots.contents now key = some (.sortedSet scores) ∧
      Dict.get? scores payload = some (Binary64.ofInt time) := by
  have effect := Slots.contents_write written
  rw [unchanged, Slots.contents_purge, Slots.returnWrite, Slots.entry?_purge] at effect
  split at effect
  · next scores queue =>
    simp only [Contents.write?_eq, queue, Contents.scores?, Option.map_some] at effect
    have same := congrFun (Option.some.inj effect) key
    rw [Function.update_self, queue] at same
    have kept : Dict.insert scores payload (Binary64.ofInt time) = scores :=
      Entry.sortedSet.inj (Option.some.inj same)
    refine ⟨scores, queue, ?_⟩
    rw [← kept, Dict.get?_insert, if_pos rfl]
  · rw [Contents.write?_eq] at effect
    obtain ⟨items, listed, same⟩ := Option.map_eq_some_iff.mp effect
    have same := congrFun same key
    rw [Function.update_self] at same
    rw [← same] at listed
    have length := congrArg List.length (Option.some.inj listed)
    simp at length

/-- What is taken out of a list leaves no sorted set behind, and leaves those of other keys. -/
theorem contents_put_list_iff (head : slots.contents now route.inflight = some (.list (payload :: rest)))
    (scores : Dict Binary64) :
    ((slots.purge now route.inflight).put route.inflight (.list rest)).contents now route.queue =
        some (.sortedSet scores) ↔
      slots.contents now route.queue = some (.sortedSet scores) := by
  rw [Slots.contents_put fun _ found => Slots.live_purge found, Slots.contents_purge]
  by_cases same : route.queue = route.inflight
  · rw [same, Function.update_self, head]
    cases rest <;> simp [Entry.kept, Entry.isEmpty]
  · rw [Function.update_of_ne same]

/-- A job that is taken for recurring does not come back. -/
theorem restoreInflight_of_isRecurring
    (taken : Slots.takeHead (memory.slots.purge memory.clock route.inflight) route.inflight =
      (some payload, slots))
    (recurring : slots.isRecurring route.recurring payload = true) :
    memory.restoreInflight route time = (.ok (some payload), { memory with slots }) := by
  dsimp only [restoreInflight, purge]
  rw [taken]
  exact if_pos recurring

/-- A job comes back to its queue. -/
def giveBack (memory : Memory) (route : Route) (payload : String) (time : Int) :
    Except StoreError (Option String) × Memory :=
  let memory := memory.purge route.queue
  match memory.slots.write memory.clock (memory.slots.returnWrite route.queue payload time) with
  | .ok slots => (.ok (some payload), { memory with slots })
  | .error error => (.error error, memory)

theorem restoreInflight_of_not_isRecurring
    (taken : Slots.takeHead (memory.slots.purge memory.clock route.inflight) route.inflight =
      (some payload, slots))
    (once : slots.isRecurring route.recurring payload = false) :
    memory.restoreInflight route time = giveBack { memory with slots } route payload time := by
  dsimp only [restoreInflight, purge]
  rw [taken]
  exact if_neg (ne_true_of_eq_false once)

/-- A job that comes back on one side only makes no difference if it is scheduled for that time. -/
theorem matches_giveBack_iff (alike : Slots.Alike memory.clock slots other) :
    Matches (giveBack { memory with slots } route payload time)
        (.ok (some payload), { memory with slots := other }) ↔
      ∃ scores, slots.contents memory.clock route.queue = some (.sortedSet scores) ∧
        Dict.get? scores payload = some (Binary64.ofInt time) := by
  dsimp only [giveBack, purge]
  constructor
  · intro same
    split at same
    · next after written =>
      exact scheduled_of_contents_eq written (same.agrees.contents.trans alike.contents.symm)
    · exact nomatch same.answer
  · rintro ⟨scores, queue, found⟩
    have seen : Slots.contents (slots.purge memory.clock route.queue) memory.clock route.queue =
        some (.sortedSet scores) :=
      (congrFun (Slots.contents_purge slots memory.clock route.queue) _).trans queue
    obtain ⟨after, written, unchanged⟩ := write_schedule_unchanged seen found
    simp only [Slots.returnWrite, Slots.entry?_purge, queue, written]
    exact .of_alike memory (unchanged.trans ((Slots.held_purge ..).trans alike)) _

/-- With the job taken for recurring on one side only, the sides match if the job is scheduled already. -/
theorem matches_restoreInflight_iff
    (head : memory.contents route.inflight = some (.list (payload :: rest)))
    (expired : memory.slots.hasExpired memory.clock route.recurring = true)
    (recurring : memory.slots.isRecurring route.recurring payload = true) :
    Matches (memory.swept.restoreInflight route time) (memory.restoreInflight route time) ↔
      ∃ scores, memory.contents route.queue = some (.sortedSet scores) ∧
        Dict.get? scores payload = some (Binary64.ofInt time) := by
  have alike := alike_swept memory
  have seen : memory.swept.slots.contents memory.clock route.inflight = some (.list (payload :: rest)) :=
    (congrFun alike.contents route.inflight).trans head
  have differ : route.recurring ≠ route.inflight := by
    intro same
    rw [same, hasExpired_of_contents head] at expired
    contradiction
  have left := ((alike.purge route.inflight).takeHead (alike.get?_purge route.inflight)).2
  have kept := isRecurring_takeHead memory.slots memory.clock differ payload
  have lost := isRecurring_takeHead memory.swept.slots memory.clock differ payload
  rw [takeHead_of_contents head, takeHead_of_contents seen] at left
  rw [takeHead_of_contents head, recurring] at kept
  rw [takeHead_of_contents seen, isRecurring_swept_of_expired expired] at lost
  rw [restoreInflight_of_isRecurring (takeHead_of_contents head) kept,
    @restoreInflight_of_not_isRecurring memory.swept _ _ _ _ (takeHead_of_contents seen) lost]
  refine (matches_giveBack_iff left).trans (exists_congr fun scores => and_congr_left' ?_)
  rw [contents_put_list_iff seen, alike.contents]
  rfl

/-- A job comes back from a store as from the store once swept, unless it is mistaken. -/
theorem restoreInflight_swept_iff (memory : Memory) (route : Route) (time : Int) :
    Matches (memory.swept.restoreInflight route time) (memory.restoreInflight route time) ↔
      ¬ memory.Mistakes route time := by
  constructor
  · rintro same ⟨payload, rest, head, expired, recurring, unscheduled⟩
    exact unscheduled ((matches_restoreInflight_iff head expired recurring).mp same)
  · intro right
    have alike := alike_swept memory
    by_contra differ
    refine differ (matches_restoreInflight alike fun payload taken => ?_)
    have ⟨rest, seen⟩ := contents_of_takeHead taken
    have head : memory.contents route.inflight = some (.list (payload :: rest)) :=
      (congrFun alike.contents route.inflight).symm.trans seen
    by_contra disagree
    obtain ⟨expired, recurring⟩ := expired_of_isRecurring_ne head disagree
    have unscheduled := mt (matches_restoreInflight_iff head expired recurring).mpr differ
    exact right ⟨payload, rest, head, expired, recurring, unscheduled⟩

end Restoration

/-! ## Every request -/

theorem Matches.answering {α : Type} {one other : α × Memory} (same : Matches one other) :
    Matches (Memory.answering one) (Memory.answering other) :=
  ⟨congrArg Except.ok same.answer, same.agrees⟩

/-- A request tells a store from the store once swept just if it overlooks that a key has expired. -/
theorem perform_swept_iff (memory : Memory) (request : Request) :
    Matches (memory.swept.perform request) (memory.perform request) ↔ ¬ memory.Overlooks request := by
  have alike := alike_swept memory
  by_cases refused : memory.unavailable = true
  · have same : Matches (memory.swept.perform request) (memory.perform request) := by
      rw [perform_unavailable refused, @perform_unavailable memory.swept refused]
      exact .of_alike memory alike _
    refine iff_of_true same fun overlooks => ?_
    cases request with
    | restoreInflight route now => exact absurd refused (ne_true_of_eq_false overlooks.1)
    | _ => exact overlooks
  unfold perform
  rw [if_neg refused, if_neg (show ¬ memory.swept.unavailable = true from refused)]
  cases request with
  | restoreInflight route now =>
    exact (restoreInflight_swept_iff memory route now).trans
      (not_congr (and_iff_right (eq_false_of_ne_true refused)).symm)
  | ping => exact iff_of_true (.of_alike memory alike _) id
  | keyType key => exact iff_of_true (blind_typeOf key memory _ alike).answering id
  | get key => exact iff_of_true (blind_get key memory _ alike) id
  | setIfAbsent key value => exact iff_of_true (blind_setIfAbsent key value memory _ alike).answering id
  | expire key seconds => exact iff_of_true (blind_expire key seconds memory _ alike).answering id
  | timeToLive key => exact iff_of_true (blind_timeToLive key memory _ alike).answering id
  | delete key => exact iff_of_true (blind_delete key memory _ alike).answering id
  | compareAndDelete key expected =>
    exact iff_of_true (blind_compareAndDelete key expected memory _ alike).answering id
  | transaction writes => exact iff_of_true (blind_transaction writes memory _ alike) id
  | popToInflight route now => exact iff_of_true (blind_popToInflight route now memory _ alike) id
  | popInflight key => exact iff_of_true (blind_popInflight key memory _ alike) id
  | publish channel message => exact iff_of_true (blind_publish channel message memory _ alike).answering id

/-- A job in flight, and a frequency of it whose time has come. -/
def outdated : Memory where
  slots := [("q:queue:m:recurring", ⟨.hash [("tick", "1000")], some 1000⟩),
    ("q:inflight:w:m", ⟨.list ["tick"], none⟩)]
  clock := 1000

/-- The job at the head of the list in flight is restored. -/
def restoreTick (memory : Memory) : Except StoreError (Option String) × Memory :=
  memory.perform (.restoreInflight ⟨"q:queue:m", "q:queue:m:recurring", "q:inflight:w:m"⟩ 1000)

/-- The job is lost, and would come back to its queue if the frequency had been dropped. -/
theorem restoreTick_outdated :
    ((restoreTick outdated).1 = .ok (some "tick") ∧
      (restoreTick outdated).2.contents "q:queue:m" = none) ∧
    ((restoreTick outdated.swept).1 = .ok (some "tick") ∧
      (restoreTick outdated.swept).2.contents "q:queue:m" = some (.list ["tick"])) ∧
    ¬ Matches (restoreTick outdated.swept) (restoreTick outdated) := by
  have lost : (restoreTick outdated).2.contents "q:queue:m" = none := by decide
  have back : (restoreTick outdated.swept).2.contents "q:queue:m" = some (.list ["tick"]) := by decide
  refine ⟨⟨rfl, lost⟩, ⟨rfl, back⟩, fun same => ?_⟩
  rw [same.agrees.contents, lost] at back
  contradiction

end Memory

end JobQueue
