import JobQueue.Proofs.Json.Equality
import JobQueue.Proofs.Queue.Commitment
import JobQueue.Proofs.Store.Expiry

/-! # Jobs that are cancelled

A scheduled job is taken out by its payload, the exact text. So what an equal job takes out depends on how
the two are spelled: with the keys of all objects in one order, and all zeros of one sign, nothing is left of
the job, and otherwise all of it is left.
-/

namespace JobQueue

open Function (update_self update_of_ne)
open Contents (scores? fields?)

/-! ## Keys without a time to live -/

/-- What a key holds, it holds for good. -/
def Slots.Lasts (slots : Slots) (now : Nat) (key : String) : Prop :=
  ∀ slot, slots.held now key = some slot → slot.expiresAt = none

namespace Slots.Lasts

variable {slots next : Slots} {now : Nat} {key : String}

theorem of_absent (absent : slots.contents now key = none) : slots.Lasts now key := by
  intro slot held
  rw [contents_eq, held] at absent
  contradiction

theorem purge (lasts : slots.Lasts now key) (name : String) : (slots.purge now name).Lasts now key :=
  fun slot held => lasts slot ((congrFun (held_purge slots now name) key).symm.trans held)

/-- What is put at a key keeps the time to live that was there. -/
theorem put (lasts : slots.Lasts now key) (name : String) (entry : Entry) :
    (slots.put name entry).Lasts now key := by
  intro slot held
  by_cases own : key = name
  · subst own
    obtain ⟨found, live⟩ := Option.filter_eq_some_iff.mp held
    unfold Slots.put at found
    split at found
    · rw [Dict.get?_erase, if_pos rfl] at found
      contradiction
    · rw [Dict.get?_insert, if_pos rfl] at found
      cases found
      cases stored : Dict.get? slots key with
      | none => rfl
      | some old =>
        rw [stored] at live
        exact lasts old (Option.filter_eq_some_iff.mpr ⟨stored, live⟩)
  · rw [Slots.held, (SameBut.refl slots).put entry key own] at held
    exact lasts slot held

/-- A write gives no key a time to live. -/
theorem write (lasts : slots.Lasts now key) {write : Write} (written : slots.write now write = .ok next) :
    next.Lasts now key := by
  simp only [Slots.write] at written
  split at written
  · cases written
    exact (lasts.purge _).put _ _
  · contradiction

theorem writeAll (lasts : slots.Lasts now key) {writes : List Write}
    (written : slots.writeAll now writes = .ok next) : next.Lasts now key := by
  induction writes generalizing slots with
  | nil =>
    cases written
    exact lasts
  | cons write rest ih =>
    obtain ⟨between, first, behind⟩ := writeAll_cons written
    exact ih (lasts.write first) behind

end Slots.Lasts

namespace Memory

variable {memory : Memory} {key : String}

/-- What a key of the store holds, it holds for good. -/
def Lasts (memory : Memory) (key : String) : Prop := memory.slots.Lasts memory.clock key

theorem contents_of_held_eq {after : Memory} (same : after.held = memory.held) :
    after.contents = memory.contents :=
  funext fun key => congrArg (Option.map Slot.entry) (congrFun same key)

theorem Lasts.of_held_eq {after : Memory} (lasts : memory.Lasts key) (same : after.held = memory.held) :
    after.Lasts key := fun slot held => lasts slot ((congrFun same key).symm.trans held)

theorem Lasts.transaction (lasts : memory.Lasts key) (writes : List Write) :
    (memory.perform (.transaction writes)).2.Lasts key := by
  cases answer : (memory.perform (.transaction writes)).1 with
  | error cause => exact lasts.of_held_eq (memory.held_perform_transaction answer)
  | ok reply =>
    unfold perform at answer ⊢
    split
    · exact lasts
    · simp only [Memory.transaction]
      split
      · exact lasts
      · split
        · next slots written => exact Slots.Lasts.writeAll lasts written
        · exact lasts

/-- What a worker takes from a queue gives no key a time to live. -/
theorem Lasts.popToInflight (lasts : memory.Lasts key) (route : Route) (time : Int) :
    (memory.popToInflight route time).2.Lasts key := by
  have looked := Slots.Lasts.purge (Slots.Lasts.purge lasts route.queue) route.recurring
  have taken : (((memory.slots.purge memory.clock route.queue).purge memory.clock route.recurring).takeReady
      route time).2.Lasts memory.clock key := by
    unfold Slots.takeReady
    split
    · split
      · exact looked
      · exact looked.put _ _
    · exact looked.put _ _
    · exact looked
  dsimp only [Memory.popToInflight, Memory.purge]
  split
  · next slots idle =>
    rw [idle] at taken
    exact taken
  · next payload slots given =>
    rw [given] at taken
    split
    · next after written => exact taken.write written
    · exact taken

theorem Lasts.advance (lasts : memory.Lasts key) (millis : Nat) : (memory.advance millis).Lasts key := by
  intro slot held
  change (memory.advance millis).held key = some slot at held
  rcases memory.held_advance_or key millis with same | gone
  · exact lasts slot (same.symm.trans held)
  · cases gone.symm.trans held

/-- Time does not change what a key holds for good. -/
theorem Lasts.contents_advance (lasts : memory.Lasts key) (millis : Nat) :
    (memory.advance millis).contents key = memory.contents key := by
  apply congrArg (Option.map Slot.entry)
  change (memory.advance millis).held key = memory.held key
  cases held : memory.held key with
  | none =>
    rcases memory.held_advance_or key millis with same | gone
    · rw [same, held]
    · exact gone
  | some slot =>
    have always : slot.liveAt (memory.clock + millis) = true := by
      rw [Slot.liveAt, lasts slot held]
    exact held_advance held always

end Memory

/-! ## Changes that are made alone -/

namespace Committing

variable {ε : Type} {effect? : Contents → Option Contents} {task : Task ε Unit}

/-- What ends with its transaction leaves the store as the transaction does, and succeeds only with it. -/
theorem run_transaction {writes : List Write} {next : Except StoreError Unit → Task ε Unit}
    (succeeds : next (.ok ()) = .done ()) (fails : ∀ cause, ∃ error, next (.error cause) = .fail error)
    {memory after : Memory} {result : Except ε Unit}
    (run : (Task.call (.transaction writes) next).run memory = (result, after)) :
    (memory.perform (.transaction writes)).2 = after ∧
      (result = .ok () → (memory.perform (.transaction writes)).1 = .ok ()) := by
  rw [Task.run_call] at run
  cases answer : (memory.perform (.transaction writes)).1 with
  | ok reply =>
    rw [answer, succeeds] at run
    exact ⟨congrArg Prod.snd run, fun _ => rfl⟩
  | error cause =>
    obtain ⟨error, fails⟩ := fails cause
    rw [answer, fails] at run
    cases run
    exact ⟨rfl, nofun⟩

/-- A program that succeeds alone has made its change. -/
theorem effect_of_ok (committing : Committing effect? task) {memory after : Memory}
    (ok : task.run memory = (.ok (), after)) : effect? memory.contents = some after.contents := by
  induction committing generalizing memory with
  | fail error => exact nomatch ok
  | look key leads ih =>
    rw [← Memory.contents_of_held_eq (memory.held_perform_keyType key)]
    exact ih _ ok
  | ping leads ih =>
    rw [← Memory.contents_of_held_eq memory.held_perform_ping]
    exact ih _ ok
  | commit effective succeeds fails =>
    obtain ⟨left, made⟩ := run_transaction succeeds fails ok
    rw [← effective, ← left]
    exact memory.contents_perform_transaction (made rfl)

/-- It gives no key a time to live. -/
theorem lasts (committing : Committing effect? task) {memory after : Memory} {result : Except ε Unit}
    (run : task.run memory = (result, after)) {key : String} (lasts : memory.Lasts key) : after.Lasts key := by
  induction committing generalizing memory with
  | fail error =>
    cases run
    exact lasts
  | look name leads ih => exact ih _ run (lasts.of_held_eq (memory.held_perform_keyType name))
  | ping leads ih => exact ih _ run (lasts.of_held_eq memory.held_perform_ping)
  | commit _ succeeds fails =>
    rw [← (run_transaction succeeds fails run).1]
    exact lasts.transaction _

end Committing

/-! ## What is scheduled and what is taken out -/

namespace Change

variable {space : Keyspace} {queue payload : String} {contents after : Contents}

/-- A payload gets its score, and other keys are left alone but the names of queues. -/
theorem effect_enqueueDelayed {readyAt : Int} {scores : Dict Binary64}
    (effect : (enqueueDelayed payload readyAt).effect? space queue contents = some after)
    (held : scores? (contents (space.queue queue)) = some scores) :
    after (space.queue queue) = some (.sortedSet (Dict.insert scores payload (Binary64.ofInt readyAt))) ∧
      ∀ key, key ≠ space.queue queue → key ≠ space.queues → after key = contents key := by
  simp only [effect?, held, Option.bind_eq_bind, Option.bind_eq_some_iff] at effect
  obtain ⟨registered, entered, _, ⟨⟩, ⟨⟩⟩ := effect
  obtain ⟨names, -, rfl⟩ := Option.map_eq_some_iff.mp entered
  refine ⟨update_self .., fun key other unnamed => ?_⟩
  rw [update_of_ne other, update_of_ne unnamed]

theorem effect_removeDelayed {scores : Dict Binary64}
    (effect : (removeDelayed payload).effect? space queue contents = some after)
    (scheduled : contents (space.queue queue) = some (.sortedSet scores)) :
    after (space.queue queue) = (Entry.sortedSet (Dict.erase scores payload)).kept := by
  simp only [effect?, scheduled, Option.bind_eq_bind, Option.bind_eq_some_iff] at effect
  obtain ⟨_, ⟨⟩, ⟨⟩⟩ := effect
  exact update_self ..

theorem effect_enqueueRecurring {nextFire : Int} {frequency : Nat}
    (effect : (enqueueRecurring payload nextFire frequency).effect? space queue contents = some after)
    (unused : contents (space.queue queue) = none) (alone : contents (space.recurring queue) = none) :
    after (space.queue queue) = some (.sortedSet [(payload, Binary64.ofInt nextFire)]) ∧
      after (space.recurring queue) =
        some (.hash [(payload, String.ofList (Text.integer frequency))]) := by
  simp only [effect?, unused, alone, Option.bind_eq_bind, Option.bind_eq_some_iff] at effect
  obtain ⟨registered, -, scores, ⟨⟩, fields, ⟨⟩, ⟨⟩⟩ := effect
  refine ⟨?_, update_self ..⟩
  rw [update_of_ne (Keyspace.recurring_ne_queue queue).symm]
  exact update_self ..

theorem effect_removeRecurring {scores : Dict Binary64} {fields : Dict String}
    (effect : (removeRecurring payload).effect? space queue contents = some after)
    (scheduled : contents (space.queue queue) = some (.sortedSet scores))
    (recurs : contents (space.recurring queue) = some (.hash fields)) :
    after (space.queue queue) = (Entry.sortedSet (Dict.erase scores payload)).kept ∧
      after (space.recurring queue) = (Entry.hash (Dict.erase fields payload)).kept := by
  simp only [effect?, scheduled, recurs, Option.bind_eq_bind, Option.bind_eq_some_iff] at effect
  obtain ⟨_, ⟨⟩, _, ⟨⟩, ⟨⟩⟩ := effect
  refine ⟨update_self .., ?_⟩
  rw [update_of_ne (Keyspace.recurring_ne_queue queue)]
  exact update_self ..

end Change

/-- A key is dropped with the one entry of its container, and with no other. -/
theorem Dict.erase_singleton {α : Type} (key other : String) (value : α) :
    Dict.erase [(key, value)] other = if key = other then [] else [(key, value)] := by
  by_cases same : key = other <;> simp [Dict.erase, same]

/-! ## Cancelling through a client -/

namespace Client

section Cancelling

variable {client : Client} {queue : String} {memory between after : Memory} {job other : Job} {millis : Nat}

/-- What is left of a delayed job when another job has been cancelled. -/
theorem delayed_left {now readyAt : Instant} (unused : memory.contents (client.space.queue queue) = none)
    (enqueued : (client.enqueueDelayed now queue (some job) readyAt).run memory = (.ok (), between))
    (removed : (client.removeDelayed queue (some other)).run (between.advance millis) = (.ok (), after)) :
    after.contents (client.space.queue queue) =
      if Codec.encodeJob job = Codec.encodeJob other then none
      else some (.sortedSet [(Codec.encodeJob job, Binary64.ofInt readyAt.epochMillis)]) := by
  have enqueues := Order.committing client queue (.enqueueDelayed now (some job) readyAt)
  have removes := Order.committing client queue (.removeDelayed (some other))
  have empty : scores? (memory.contents (client.space.queue queue)) = some [] := by
    rw [unused]
    rfl
  obtain ⟨scheduled, -⟩ := Change.effect_enqueueDelayed (enqueues.effect_of_ok enqueued) empty
  have lasts := enqueues.lasts enqueued (Slots.Lasts.of_absent unused)
  have still := (lasts.contents_advance millis).trans scheduled
  refine (Change.effect_removeDelayed (removes.effect_of_ok removed) still).trans ?_
  rw [Dict.insert, Dict.erase_singleton]
  split <;> rfl

/-- What is left of a recurring job when another job has been stopped. -/
theorem recurring_left {now firstFire : Instant} {frequency : Nat}
    (unused : memory.contents (client.space.queue queue) = none)
    (alone : memory.contents (client.space.recurring queue) = none)
    (enqueued : (client.enqueueRecurring now queue (some job) firstFire frequency).run memory =
      (.ok (), between))
    (removed : (client.removeRecurring queue (some other)).run (between.advance millis) = (.ok (), after)) :
    after.contents (client.space.queue queue) =
        (if Codec.encodeJob job = Codec.encodeJob other then none
        else some (.sortedSet [(Codec.encodeJob job, Binary64.ofInt firstFire.epochMillis)])) ∧
      after.contents (client.space.recurring queue) =
        (if Codec.encodeJob job = Codec.encodeJob other then none
        else some (.hash [(Codec.encodeJob job, String.ofList (Text.integer frequency))])) := by
  have enqueues := Order.committing client queue (.enqueueRecurring now (some job) firstFire frequency)
  have removes := Order.committing client queue (.removeRecurring (some other))
  obtain ⟨scheduled, recurs⟩ := Change.effect_enqueueRecurring (enqueues.effect_of_ok enqueued) unused alone
  have lasts := enqueues.lasts enqueued (Slots.Lasts.of_absent unused)
  have companion := enqueues.lasts enqueued (Slots.Lasts.of_absent alone)
  have left := Change.effect_removeRecurring (removes.effect_of_ok removed)
    ((lasts.contents_advance millis).trans scheduled) ((companion.contents_advance millis).trans recurs)
  rw [Dict.erase_singleton, Dict.erase_singleton] at left
  refine ⟨left.1.trans ?_, left.2.trans ?_⟩ <;> split <;> rfl

end Cancelling

/-- Cancelling a job that is equal to the one job of a queue, and spelled like it, leaves nothing; if it is
spelled otherwise, the job stays as it was. The same goes for a recurring job and its frequency. -/
theorem cancels_iff_alike {job other : Job} (distinct : job.Distinct) (same : job.same other = true)
    (client : Client) (queue : String) (memory : Memory) (millis : Nat)
    (unused : memory.contents (client.space.queue queue) = none) :
    (∀ now readyAt between after,
      (client.enqueueDelayed now queue (some job) readyAt).run memory = (.ok (), between) →
      (client.removeDelayed queue (some other)).run (between.advance millis) = (.ok (), after) →
        (job.Alike other → after.contents (client.space.queue queue) = none) ∧
        (¬ job.Alike other → after.contents (client.space.queue queue) =
          some (.sortedSet [(Codec.encodeJob job, Binary64.ofInt readyAt.epochMillis)]))) ∧
    (∀ now firstFire frequency between after,
      memory.contents (client.space.recurring queue) = none →
      (client.enqueueRecurring now queue (some job) firstFire frequency).run memory = (.ok (), between) →
      (client.removeRecurring queue (some other)).run (between.advance millis) = (.ok (), after) →
        (job.Alike other → after.contents (client.space.queue queue) = none ∧
          after.contents (client.space.recurring queue) = none) ∧
        (¬ job.Alike other → after.contents (client.space.queue queue) =
            some (.sortedSet [(Codec.encodeJob job, Binary64.ofInt firstFire.epochMillis)]) ∧
          after.contents (client.space.recurring queue) =
            some (.hash [(Codec.encodeJob job, String.ofList (Text.integer frequency))]))) := by
  have text := Job.encodeJob_eq_iff distinct same
  constructor
  · intro now readyAt between after enqueued removed
    have left := delayed_left unused enqueued removed
    constructor
    · intro alike
      rw [left, if_pos (text.mpr alike)]
    · intro unlike
      rw [left, if_neg (mt text.mp unlike)]
  · intro now firstFire frequency between after alone enqueued removed
    obtain ⟨queued, recurs⟩ := recurring_left unused alone enqueued removed
    constructor
    · intro alike
      rw [queued, recurs, if_pos (text.mpr alike), if_pos (text.mpr alike)]
      exact ⟨rfl, rfl⟩
    · intro unlike
      rw [queued, recurs, if_neg (mt text.mp unlike), if_neg (mt text.mp unlike)]
      exact ⟨rfl, rfl⟩

section Samples

def canceller : Client where
  space := ⟨"app"⟩

/-- A job is scheduled in an empty store, to be ready in the year 2200. -/
def scheduled (job : Job) : Except ClientError Unit × Memory :=
  (canceller.enqueueDelayed ⟨0, 0⟩ "mail" (some job) ⟨7258118400, 0⟩).run {}

/-- A job is scheduled, and another is cancelled. -/
def cancelled (job other : Job) : Except ClientError Unit × Memory :=
  (canceller.removeDelayed "mail" (some other)).run (scheduled job).2

def sized : Job := { className := "Resize", args := [.object [("w", .int 640), ("h", .int 480)]] }

/-- The same job with its keys in another order. -/
def resized : Job := { className := "Resize", args := [.object [("h", .int 480), ("w", .int 640)]] }

def warmed : Job := { className := "Warm", args := [.float (Binary64.zero false)] }

/-- The same job with another zero. -/
def cooled : Job := { className := "Warm", args := [.float (Binary64.zero true)] }

theorem ok_of_isOk {ε : Type} {result : Except ε Unit} (ok : result.isOk = true) : result = .ok () := by
  cases result with
  | ok => rfl
  | error => contradiction

theorem sized_distinct : sized.Distinct where
  args := ⟨⟨by decide, trivial, trivial, trivial⟩, trivial⟩
  vars := nofun

/-- A scheduled job that is cancelled as it was spelled is gone. -/
theorem cancels_iff_alike_sized :
    (cancelled sized sized).1 = .ok () ∧
      (cancelled sized sized).2.contents (canceller.space.queue "mail") = none := by
  have enqueued : (scheduled sized).1 = .ok () := ok_of_isOk (by decide +kernel)
  have removed : (cancelled sized sized).1 = .ok () := ok_of_isOk (by decide +kernel)
  have same : sized.same sized = true := by decide +kernel
  have alike : sized.Alike sized :=
    ⟨⟨⟨rfl, trivial, rfl, trivial, trivial⟩, trivial⟩, nofun⟩
  have cancels := (cancels_iff_alike sized_distinct same canceller "mail" {} 0 rfl).1 ⟨0, 0⟩
    ⟨7258118400, 0⟩ (scheduled sized).2 (cancelled sized sized).2 (Prod.ext enqueued rfl) (Prod.ext removed rfl)
  exact ⟨removed, cancels.1 alike⟩

/-- Both calls succeed for equal jobs that name a class, and yet a payload is left that is decoded to an equal
job. -/
structure Survives (job other : Job) : Prop where
  valid : job.isValid = true ∧ other.isValid = true
  same : job.same other = true
  enqueued : (scheduled job).1 = .ok ()
  removed : (cancelled job other).1 = .ok ()
  left : ∃ payload score found,
    (cancelled job other).2.contents (canceller.space.queue "mail") = some (.sortedSet [(payload, score)]) ∧
      Codec.decodeJob payload = .ok found ∧ found.same job = true

theorem survives {job other : Job} (valid : (job.isValid && other.isValid && job.same other) = true)
    (enqueued : (scheduled job).1.isOk = true) (removed : (cancelled job other).1.isOk = true)
    (unlike : Codec.encodeJob job ≠ Codec.encodeJob other)
    (decoded : (Codec.decodeJob (Codec.encodeJob job)).toOption.any (·.same job) = true) :
    Survives job other := by
  simp only [Bool.and_eq_true] at valid
  have enqueued := ok_of_isOk enqueued
  have removed := ok_of_isOk removed
  refine ⟨valid.1, valid.2, enqueued, removed, ?_⟩
  have left := @delayed_left canceller "mail" {} _ _ job other 0 ⟨0, 0⟩ ⟨7258118400, 0⟩ rfl
    (Prod.ext enqueued rfl) (Prod.ext removed rfl)
  rw [if_neg unlike] at left
  cases read : Codec.decodeJob (Codec.encodeJob job) with
  | ok found =>
    rw [read] at decoded
    exact ⟨_, _, found, left, read, decoded⟩
  | error cause =>
    rw [read] at decoded
    exact absurd decoded Bool.false_ne_true

/-- Equal jobs that are spelled differently do not cancel each other. -/
theorem sized_warmed_survive : Survives sized resized ∧ Survives warmed cooled :=
  ⟨survives (by decide +kernel) (by decide +kernel) (by decide +kernel) (by decide +kernel) (by decide +kernel),
    survives (by decide +kernel) (by decide +kernel) (by decide +kernel) (by decide +kernel)
      (by decide +kernel)⟩

end Samples

end Client

end JobQueue
