import Mathlib.Logic.Function.Iterate
import JobQueue.Proofs.Store.Expiry

/-! # Requests that keep to some keys

Two stores that hold the same at some keys answer alike what is only about those keys, hold the same there
again, and change nowhere else. One more key may be shared with others: a name is entered into the set that
it holds, and whether it can be entered does not depend on the names that are in the set already.
-/

namespace JobQueue

open Contents (set?)

/-- Two names can be entered in either order. -/
theorem insertMember_comm (first second : String) (members : List String) :
    insertMember first (insertMember second members) = insertMember second (insertMember first members) := by
  induction members with
  | nil =>
    simp only [insertMember]
    grind
  | cons head rest ih =>
    -- the order of the two names and of the head decides where each of them goes
    simp only [insertMember]
    grind [insertMember]

namespace Slots

/-! ## Names -/

section Names

variable (now : Nat) (name other : String) (slot? : Option Slot)

/-- What a key holds once a name has been entered into its set. -/
def entered : Option Slot :=
  match slot?.filter (Slot.liveAt · now) with
  | none => some ⟨.set [name], none⟩
  | some ⟨.set members, time?⟩ => some ⟨.set (insertMember name members), time?⟩
  | some held => some held

/-- Whether a name can be entered into what a key holds. -/
def enterable : Bool := (set? ((slot?.filter (Slot.liveAt · now)).map Slot.entry)).isSome

/-- What a name has been entered into has not expired. -/
theorem filter_entered : (entered now name slot?).filter (Slot.liveAt · now) = entered now name slot? := by
  unfold entered
  cases held : slot?.filter (Slot.liveAt · now) with
  | none => rfl
  | some slot =>
    have live := (Option.filter_eq_some_iff.mp held).2
    obtain ⟨entry, time?⟩ := slot
    cases entry <;> exact Option.filter_eq_some_iff.mpr ⟨rfl, live⟩

theorem enterable_entered : enterable now (entered now name slot?) = enterable now slot? := by
  rw [enterable, filter_entered, enterable, entered]
  cases slot?.filter (Slot.liveAt · now) with
  | none => rfl
  | some slot =>
    obtain ⟨entry, time?⟩ := slot
    cases entry <;> rfl

theorem entered_comm : Function.Commute (entered now name) (entered now other) := by
  intro slot?
  rw [entered, filter_entered, entered, entered, filter_entered, entered]
  cases slot?.filter (Slot.liveAt · now) with
  | none => exact congrArg (fun members => some (Slot.mk (.set members) none)) (insertMember_comm name other [])
  | some slot =>
    obtain ⟨entry, time?⟩ := slot
    cases entry with
    | set members =>
      exact congrArg (fun members => some (Slot.mk (.set members) time?)) (insertMember_comm name other members)
    | _ => rfl

theorem enterable_iterate (times : Nat) :
    enterable now ((entered now name)^[times] slot?) = enterable now slot? := by
  induction times generalizing slot? with
  | zero => rfl
  | succ times ih => rw [Function.iterate_succ_apply, ih, enterable_entered]

end Names

/-! ## Two stores side by side -/

/-- Behind two stores that have gone on in the same way, with the keys of their own. -/
structure Abreast (own : String → Prop) (names name : String) (now : Nat) (first second one other : Slots) :
    Prop where
  inside {key : String} (mine : own key) : Dict.get? one key = Dict.get? other key
  outside {key : String} (foreign : ¬ own key) (differ : key ≠ names) :
    Dict.get? one key = Dict.get? first key ∧ Dict.get? other key = Dict.get? second key
  /-- The name has been entered as often into the one as into the other. -/
  entered : ∃ times : Nat, Dict.get? one names = (Slots.entered now name)^[times] (Dict.get? first names) ∧
    Dict.get? other names = (Slots.entered now name)^[times] (Dict.get? second names)

/-- What a write leaves on both sides, unless it fails for one reason on both. -/
inductive BothWrite (abreast : Slots → Slots → Prop) : Except StoreError Slots → Except StoreError Slots → Prop
  | ok {one other : Slots} (still : abreast one other) : BothWrite abreast (.ok one) (.ok other)
  | error (cause : StoreError) : BothWrite abreast (.error cause) (.error cause)

theorem get?_put (slots : Slots) (key : String) (entry : Entry) :
    Dict.get? (slots.put key entry) key =
      if entry.isEmpty then none else some ⟨entry, (Dict.get? slots key).bind Slot.expiresAt⟩ := by
  unfold put
  split
  · rw [Dict.get?_erase, if_pos rfl]
  · rw [Dict.get?_insert, if_pos rfl]

/-- A name is entered where it can be, and nothing else is changed. -/
theorem write_addMember (slots : Slots) (now : Nat) (names name : String) :
    (enterable now (Dict.get? slots names) = true ∧ ∃ next,
        slots.write now (.addMember names name) = .ok next ∧ SameBut names slots next ∧
        Dict.get? next names = entered now name (Dict.get? slots names)) ∨
      enterable now (Dict.get? slots names) = false ∧
        slots.write now (.addMember names name) = .error (.wrongType names) := by
  have purged : Dict.get? (slots.purge now names) names = (Dict.get? slots names).filter (Slot.liveAt · now) :=
    get?_purge slots now names
  have left (entry : Entry) : SameBut names slots ((slots.purge now names).put names entry) :=
    ((SameBut.refl slots).purge now).put entry
  simp only [Slots.write, Slots.entry?, Write.key, purged, enterable, entered]
  cases held : (Dict.get? slots names).filter (Slot.liveAt · now) with
  | none =>
    refine .inl ⟨rfl, _, rfl, left _, ?_⟩
    rw [get?_put, purged, held]
    rfl
  | some slot =>
    obtain ⟨entry, time?⟩ := slot
    cases entry with
    | set members =>
      refine .inl ⟨rfl, _, rfl, left _, ?_⟩
      have filled : ¬ (Entry.set (insertMember name members)).isEmpty = true := by
        intro empty
        have kept := kept_insertMember name members
        rw [kept_of_isEmpty empty] at kept
        contradiction
      rw [get?_put, if_neg filled, purged, held]
      rfl
    | _ => exact .inr ⟨rfl, rfl⟩

namespace Abreast

variable {own : String → Prop} {names name : String} {now : Nat} {first second one other : Slots}

/-- Two stores begin side by side. -/
theorem refl (inside : ∀ key, own key → Dict.get? first key = Dict.get? second key) :
    Abreast own names name now first second first second where
  inside := inside _
  outside _ _ := ⟨rfl, rfl⟩
  entered := ⟨0, rfl, rfl⟩

variable (abreast : Abreast own names name now first second one other)

include abreast

theorem entry?_eq {key : String} (mine : own key) : one.entry? key = other.entry? key :=
  congrArg (Option.map Slot.entry) (abreast.inside mine)

variable (apart : ¬ own names)

include apart

/-- The same change of a key of their own. -/
theorem change {key : String} (mine : own key) {next after : Slots} (left : SameBut key one next)
    (right : SameBut key other after) (same : Dict.get? next key = Dict.get? after key) :
    Abreast own names name now first second next after where
  inside {looked} owned := by
    by_cases changed : looked = key
    · rw [changed]
      exact same
    · rw [left looked changed, right looked changed]
      exact abreast.inside owned
  outside {looked} foreign differ := by
    have unchanged : looked ≠ key := fun equal => foreign (equal ▸ mine)
    rw [left looked unchanged, right looked unchanged]
    exact abreast.outside foreign differ
  entered := by
    have unchanged : names ≠ key := fun equal => apart (equal ▸ mine)
    rw [left names unchanged, right names unchanged]
    exact abreast.entered

theorem purge {key : String} (mine : own key) :
    Abreast own names name now first second (one.purge now key) (other.purge now key) := by
  apply abreast.change apart mine ((SameBut.refl _).purge now) ((SameBut.refl _).purge now)
  rw [get?_purge, get?_purge, held, held, abreast.inside mine]

theorem put {key : String} (mine : own key) (entry : Entry) :
    Abreast own names name now first second (one.put key entry) (other.put key entry) := by
  apply abreast.change apart mine ((SameBut.refl _).put entry) ((SameBut.refl _).put entry)
  rw [get?_put, get?_put, abreast.inside mine]

theorem takeHead {key : String} (mine : own key) :
    (one.takeHead key).1 = (other.takeHead key).1 ∧
      Abreast own names name now first second (one.takeHead key).2 (other.takeHead key).2 := by
  simp only [Slots.takeHead, abreast.entry?_eq mine]
  split
  · exact ⟨rfl, abreast.put apart mine _⟩
  · exact ⟨rfl, abreast⟩

theorem takeReady {route : Route} (queue : own route.queue) (recurring : own route.recurring) (time : Int) :
    (one.takeReady route time).1 = (other.takeReady route time).1 ∧
      Abreast own names name now first second (one.takeReady route time).2 (other.takeReady route time).2 := by
  simp only [Slots.takeReady, frequency?, abreast.entry?_eq queue, abreast.entry?_eq recurring]
  split
  · split
    · exact ⟨rfl, abreast⟩
    · exact ⟨rfl, abreast.put apart queue _⟩
  · exact ⟨rfl, abreast.put apart queue _⟩
  · exact ⟨rfl, abreast⟩

/-- A write to a key of their own is made on both sides, with the same effect, or on none. -/
theorem write {write : Write} (mine : own write.key) :
    BothWrite (Abreast own names name now first second) (one.write now write) (other.write now write) := by
  have looked := abreast.purge apart mine
  simp only [Slots.write, looked.entry?_eq mine]
  split
  · exact .ok (looked.put apart mine _)
  · exact .error _

/-- A name is entered on both sides or on none. -/
theorem enter (alike : enterable now (Dict.get? first names) = enterable now (Dict.get? second names)) :
    BothWrite (Abreast own names name now first second) (one.write now (.addMember names name))
      (other.write now (.addMember names name)) := by
  obtain ⟨times, left, right⟩ := abreast.entered
  have both : enterable now (Dict.get? one names) = enterable now (Dict.get? other names) := by
    rw [left, right, enterable_iterate, enterable_iterate, alike]
  rcases write_addMember one now names name with
    ⟨possible, next, made, unchanged, enters⟩ | ⟨refused, failed⟩ <;>
    rcases write_addMember other now names name with
      ⟨possibleToo, after, madeToo, unchangedToo, entersToo⟩ | ⟨refusedToo, failedToo⟩
  · rw [made, madeToo]
    refine .ok ⟨fun {key} mine => ?_, fun {key} foreign differ => ?_, times + 1, ?_, ?_⟩
    · have differ : key ≠ names := fun equal => apart (equal ▸ mine)
      rw [unchanged key differ, unchangedToo key differ]
      exact abreast.inside mine
    · rw [unchanged key differ, unchangedToo key differ]
      exact abreast.outside foreign differ
    · rw [enters, left, Function.iterate_succ_apply']
    · rw [entersToo, right, Function.iterate_succ_apply']
  · exact nomatch possible.symm.trans (both.trans refusedToo)
  · exact nomatch refused.symm.trans (both.trans possibleToo)
  · rw [failed, failedToo]
    exact .error _

/-- Writes to keys of their own, among which the name may be entered. -/
theorem writeAll (alike : enterable now (Dict.get? first names) = enterable now (Dict.get? second names))
    {writes : List Write} (allowed : ∀ write ∈ writes, own write.key ∨ write = .addMember names name) :
    BothWrite (Abreast own names name now first second) (one.writeAll now writes) (other.writeAll now writes) := by
  induction writes generalizing one other with
  | nil => exact .ok abreast
  | cons write rest ih =>
    have both : BothWrite (Abreast own names name now first second) (one.write now write)
        (other.write now write) := by
      rcases allowed write List.mem_cons_self with mine | rfl
      · exact abreast.write apart mine
      · exact abreast.enter apart alike
    rw [Slots.writeAll, Slots.writeAll]
    generalize one.write now write = made, other.write now write = madeToo at both ⊢
    cases both with
    | ok still => exact ih still fun write among => allowed write (List.mem_cons_of_mem _ among)
    | error cause => exact .error cause

end Abreast

end Slots

/-! ## Requests -/

/-- A request about keys of their own, which may enter the name besides. -/
def Request.Within (own : String → Prop) (names name : String) : Request → Prop
  | keyType key | popInflight key => own key
  | transaction writes => ∀ write ∈ writes, own write.key ∨ write = .addMember names name
  | popToInflight route _ | restoreInflight route _ =>
    own route.queue ∧ own route.recurring ∧ own route.inflight
  | _ => False

/-- The same answer from two stores, which have made equally many transactions since. -/
inductive Memory.Abreast (abreast : Slots → Slots → Prop) (base : Memory) (one other : Nat) {α : Type} :
    α × Memory → α × Memory → Prop
  | mk (answer : α) {next after : Slots} (made : Nat) (still : abreast next after) :
    Abreast abreast base one other (answer, { base with slots := next, transactions := one + made })
      (answer, { base with slots := after, transactions := other + made })

namespace Memory

variable {own : String → Prop} {names name : String} {base : Memory} {first second one other : Slots}
  (abreast : Slots.Abreast own names name base.clock first second one other) (apart : ¬ own names) (i j : Nat)

include abreast apart

theorem transaction_abreast (undisturbed : base.discardNext = false)
    (alike : Slots.enterable base.clock (Dict.get? first names) =
      Slots.enterable base.clock (Dict.get? second names))
    {writes : List Write} (allowed : ∀ write ∈ writes, own write.key ∨ write = .addMember names name) :
    Memory.Abreast (Slots.Abreast own names name base.clock first second) base i j
      (transaction { base with slots := one, transactions := i } writes)
      (transaction { base with slots := other, transactions := j } writes) := by
  have both := abreast.writeAll apart alike allowed
  unfold transaction
  dsimp only
  rw [if_neg (ne_true_of_eq_false undisturbed), if_neg (ne_true_of_eq_false undisturbed)]
  generalize one.writeAll base.clock writes = made, other.writeAll base.clock writes = madeToo at both ⊢
  cases both with
  | ok still => exact .mk _ 1 still
  | error cause => exact .mk _ 0 abreast

/-- What has been taken is put somewhere else, or the write fails on both sides. -/
theorem put_abreast (payload : String) {write : Write} (mine : own write.key) :
    Memory.Abreast (Slots.Abreast own names name base.clock first second) base i j
      (α := Except StoreError (Option String))
      (match one.write base.clock write with
        | .ok slots => (.ok (some payload), { base with slots, transactions := i })
        | .error error => (.error error, { base with slots := one, transactions := i }))
      (match other.write base.clock write with
        | .ok slots => (.ok (some payload), { base with slots, transactions := j })
        | .error error => (.error error, { base with slots := other, transactions := j })) := by
  have both := abreast.write apart mine
  generalize one.write base.clock write = made, other.write base.clock write = madeToo at both ⊢
  cases both with
  | ok still => exact .mk _ 0 still
  | error cause => exact .mk _ 0 abreast

theorem popToInflight_abreast {route : Route} (mine : own route.queue ∧ own route.recurring ∧ own route.inflight)
    (now : Int) :
    Memory.Abreast (Slots.Abreast own names name base.clock first second) base i j
      (popToInflight { base with slots := one, transactions := i } route now)
      (popToInflight { base with slots := other, transactions := j } route now) := by
  obtain ⟨queue, recurring, inflight⟩ := mine
  have looked := (abreast.purge apart queue).purge apart recurring
  obtain ⟨given, left⟩ := looked.takeReady apart queue recurring now
  dsimp only [popToInflight, purge]
  generalize Slots.takeReady ((one.purge base.clock route.queue).purge base.clock route.recurring) route now = here,
    Slots.takeReady ((other.purge base.clock route.queue).purge base.clock route.recurring) route now = there
    at given left ⊢
  obtain ⟨payload?, next⟩ := here
  obtain ⟨given?, after⟩ := there
  cases given
  cases payload? with
  | none => exact .mk _ 0 left
  | some payload => exact put_abreast left apart i j payload inflight

theorem popInflight_abreast {key : String} (mine : own key) :
    Memory.Abreast (Slots.Abreast own names name base.clock first second) base i j
      (popInflight { base with slots := one, transactions := i } key)
      (popInflight { base with slots := other, transactions := j } key) := by
  have looked := abreast.purge apart mine
  obtain ⟨given, left⟩ := looked.takeHead apart mine
  simp only [popInflight, purge, entry?, looked.entry?_eq mine, given]
  split
  · exact .mk _ 0 left
  · exact .mk _ 0 left
  · exact .mk _ 0 looked

theorem restoreInflight_abreast {route : Route}
    (mine : own route.queue ∧ own route.recurring ∧ own route.inflight) (now : Int) :
    Memory.Abreast (Slots.Abreast own names name base.clock first second) base i j
      (restoreInflight { base with slots := one, transactions := i } route now)
      (restoreInflight { base with slots := other, transactions := j } route now) := by
  obtain ⟨queue, recurring, inflight⟩ := mine
  obtain ⟨given, left⟩ := (abreast.purge apart inflight).takeHead apart inflight
  dsimp only [restoreInflight, purge]
  generalize Slots.takeHead (one.purge base.clock route.inflight) route.inflight = here,
    Slots.takeHead (other.purge base.clock route.inflight) route.inflight = there at given left ⊢
  obtain ⟨payload?, next⟩ := here
  obtain ⟨given?, after⟩ := there
  cases given
  cases payload? with
  | none => exact .mk _ 0 left
  | some payload =>
    have found : next.isRecurring route.recurring payload = after.isRecurring route.recurring payload := by
      rw [Slots.isRecurring, Slots.isRecurring, left.entry?_eq recurring]
    have purged := left.purge apart queue
    have returned : (next.purge base.clock route.queue).returnWrite route.queue payload now =
        (after.purge base.clock route.queue).returnWrite route.queue payload now := by
      rw [Slots.returnWrite, Slots.returnWrite, purged.entry?_eq queue]
    have key : ((after.purge base.clock route.queue).returnWrite route.queue payload now).key = route.queue := by
      unfold Slots.returnWrite
      split <;> rfl
    dsimp only
    rw [found, returned]
    split
    · exact .mk _ 0 left
    · exact put_abreast purged apart i j payload (key.symm ▸ queue)

/-- A request that keeps to their own keys has the same answer on both sides, and leaves them side by side. -/
theorem perform_abreast (undisturbed : base.discardNext = false)
    (alike : Slots.enterable base.clock (Dict.get? first names) =
      Slots.enterable base.clock (Dict.get? second names))
    {request : Request} (within : request.Within own names name) :
    Memory.Abreast (Slots.Abreast own names name base.clock first second) base i j
      (perform { base with slots := one, transactions := i } request)
      (perform { base with slots := other, transactions := j } request) := by
  unfold perform
  dsimp only
  split
  · exact .mk _ 0 abreast
  cases request with
  | keyType key =>
    have looked := abreast.purge apart within
    simp only [answering, typeOf, purge, entry?, looked.entry?_eq within]
    exact .mk _ 0 looked
  | transaction writes => exact transaction_abreast abreast apart i j undisturbed alike within
  | popToInflight route now => exact popToInflight_abreast abreast apart i j within now
  | popInflight key => exact popInflight_abreast abreast apart i j within
  | restoreInflight route now => exact restoreInflight_abreast abreast apart i j within now
  | ping | get | setIfAbsent | expire | timeToLive | delete | compareAndDelete | publish => contradiction

end Memory

end JobQueue
