import JobQueue.Proofs.Store.Expiry
import JobQueue.Proofs.Store.Schedule

/-! # Jobs on their way between a queue and a list in flight

A job that becomes ready leaves its queue for a list in flight, and may come back from there. What each of the
two moves should do is told by what the keys hold before and after it. A move is whole if it has done that, or
has left every key as it was. Both moves take before they put, and nothing is put back if the second half
fails; so a move is not whole just if something is taken that the other key does not take in.
-/

namespace JobQueue

open Function (update update_self update_of_ne update_eq_self update_eq_self_iff)

/-- The keys of a route are three. -/
structure Route.Distinct (route : Route) : Prop where
  recurring : route.recurring ≠ route.queue
  inflight : route.inflight ≠ route.queue
  companion : route.inflight ≠ route.recurring

/-! ## What the moves should do -/

/-- A member is the first in order of those that are scored at most so high. -/
structure Schedule.Leads (limit : Binary64) (scores : Dict Binary64) (member : String) (score : Binary64) :
    Prop where
  among : (member, score) ∈ scores
  ready : score.atMost limit = true
  first : ∀ other ∈ scores, other.2.atMost limit = true → precedes (member, score) other = true

namespace Contents

/-- The frequency of a member, if its field spells a number. -/
def frequency? (contents : Contents) (key member : String) : Option Binary64 :=
  match contents key with
  | some (.hash fields) => (Dict.get? fields member).bind Binary64.ofText?
  | _ => none

/-- A member has a field among the frequencies. -/
def Recurs (contents : Contents) (key member : String) : Prop :=
  ∃ fields, contents key = some (.hash fields) ∧ (Dict.get? fields member).isSome

/-- The scores of a sorted set that has given a member: it is put off by its frequency, or taken out. -/
def scoresBehind (contents : Contents) (route : Route) (scores : Dict Binary64) (member : String) :
    Dict Binary64 :=
  match contents.frequency? route.recurring member with
  | some frequency => Schedule.putOff scores member frequency
  | none => Dict.erase scores member

/-- What a queue can give at a time, and what it holds then. -/
inductive Gives (contents : Contents) (route : Route) (now : Int) : String → Option Entry → Prop
  /-- A list gives its head. -/
  | head {payload : String} {rest : List String}
      (held : contents route.queue = some (.list (payload :: rest))) :
      Gives contents route now payload (listed rest)
  /-- A sorted set gives the first member that is ready. -/
  | lead {scores : Dict Binary64} {payload : String} {score : Binary64}
      (held : contents route.queue = some (.sortedSet scores))
      (leads : Schedule.Leads (Binary64.ofInt now) scores payload score) :
      Gives contents route now payload (Entry.sortedSet (contents.scoresBehind route scores payload)).kept

/-- What a queue holds when a job has come back to it at a time. -/
inductive TakesBack (contents : Contents) (route : Route) (now : Int) (payload : String) :
    Option Entry → Prop
  /-- A member with a frequency is still scheduled. -/
  | scheduled (recurs : contents.Recurs route.recurring payload) :
      TakesBack contents route now payload (contents route.queue)
  | schedule {scores : Dict Binary64} (once : ¬ contents.Recurs route.recurring payload)
      (held : contents route.queue = some (.sortedSet scores)) :
      TakesBack contents route now payload
        (some (.sortedSet (Dict.insert scores payload (Binary64.ofInt now))))
  /-- Anything else is a list, or nothing yet. -/
  | prepend {items : List String} (once : ¬ contents.Recurs route.recurring payload)
      (held : list? (contents route.queue) = some items) :
      TakesBack contents route now payload (some (.list (payload :: items)))

/-- A job has left its queue and is at the head of the list in flight. -/
structure IntoFlight (route : Route) (now : Int) (before : Contents) (payload : String) (after : Contents) :
    Prop where
  source : before.Gives route now payload (after route.queue)
  target : ∃ items, list? (before route.inflight) = some items ∧
    after route.inflight = some (.list (payload :: items))
  others : ∀ key, key ≠ route.queue → key ≠ route.inflight → after key = before key

/-- The head of the list in flight has come back to its queue. -/
structure OutOfFlight (route : Route) (now : Int) (before : Contents) (payload : String) (after : Contents) :
    Prop where
  source : ∃ rest, before route.inflight = some (.list (payload :: rest)) ∧
    after route.inflight = listed rest
  target : before.TakesBack route now payload (after route.queue)
  others : ∀ key, key ≠ route.queue → key ≠ route.inflight → after key = before key

end Contents

/-! ## What a queue gives -/

namespace Schedule

variable {limit score other : Binary64} {scores : Dict Binary64} {member name : String}

theorem leads_of_firstUpTo (given : firstUpTo limit scores = some (member, score)) :
    Leads limit scores member score := by
  obtain ⟨among, ready, first⟩ := firstUpTo_eq_some given
  exact ⟨among, ready, first⟩

/-- Only one member is the first. -/
theorem Leads.unique (leads : Leads limit scores member score) (also : Leads limit scores name other) :
    member = name := by
  have before := precedes_iff.mp (leads.first _ also.among also.ready)
  have behind := precedes_iff.mp (also.first _ leads.among leads.ready)
  rcases before with less | ⟨same, le⟩
  · rcases behind with more | ⟨equal, -⟩ <;> omega
  · rcases behind with more | ⟨-, ge⟩
    · omega
    · exact String.le_antisymm le ge

end Schedule

namespace Contents

variable {contents : Contents} {route : Route} {time : Int} {payload other : String} {left rest : Option Entry}

/-- A queue gives one job at a time. -/
theorem Gives.unique (gives : contents.Gives route time payload left)
    (also : contents.Gives route time other rest) : payload = other ∧ left = rest := by
  cases gives with
  | head held =>
    cases also with
    | head same =>
      cases held.symm.trans same
      exact ⟨rfl, rfl⟩
    | lead same => cases held.symm.trans same
  | lead held leads =>
    cases also with
    | head same => cases held.symm.trans same
    | lead same first =>
      cases held.symm.trans same
      obtain rfl := leads.unique first
      exact ⟨rfl, rfl⟩

end Contents

namespace Slots

variable {slots : Slots} {contents : Contents} {route : Route} {payload : String} {left : Option Entry}

/-- A queue is found to give nothing, or it is left with what it holds without the job that it gives. -/
theorem takeReady_cases (queue : slots.entry? route.queue = contents route.queue)
    (recurring : slots.entry? route.recurring = contents route.recurring) (time : Int) :
    (slots.takeReady route time = (none, slots) ∧ ∀ payload left, ¬ contents.Gives route time payload left) ∨
      ∃ payload entry, slots.takeReady route time = (some payload, slots.put route.queue entry) ∧
        contents.Gives route time payload entry.kept := by
  rw [takeReady, queue]
  split
  · next scores held =>
    split
    · next nothing =>
      refine .inl ⟨rfl, fun payload left gives => ?_⟩
      cases gives with
      | head same => cases held.symm.trans same
      | lead same leads =>
        cases held.symm.trans same
        exact Schedule.firstUpTo_eq_none nothing _ leads.among leads.ready
    · next member score given =>
      have frequency : slots.frequency? route.recurring member = contents.frequency? route.recurring member := by
        rw [Slots.frequency?, recurring]
        rfl
      refine .inr ⟨member, _, rfl, ?_⟩
      rw [frequency]
      exact .lead held (Schedule.leads_of_firstUpTo given)
  · next head rest held => exact .inr ⟨head, _, rfl, .head held⟩
  · next unsorted unlisted =>
    refine .inl ⟨rfl, fun payload left gives => ?_⟩
    cases gives with
    | head held => exact unlisted _ _ held
    | lead held => exact unsorted _ held

/-- What requests have looked at is what they take a job from. -/
theorem takeReady_looked (slots : Slots) (now : Nat) (route : Route) (time : Int) :
    let looked := (slots.purge now route.queue).purge now route.recurring
    (looked.takeReady route time = (none, looked) ∧
        ∀ payload left, ¬ (slots.contents now).Gives route time payload left) ∨
      ∃ payload entry, looked.takeReady route time = (some payload, looked.put route.queue entry) ∧
        (slots.contents now).Gives route time payload entry.kept ∧
        (looked.put route.queue entry).contents now = update (slots.contents now) route.queue entry.kept := by
  intro looked
  have recurring : looked.entry? route.recurring = slots.contents now route.recurring :=
    (entry?_purge _ now _).trans (congrFun (contents_purge slots now _) _)
  have found : Dict.get? looked route.queue = slots.held now route.queue := by
    by_cases same : route.queue = route.recurring
    · rw [same, get?_purge, held_purge]
    · rw [(SameBut.refl _).purge now _ same, get?_purge]
  have queue : looked.entry? route.queue = slots.contents now route.queue := congrArg (Option.map Slot.entry) found
  rcases takeReady_cases queue recurring time with idle | ⟨payload, entry, taken, gives⟩
  · exact .inl idle
  · refine .inr ⟨payload, entry, taken, gives, ?_⟩
    have live (slot : Slot) (stored : Dict.get? looked route.queue = some slot) : slot.liveAt now = true :=
      (Option.filter_eq_some_iff.mp (found.symm.trans stored)).2
    rw [contents_put live, contents_purge, contents_purge]

/-- A write that does not apply to what its key holds fails. -/
theorem write_eq_error {now : Nat} {write : Write} (refused : (slots.contents now).write? write = none) :
    ∃ cause, slots.write now write = .error cause := by
  cases written : slots.write now write with
  | ok next =>
    rw [contents_write written] at refused
    contradiction
  | error cause => exact ⟨cause, rfl⟩

end Slots

namespace Memory

/-- A move is whole if a job has been moved as it should, or every key holds what it held. -/
inductive Whole (memory : Memory) (moved : Contents → String → Contents → Prop) :
    Except StoreError (Option String) × Memory → Prop
  | moved {payload : String} {next : Memory} (moves : moved memory.contents payload next.contents) :
      Whole memory moved (.ok (some payload), next)
  | idle {next : Memory} (same : next.contents = memory.contents) : Whole memory moved (.ok none, next)
  | failed {cause : StoreError} {next : Memory} (same : next.contents = memory.contents) :
      Whole memory moved (.error cause, next)

/-- A job is ready, and taking it changes its queue; but what should be the list in flight is none. -/
def Blocked (memory : Memory) (route : Route) (now : Int) : Prop :=
  ∃ payload left, memory.contents.Gives route now payload left ∧ left ≠ memory.contents route.queue ∧
    Contents.list? (memory.contents route.inflight) = none

/-- The head of the list in flight should come back, but its queue is neither a list nor a sorted set. -/
def Homeless (memory : Memory) (route : Route) : Prop :=
  ∃ payload rest, memory.contents route.inflight = some (.list (payload :: rest)) ∧
    memory.slots.isRecurring route.recurring payload = false ∧
    Contents.list? (memory.contents route.queue) = none ∧
    Contents.scores? (memory.contents route.queue) = none


variable {memory : Memory} {route : Route} {now : Int} {payload : String} {left : Option Entry}

/-- A whole move that fails leaves what every key holds. -/
theorem Whole.of_error {moved : Contents → String → Contents → Prop}
    {outcome : Except StoreError (Option String) × Memory} (whole : memory.Whole moved outcome)
    {cause : StoreError} (failed : outcome.1 = .error cause) : outcome.2.contents = memory.contents := by
  cases whole with
  | moved => contradiction
  | idle => contradiction
  | failed same => exact same

/-! ## The second half of a move -/

/-- A job that has been taken is handed over with one write, or not at all. -/
def handOver (memory : Memory) (slots : Slots) (write : Write) (payload : String) :
    Except StoreError (Option String) × Memory :=
  match slots.write memory.clock write with
  | .ok slots => (.ok (some payload), { memory with slots })
  | .error error => (.error error, { memory with slots })

section HandOver

variable {slots : Slots} {write : Write}

theorem handOver_ok {after : Contents} (applies : (slots.contents memory.clock).write? write = some after) :
    ∃ next, memory.handOver slots write payload = (.ok (some payload), next) ∧ next.contents = after := by
  obtain ⟨next, written, left⟩ := Slots.write_of_contents applies
  rw [handOver, written]
  exact ⟨_, rfl, left⟩

/-- What has been taken is not put back. -/
theorem handOver_error (refused : (slots.contents memory.clock).write? write = none) :
    ∃ cause next, memory.handOver slots write payload = (.error cause, next) ∧
      next.contents = slots.contents memory.clock := by
  obtain ⟨cause, failed⟩ := Slots.write_eq_error refused
  rw [handOver, failed]
  exact ⟨cause, _, rfl, rfl⟩

end HandOver

/-! ## Into flight -/

section IntoFlight

/-- A queue that gives nothing is left as it is. -/
theorem popToInflight_idle (nothing : ∀ payload left, ¬ memory.contents.Gives route now payload left) :
    ∃ next, memory.popToInflight route now = (.ok none, next) ∧ next.contents = memory.contents := by
  rcases Slots.takeReady_looked memory.slots memory.clock route now with ⟨idle, -⟩ | ⟨_, _, _, gives, _⟩
  · dsimp only [popToInflight, purge]
    rw [idle]
    exact ⟨_, rfl, (Slots.contents_purge ..).trans (Slots.contents_purge ..)⟩
  · exact absurd gives (nothing _ _)

/-- A job that is given is taken from its queue before it is put anywhere else. -/
theorem popToInflight_gives (gives : memory.contents.Gives route now payload left) :
    ∃ slots : Slots, slots.contents memory.clock = update memory.contents route.queue left ∧
      memory.popToInflight route now = memory.handOver slots (.prepend route.inflight payload) payload := by
  rcases Slots.takeReady_looked memory.slots memory.clock route now with
    ⟨-, nothing⟩ | ⟨_, entry, taken, given, between⟩
  · exact absurd gives (nothing _ _)
  · obtain ⟨rfl, rfl⟩ := given.unique gives
    refine ⟨_, between, ?_⟩
    dsimp only [popToInflight, purge]
    rw [taken]
    rfl

/-- A job that is given goes to the head of the list in flight. -/
theorem popToInflight_moves (gives : memory.contents.Gives route now payload left)
    (differ : route.inflight ≠ route.queue) {items : List String}
    (list : Contents.list? (memory.contents route.inflight) = some items) :
    ∃ next, memory.popToInflight route now = (.ok (some payload), next) ∧
      next.contents = update (update memory.contents route.queue left) route.inflight
        (some (.list (payload :: items))) := by
  obtain ⟨slots, between, moves⟩ := popToInflight_gives gives
  rw [moves, ← between]
  apply handOver_ok
  rw [Contents.write?_eq, between]
  simp only [update_of_ne differ, list, Option.map_some]

/-- A job that is given is lost if there is no list for it. -/
theorem popToInflight_drops (gives : memory.contents.Gives route now payload left)
    (differ : route.inflight ≠ route.queue)
    (other : Contents.list? (memory.contents route.inflight) = none) :
    ∃ cause next, memory.popToInflight route now = (.error cause, next) ∧
      next.contents = update memory.contents route.queue left := by
  obtain ⟨slots, between, moves⟩ := popToInflight_gives gives
  rw [moves, ← between]
  apply handOver_error
  rw [Contents.write?_eq, between]
  simp only [update_of_ne differ, other, Option.map_none]

/-- A job is put into flight as a whole, unless it is ready and there is no list for it. -/
theorem popToInflight_whole_iff (differ : route.inflight ≠ route.queue) :
    memory.Whole (Contents.IntoFlight route now) (memory.popToInflight route now) ↔
      ¬ memory.Blocked route now := by
  by_cases ready : ∃ payload left, memory.contents.Gives route now payload left
  · obtain ⟨payload, left, gives⟩ := ready
    cases list : Contents.list? (memory.contents route.inflight) with
    | some items =>
      obtain ⟨next, moves, after⟩ := popToInflight_moves gives differ list
      rw [moves]
      refine iff_of_true (.moved ⟨?_, ⟨items, list, ?_⟩, ?_⟩) ?_
      · rw [after, update_of_ne differ.symm, update_self]
        exact gives
      · rw [after, update_self]
      · intro key queue inflight
        rw [after, update_of_ne inflight, update_of_ne queue]
      · rintro ⟨_, _, _, _, other⟩
        rw [list] at other
        contradiction
    | none =>
      obtain ⟨cause, next, drops, after⟩ := popToInflight_drops gives differ list
      rw [drops]
      constructor
      · rintro (_ | _ | same) ⟨_, _, also, changed, -⟩
        obtain ⟨-, rfl⟩ := also.unique gives
        have queue := congrFun (after.symm.trans same) route.queue
        rw [update_self] at queue
        exact changed queue
      · intro free
        have unchanged : left = memory.contents route.queue := by
          by_contra changed
          exact free ⟨payload, left, gives, changed, list⟩
        exact .failed (after.trans (unchanged ▸ update_eq_self ..))
  · obtain ⟨next, idle, same⟩ := popToInflight_idle fun payload left gives => ready ⟨payload, left, gives⟩
    rw [idle]
    exact iff_of_true (.idle same) fun ⟨payload, left, gives, _⟩ => ready ⟨payload, left, gives⟩

end IntoFlight

/-! ## Out of flight -/

section OutOfFlight

variable (now) {rest : List String}

/-- A list that has no head, or no list, gives nothing back. -/
theorem restoreInflight_idle
    (nothing : ∀ payload rest, memory.contents route.inflight ≠ some (.list (payload :: rest))) :
    ∃ next, memory.restoreInflight route now = (.ok none, next) ∧ next.contents = memory.contents := by
  have idle : Slots.takeHead (memory.slots.purge memory.clock route.inflight) route.inflight =
      (none, memory.slots.purge memory.clock route.inflight) := by
    rw [Slots.takeHead, Slots.entry?_purge]
    split
    · next head => exact absurd head (nothing _ _)
    · rfl
  dsimp only [restoreInflight, purge]
  rw [idle]
  exact ⟨_, rfl, Slots.contents_purge ..⟩

/-- The head of the list in flight is taken before it is put anywhere else. -/
theorem takeHead_inflight (head : memory.contents route.inflight = some (.list (payload :: rest)))
    (differ : route.recurring ≠ route.inflight) :
    ∃ slots : Slots, Slots.takeHead (memory.slots.purge memory.clock route.inflight) route.inflight =
        (some payload, slots) ∧
      slots.contents memory.clock = update memory.contents route.inflight (listed rest) ∧
      slots.isRecurring route.recurring payload = memory.slots.isRecurring route.recurring payload := by
  have taken := takeHead_of_contents head
  have kept := isRecurring_takeHead memory.slots memory.clock differ payload
  rw [taken] at kept
  refine ⟨_, taken, ?_, kept⟩
  rw [Slots.contents_put fun _ found => Slots.live_purge found, Slots.contents_purge]
  rfl

/-- A job that is taken for recurring does not go back. -/
theorem restoreInflight_recurring (head : memory.contents route.inflight = some (.list (payload :: rest)))
    (differ : route.recurring ≠ route.inflight)
    (recurs : memory.slots.isRecurring route.recurring payload = true) :
    ∃ next, memory.restoreInflight route now = (.ok (some payload), next) ∧
      next.contents = update memory.contents route.inflight (listed rest) := by
  obtain ⟨slots, taken, between, kept⟩ := takeHead_inflight head differ
  exact ⟨_, restoreInflight_of_isRecurring taken (kept.trans recurs), between⟩

/-- A job that is not taken for recurring goes back to a sorted set, or else to a list. -/
theorem restoreInflight_once (head : memory.contents route.inflight = some (.list (payload :: rest)))
    (distinct : route.Distinct) (once : memory.slots.isRecurring route.recurring payload = false) :
    ∃ slots : Slots, slots.contents memory.clock = update memory.contents route.inflight (listed rest) ∧
      memory.restoreInflight route now = memory.handOver slots
        (match memory.contents route.queue with
          | some (.sortedSet _) => .schedule route.queue (Binary64.ofInt now) payload
          | _ => .prepend route.queue payload) payload := by
  obtain ⟨slots, taken, between, kept⟩ := takeHead_inflight head distinct.companion.symm
  have queue : slots.contents memory.clock route.queue = memory.contents route.queue := by
    rw [between, update_of_ne distinct.inflight.symm]
  refine ⟨slots.purge memory.clock route.queue, (Slots.contents_purge ..).trans between, ?_⟩
  rw [restoreInflight_of_not_isRecurring taken (kept.trans once), ← queue, ← Slots.entry?_purge]
  rfl

/-- A job goes back to a sorted set at the time at which it goes back. -/
theorem restoreInflight_schedule (head : memory.contents route.inflight = some (.list (payload :: rest)))
    (distinct : route.Distinct) (once : memory.slots.isRecurring route.recurring payload = false)
    {scores : Dict Binary64} (held : memory.contents route.queue = some (.sortedSet scores)) :
    ∃ next, memory.restoreInflight route now = (.ok (some payload), next) ∧
      next.contents = update (update memory.contents route.inflight (listed rest)) route.queue
        (some (.sortedSet (Dict.insert scores payload (Binary64.ofInt now)))) := by
  obtain ⟨slots, between, moves⟩ := restoreInflight_once now head distinct once
  rw [moves, held, ← between]
  apply handOver_ok
  rw [Contents.write?_eq, between]
  simp only [update_of_ne distinct.inflight.symm, held, Contents.scores?, Option.map_some]

/-- A job that does not go back to a sorted set is pushed. -/
theorem restoreInflight_push (head : memory.contents route.inflight = some (.list (payload :: rest)))
    (distinct : route.Distinct) (once : memory.slots.isRecurring route.recurring payload = false)
    (unsorted : ∀ scores, memory.contents route.queue ≠ some (.sortedSet scores)) :
    ∃ slots : Slots, slots.contents memory.clock = update memory.contents route.inflight (listed rest) ∧
      memory.restoreInflight route now = memory.handOver slots (.prepend route.queue payload) payload := by
  obtain ⟨slots, between, moves⟩ := restoreInflight_once now head distinct once
  refine ⟨slots, between, ?_⟩
  rw [moves]
  split
  · next scores held => exact absurd held (unsorted scores)
  · rfl

/-- A job goes back to the head of a list, which comes into being if there is nothing. -/
theorem restoreInflight_prepend (head : memory.contents route.inflight = some (.list (payload :: rest)))
    (distinct : route.Distinct) (once : memory.slots.isRecurring route.recurring payload = false)
    {items : List String} (list : Contents.list? (memory.contents route.queue) = some items) :
    ∃ next, memory.restoreInflight route now = (.ok (some payload), next) ∧
      next.contents = update (update memory.contents route.inflight (listed rest)) route.queue
        (some (.list (payload :: items))) := by
  have unsorted (scores : Dict Binary64) : memory.contents route.queue ≠ some (.sortedSet scores) := by
    intro held
    rw [held] at list
    cases list
  obtain ⟨slots, between, moves⟩ := restoreInflight_push now head distinct once unsorted
  rw [moves, ← between]
  apply handOver_ok
  rw [Contents.write?_eq, between]
  simp only [update_of_ne distinct.inflight.symm, list, Option.map_some]

/-- A job is lost if its queue is neither a list nor a sorted set. -/
theorem restoreInflight_drops (head : memory.contents route.inflight = some (.list (payload :: rest)))
    (distinct : route.Distinct) (once : memory.slots.isRecurring route.recurring payload = false)
    (unlisted : Contents.list? (memory.contents route.queue) = none)
    (unscored : Contents.scores? (memory.contents route.queue) = none) :
    ∃ cause next, memory.restoreInflight route now = (.error cause, next) ∧
      next.contents = update memory.contents route.inflight (listed rest) := by
  have unsorted (scores : Dict Binary64) : memory.contents route.queue ≠ some (.sortedSet scores) := by
    intro held
    rw [held] at unscored
    cases unscored
  obtain ⟨slots, between, moves⟩ := restoreInflight_push now head distinct once unsorted
  rw [moves, ← between]
  apply handOver_error
  rw [Contents.write?_eq, between]
  simp only [update_of_ne distinct.inflight.symm, unlisted, Option.map_none]

/-- Scores that are not those of an absent key are those of a sorted set. -/
theorem sortedSet_of_scores? {held? : Option Entry} (unlisted : Contents.list? held? = none)
    {scores : Dict Binary64} (scored : Contents.scores? held? = some scores) :
    held? = some (.sortedSet scores) := by
  unfold Contents.scores? at scored
  split at scored
  · contradiction
  · cases scored
    rfl
  · contradiction

/-- A member has a field just if it is found recurring and its frequencies have not expired. -/
theorem recurs_iff (memory : Memory) (key payload : String) :
    memory.contents.Recurs key payload ↔
      memory.slots.isRecurring key payload = true ∧ memory.slots.hasExpired memory.clock key = false := by
  constructor
  · rintro ⟨fields, held, found⟩
    have fresh := hasExpired_of_contents held
    obtain ⟨slot, live, entry⟩ := Option.map_eq_some_iff.mp held
    have stored : memory.slots.entry? key = some (.hash fields) := by
      rw [Slots.entry?, (Option.filter_eq_some_iff.mp live).1, Option.map_some, entry]
    exact ⟨by rw [Slots.isRecurring, stored]; exact found, fresh⟩
  · rintro ⟨recurs, fresh⟩
    rw [Slots.isRecurring] at recurs
    split at recurs
    · next fields stored =>
      have purged : memory.slots.purge memory.clock key = memory.slots := if_neg (ne_true_of_eq_false fresh)
      have held := Slots.entry?_purge memory.slots memory.clock key
      rw [purged, stored] at held
      exact ⟨fields, held.symm, recurs⟩
    · contradiction

/-- A job that is taken for recurring should not go back, or is as good as back already. -/
theorem takesBack_recurring_iff (head : memory.contents route.inflight = some (.list (payload :: rest)))
    (recurs : memory.slots.isRecurring route.recurring payload = true) :
    memory.contents.TakesBack route now payload (memory.contents route.queue) ↔
      ¬ memory.Mistakes route now := by
  constructor
  · rintro back ⟨other, more, same, expired, -, unscheduled⟩
    cases head.symm.trans same
    generalize queue : memory.contents route.queue = held? at back
    cases back with
    | scheduled recurs => exact absurd expired (ne_true_of_eq_false ((recurs_iff ..).mp recurs).2)
    | schedule once held =>
      refine unscheduled ⟨_, queue, ?_⟩
      rw [Dict.get?_insert, if_pos rfl]
    | prepend once held =>
      rw [queue] at held
      have length := congrArg List.length (Option.some.inj held)
      simp at length
  · intro right
    cases expired : memory.slots.hasExpired memory.clock route.recurring with
    | false => exact .scheduled ((recurs_iff ..).mpr ⟨recurs, expired⟩)
    | true =>
      have once : ¬ memory.contents.Recurs route.recurring payload := fun found =>
        absurd expired (ne_true_of_eq_false ((recurs_iff ..).mp found).2)
      by_cases scheduled : ∃ scores, memory.contents route.queue = some (.sortedSet scores) ∧
          Dict.get? scores payload = some (Binary64.ofInt now)
      · obtain ⟨scores, queue, found⟩ := scheduled
        have back := @Contents.TakesBack.schedule _ _ now _ _ once queue
        rwa [Dict.insert_of_get? found, ← queue] at back
      · exact absurd ⟨payload, rest, head, expired, recurs, scheduled⟩ right

/-- What has been taken out of flight is told by what its queue holds then. -/
theorem outOfFlight_iff (head : memory.contents route.inflight = some (.list (payload :: rest)))
    (differ : route.inflight ≠ route.queue) :
    Contents.OutOfFlight route now memory.contents payload
        (update (update memory.contents route.inflight (listed rest)) route.queue left) ↔
      memory.contents.TakesBack route now payload left := by
  constructor
  · intro moved
    have back := moved.target
    rwa [update_self] at back
  · intro back
    refine ⟨⟨rest, head, ?_⟩, ?_, ?_⟩
    · rw [update_of_ne differ, update_self]
    · rwa [update_self]
    · intro key queue inflight
      rw [update_of_ne queue, update_of_ne inflight]

/-- A job that is taken for recurring comes back as a whole, unless that is a mistake. -/
theorem restoreInflight_recurring_whole_iff
    (head : memory.contents route.inflight = some (.list (payload :: rest))) (distinct : route.Distinct)
    (recurs : memory.slots.isRecurring route.recurring payload = true) :
    memory.Whole (Contents.OutOfFlight route now) (memory.restoreInflight route now) ↔
      ¬ memory.Mistakes route now := by
  obtain ⟨next, drops, after⟩ := restoreInflight_recurring now head distinct.companion.symm recurs
  -- nothing is written to the queue, so it holds what it held
  have unchanged : next.contents = update (update memory.contents route.inflight (listed rest)) route.queue
      (memory.contents route.queue) := by
    rw [after]
    exact (update_eq_self_iff.mpr (update_of_ne distinct.inflight.symm ..).symm).symm
  rw [drops, ← takesBack_recurring_iff now head recurs, ← outOfFlight_iff now head distinct.inflight,
    ← unchanged]
  constructor
  · rintro (moved | _ | _)
    exact moved
  · exact .moved

/-- A move that fails, and has taken a job out of flight, is not whole. -/
theorem not_whole_of_taken (head : memory.contents route.inflight = some (.list (payload :: rest)))
    {moves : Contents → String → Contents → Prop} {cause : StoreError} {next : Memory}
    (after : next.contents = update memory.contents route.inflight (listed rest)) :
    ¬ memory.Whole moves (.error cause, next) := by
  rintro (_ | _ | same)
  have inflight := congrFun (after.symm.trans same) route.inflight
  rw [update_self, head] at inflight
  cases rest with
  | nil => contradiction
  | cons next rest =>
    have items := Entry.list.inj (Option.some.inj inflight)
    simpa using congrArg List.length items

/-- A job that is not taken for recurring comes back as a whole, unless it has nowhere to go. -/
theorem restoreInflight_once_whole_iff
    (head : memory.contents route.inflight = some (.list (payload :: rest))) (distinct : route.Distinct)
    (once : memory.slots.isRecurring route.recurring payload = false) :
    memory.Whole (Contents.OutOfFlight route now) (memory.restoreInflight route now) ↔
      ¬ (Contents.list? (memory.contents route.queue) = none ∧
        Contents.scores? (memory.contents route.queue) = none) := by
  have single : ¬ memory.contents.Recurs route.recurring payload := fun found =>
    absurd ((recurs_iff ..).mp found).1 (ne_true_of_eq_false once)
  cases list : Contents.list? (memory.contents route.queue) with
  | some items =>
    obtain ⟨next, moves, after⟩ := restoreInflight_prepend now head distinct once list
    have moved := (outOfFlight_iff now head distinct.inflight).mpr (.prepend single list)
    rw [moves]
    rw [← after] at moved
    exact iff_of_true (.moved moved) fun homeless => nomatch homeless.1
  | none =>
    cases scored : Contents.scores? (memory.contents route.queue) with
    | some scores =>
      have held := sortedSet_of_scores? list scored
      obtain ⟨next, moves, after⟩ := restoreInflight_schedule now head distinct once held
      have moved := (outOfFlight_iff now head distinct.inflight).mpr (.schedule single held)
      rw [moves]
      rw [← after] at moved
      exact iff_of_true (.moved moved) fun homeless => nomatch homeless.2
    | none =>
      obtain ⟨cause, next, drops, after⟩ := restoreInflight_drops now head distinct once list scored
      rw [drops]
      exact iff_of_false (not_whole_of_taken head after) (not_not_intro ⟨rfl, rfl⟩)

/-- A job comes back as a whole, unless it has nowhere to go or is taken for recurring by mistake. -/
theorem restoreInflight_whole_iff (distinct : route.Distinct) :
    memory.Whole (Contents.OutOfFlight route now) (memory.restoreInflight route now) ↔
      ¬ (memory.Homeless route ∨ memory.Mistakes route now) := by
  by_cases flying : ∃ payload rest, memory.contents route.inflight = some (.list (payload :: rest))
  · obtain ⟨payload, rest, head⟩ := flying
    cases recurs : memory.slots.isRecurring route.recurring payload with
    | true =>
      have settled : ¬ memory.Homeless route := by
        rintro ⟨_, _, same, once, -⟩
        cases head.symm.trans same
        exact absurd recurs (ne_true_of_eq_false once)
      rw [or_iff_right settled]
      exact restoreInflight_recurring_whole_iff now head distinct recurs
    | false =>
      have right : ¬ memory.Mistakes route now := by
        rintro ⟨_, _, same, -, found, -⟩
        cases head.symm.trans same
        exact absurd found (ne_true_of_eq_false recurs)
      rw [or_iff_left right, restoreInflight_once_whole_iff now head distinct recurs, not_iff_not]
      constructor
      · rintro ⟨unlisted, unscored⟩
        exact ⟨payload, rest, head, recurs, unlisted, unscored⟩
      · rintro ⟨_, _, -, -, unlisted, unscored⟩
        exact ⟨unlisted, unscored⟩
  · have nothing (payload : String) (rest : List String) :
        memory.contents route.inflight ≠ some (.list (payload :: rest)) :=
      fun head => flying ⟨payload, rest, head⟩
    obtain ⟨next, idle, same⟩ := restoreInflight_idle now nothing
    rw [idle]
    refine iff_of_true (.idle same) ?_
    rintro (⟨_, _, head, -⟩ | ⟨_, _, head, -⟩) <;> exact nothing _ _ head

end OutOfFlight

/-! ## Both moves -/

/-- A job is moved as it should be, or every key is as it was, unless the job is ready and there is no list in
flight, has no queue to come back to, or is taken for recurring because of a frequency that has expired. -/
theorem moves_whole_iff (memory : Memory) {route : Route} (distinct : route.Distinct) (now : Int) :
    (memory.Whole (Contents.IntoFlight route now) (memory.perform (.popToInflight route now)) ↔
      ¬ (memory.unavailable = false ∧ memory.Blocked route now)) ∧
    (memory.Whole (Contents.OutOfFlight route now) (memory.perform (.restoreInflight route now)) ↔
      ¬ (memory.unavailable = false ∧ (memory.Homeless route ∨ memory.Mistakes route now))) := by
  by_cases refused : memory.unavailable = true
  · have unreached {condition : Prop} : ¬ (memory.unavailable = false ∧ condition) :=
      fun reached => absurd refused (ne_true_of_eq_false reached.1)
    rw [perform_unavailable refused, perform_unavailable refused]
    exact ⟨iff_of_true (.failed rfl) unreached, iff_of_true (.failed rfl) unreached⟩
  · have available : memory.unavailable = false := eq_false_of_ne_true refused
    have popped : memory.perform (.popToInflight route now) = memory.popToInflight route now := if_neg refused
    have restored : memory.perform (.restoreInflight route now) = memory.restoreInflight route now :=
      if_neg refused
    rw [popped, restored, and_iff_right available, and_iff_right available]
    exact ⟨popToInflight_whole_iff distinct.inflight, restoreInflight_whole_iff now distinct⟩

section Samples

def mailRoute : Route := ⟨"q:queue:mail", "q:queue:mail:recurring", "q:inflight:w:mail"⟩

/-- A recurring job that is ready, and another job in flight. -/
def ticking : Memory where
  slots := [("q:queue:mail", ⟨.sortedSet [("tick", Binary64.zero false)], none⟩),
    ("q:queue:mail:recurring", ⟨.hash [("tick", "1000")], none⟩),
    ("q:inflight:w:mail", ⟨.list ["once"], none⟩)]

/-- Where the keys hold what they should, both moves are whole. -/
theorem moves_whole_iff_ticking :
    mailRoute.Distinct ∧
      ticking.Whole (Contents.IntoFlight mailRoute 5) (ticking.perform (.popToInflight mailRoute 5)) ∧
      ticking.Whole (Contents.OutOfFlight mailRoute 5) (ticking.perform (.restoreInflight mailRoute 5)) := by
  have distinct : mailRoute.Distinct := ⟨by decide, by decide, by decide⟩
  have fresh : ticking.slots.hasExpired ticking.clock mailRoute.recurring = false := by decide
  obtain ⟨into, outOf⟩ := moves_whole_iff ticking distinct 5
  refine ⟨distinct, into.mpr ?_, outOf.mpr ?_⟩
  · rintro ⟨-, _, _, -, -, unlisted⟩
    cases unlisted
  · rintro ⟨-, ⟨_, _, -, -, -, unscored⟩ | ⟨_, _, -, expired, -⟩⟩
    · cases unscored
    · exact absurd expired (ne_true_of_eq_false fresh)

/-- A job is ready, and a string is where the list in flight should be. -/
def blocked : Memory where
  slots := [("q:queue:mail", ⟨.list ["job"], none⟩), ("q:inflight:w:mail", ⟨.string "held", none⟩)]

/-- A job is in flight, and a string is where its queue should be. -/
def homeless : Memory where
  slots := [("q:queue:mail", ⟨.string "held", none⟩), ("q:inflight:w:mail", ⟨.list ["job"], none⟩)]

/-- A move that fails has taken the job, which is nowhere then. -/
theorem job_lost_in_move :
    ((blocked.perform (.popToInflight mailRoute 0)).1 = .error (.wrongType "q:inflight:w:mail") ∧
      blocked.contents "q:queue:mail" = some (.list ["job"]) ∧
      (blocked.perform (.popToInflight mailRoute 0)).2.contents "q:queue:mail" = none ∧
      ¬ blocked.Whole (Contents.IntoFlight mailRoute 0) (blocked.perform (.popToInflight mailRoute 0))) ∧
    ((homeless.perform (.restoreInflight mailRoute 0)).1 = .error (.wrongType "q:queue:mail") ∧
      homeless.contents "q:inflight:w:mail" = some (.list ["job"]) ∧
      (homeless.perform (.restoreInflight mailRoute 0)).2.contents "q:inflight:w:mail" = none ∧
      ¬ homeless.Whole (Contents.OutOfFlight mailRoute 0)
        (homeless.perform (.restoreInflight mailRoute 0))) := by
  have there : blocked.contents "q:queue:mail" = some (.list ["job"]) := by decide
  have flying : homeless.contents "q:inflight:w:mail" = some (.list ["job"]) := by decide
  have taken : (blocked.perform (.popToInflight mailRoute 0)).2.contents "q:queue:mail" = none := by decide
  have gone : (homeless.perform (.restoreInflight mailRoute 0)).2.contents "q:inflight:w:mail" = none := by
    decide
  refine ⟨⟨rfl, there, taken, fun whole => ?_⟩, ⟨rfl, flying, gone, fun whole => ?_⟩⟩
  · rw [whole.of_error rfl, there] at taken
    contradiction
  · rw [whole.of_error rfl, flying] at gone
    contradiction

end Samples

end Memory

end JobQueue
