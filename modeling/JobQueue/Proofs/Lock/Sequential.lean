import JobQueue.Proofs.Lock.Stage
import JobQueue.Proofs.Store.OneKey

/-! # A lock whose calls do not overlap

If one call is over before the next begins, a lock is free, or held until a deadline, or an orphan that was
never given one. What calls that take and release it answer, how long they wait and what they leave is worked
out on such a lock, and shown to be what the programs do with the store, however many calls there are and
however much time passes between them.
-/

namespace JobQueue

/-- A store and a later one that differ in the time and in what one key holds, and in nothing else. -/
structure Memory.Touched (key : String) (memory after : Memory) : Prop where
  same : after = { memory with slots := after.slots, clock := after.clock }
  others : Slots.SameBut key memory.slots after.slots

namespace Memory.Touched

variable {key : String} {memory between after : Memory}

theorem refl (memory : Memory) : memory.Touched key memory where
  same := rfl
  others := .refl _

theorem trans (first : memory.Touched key between) (second : between.Touched key after) :
    memory.Touched key after where
  same := by rw [second.same, first.same]
  others := first.others.trans second.others

theorem unavailable (touched : memory.Touched key after) : after.unavailable = memory.unavailable := by
  rw [touched.same]

theorem perform {request : Request} (about : request.key? = some key) :
    memory.Touched key (memory.perform request).2 := by
  obtain ⟨slots, same, others⟩ := @Memory.perform_sameBut memory request key about
  rw [same]
  exact ⟨rfl, others⟩

theorem advance (millis : Nat) : memory.Touched key (memory.advance millis) where
  same := rfl
  others := .refl _

end Memory.Touched

namespace Lock

/-- A lock as calls see it that do not overlap. -/
inductive Hold where
  | free
  | held (holder : String) (deadline : Nat)
  /-- In the name of a holder that never gave it a time to live. -/
  | orphan (holder : String)
deriving DecidableEq, Repr

namespace Hold

/-- A deadline that is reached makes a lock free. -/
def asOf (now : Nat) : Hold → Hold
  | held holder deadline => if deadline ≤ now then free else held holder deadline
  | free => free
  | orphan holder => orphan holder

/-- What the key of a lock holds. -/
def slot? : Hold → Option Slot
  | free => none
  | held holder deadline => some ⟨.string holder, some deadline⟩
  | orphan holder => some ⟨.string holder, none⟩

/-- In whose name a lock is. -/
def holder? : Hold → Option String
  | free => none
  | held holder _ | orphan holder => some holder

end Hold

/-- What a call answers, how long it waits, and what it leaves. -/
structure Outcome where
  answer : Bool
  waits : Nat := 0
  leaves : Hold
deriving DecidableEq, Repr

namespace Hold

/-- To take a lock: it is given to whom it is free for or whose name it is in, and after the grace period also
if it is another's orphan. -/
def acquire (now : Nat) (holder : String) (seconds : Nat) (hold : Hold) : Outcome :=
  match hold.asOf now with
  | free => { answer := true, leaves := held holder (now + seconds * 1000) }
  | held current deadline =>
    if current = holder then { answer := true, leaves := held holder (now + seconds * 1000) }
    else { answer := false, leaves := held current deadline }
  | orphan current =>
    if current = holder then { answer := true, leaves := held holder (now + seconds * 1000) }
    else { answer := true, waits := gracePeriod, leaves := held holder (now + gracePeriod + seconds * 1000) }

/-- To release a lock: it becomes free if it is in the holder's name. -/
def release (now : Nat) (holder : String) (hold : Hold) : Outcome :=
  if (hold.asOf now).holder? = some holder then { answer := true, leaves := free }
  else { answer := false, leaves := hold.asOf now }

/-- A call of a holder. -/
def call (now : Nat) (holder : String) (hold : Hold) : Operation → Outcome
  | .acquiring seconds => hold.acquire now holder seconds
  | .releasing => hold.release now holder

end Hold

/-- What happens between two calls and at a call: time passes, or a holder calls. -/
inductive Turn where
  | pass (millis : Nat)
  | call (holder : String) (operation : Operation)
deriving DecidableEq, Repr

/-- Holders have names, and take a lock for at least a second. -/
def Turn.Valid : Turn → Prop
  | pass _ => True
  | call holder (.acquiring seconds) => holder ≠ "" ∧ 1 ≤ seconds
  | call holder .releasing => holder ≠ ""

/-- The answers of some turns one after the other, and the time and the lock behind them. -/
def Hold.session (now : Nat) (hold : Hold) : List Turn → List Bool × Nat × Hold
  | [] => ([], now, hold)
  | .pass millis :: turns => hold.session (now + millis) turns
  | .call holder operation :: turns =>
    let outcome := hold.call now holder operation
    let (answers, last) := outcome.leaves.session (now + outcome.waits) turns
    (outcome.answer :: answers, last)

/-- What the programs of some turns, run one after the other, end with, and the store behind them. -/
def session (space : Keyspace) (lock : String) (memory : Memory) :
    List Turn → List (Except QueueError Bool) × Memory
  | [] => ([], memory)
  | .pass millis :: turns => session space lock (memory.advance millis) turns
  | .call holder operation :: turns =>
    let (answer, after) := (operation.program space lock holder).run memory
    let (answers, last) := session space lock after turns
    (answer :: answers, last)

/-! ## One call -/

/-- A program that runs alone answers after some time, leaves something at a key, and touches nothing else. -/
structure Gives (key : String) (program : Task QueueError Bool) (memory : Memory) (answer : Bool)
    (waits : Nat) (slot? : Option Slot) : Prop where
  answer : (program.run memory).1 = .ok answer
  clock : (program.run memory).2.clock = memory.clock + waits
  held : (program.run memory).2.held key = slot?
  touched : memory.Touched key (program.run memory).2

/-- What the key of a lock holds while it is held until some seconds from a time. -/
def grant (holder : String) (now seconds : Nat) : Option Slot :=
  some ⟨.string holder, some (now + seconds * 1000)⟩

section Calls

variable {key holder : String} {seconds : Nat} {memory : Memory} {answer : Bool} {waits : Nat}
  {before? slot? : Option Slot} {time? : Option Nat}

/-- A program that has ended gives its answer and leaves what it finds. -/
theorem gives_done (held : memory.held key = slot?) : Gives key (.done answer) memory answer 0 slot? where
  answer := rfl
  clock := rfl
  held := held
  touched := .refl _

/-- A request about the key is answered, and the program goes on behind it. -/
theorem gives_asking {request : Request} {reply : request.Reply}
    {next : request.Reply → Task QueueError Bool} (about : request.key? = some key)
    (answers : memory.Answers request reply key before?)
    (rest : ∀ after : Memory, after.clock = memory.clock → after.unavailable = memory.unavailable →
      after.held key = before? → Gives key (next reply) after answer waits slot?) :
    Gives key (Queue.asking request next) memory answer waits slot? := by
  have touched : memory.Touched key (memory.perform request).2 := .perform about
  have clock := memory.clock_perform request
  have gives := rest _ clock touched.unavailable answers.held
  have run : (Queue.asking request next).run memory = (next reply).run (memory.perform request).2 := by
    rw [Queue.asking, Task.run_call, answers.answer]
  constructor
  · rw [run, gives.answer]
  · rw [run, gives.clock, clock]
  · rw [run, gives.held]
  · rw [run]
    exact touched.trans gives.touched

theorem Stage.key?_request (stage : Stage) : (stage.request key holder seconds).key? = some key := by
  cases stage <;> rfl

/-- A stage is answered, and the program goes on where the answer leads. -/
theorem Stage.gives (stage : Stage) (point : Point) {reply : (stage.request key holder seconds).Reply}
    (answers : memory.Answers (stage.request key holder seconds) reply key before?)
    (leads : stage.react key holder seconds reply = point)
    (rest : ∀ after : Memory, after.clock = memory.clock → after.unavailable = memory.unavailable →
      after.held key = before? → Gives key (point.program key holder seconds) after answer waits slot?) :
    Gives key (stage.program key holder seconds) memory answer waits slot? := by
  subst leads
  rw [Stage.program_eq]
  exact gives_asking stage.key?_request answers rest

/-- A lock that is seen to be the holder's is taken. -/
theorem gives_confirm (seconds : Nat) (available : memory.unavailable = false)
    (held : memory.held key = some ⟨.string holder, time?⟩) {stage : Stage}
    (confirms : stage = .confirmRenewal ∨ stage = .confirm) :
    Gives key (stage.program key holder seconds) memory true 0 (some ⟨.string holder, time?⟩) := by
  have answers := Memory.answers_get available held
  rcases confirms with rfl | rfl
  · refine Stage.gives .confirmRenewal (.ended true) answers (by simp [Stage.react, named]) ?_
    intro after _ _ held
    exact gives_done held
  · refine Stage.gives .confirm (.ended true) answers (by simp [Stage.react, named]) ?_
    intro after _ _ held
    exact gives_done held

/-- A lock in the name of the holder is given its time to live, and taken. -/
theorem gives_extend (available : memory.unavailable = false) (positive : 0 < seconds)
    (held : memory.held key = some ⟨.string holder, time?⟩) {stage : Stage}
    (extending : stage = .renew ∨ stage = .limit) :
    Gives key (stage.program key holder seconds) memory true 0 (grant holder memory.clock seconds) := by
  have answers := Memory.answers_expire available held positive
  rcases extending with rfl | rfl
  · refine Stage.gives .renew (.before .confirmRenewal) answers rfl ?_
    intro after _ same held
    exact gives_confirm seconds (same.trans available) held (.inl rfl)
  · refine Stage.gives .limit (.before .confirm) answers rfl ?_
    intro after _ same held
    exact gives_confirm seconds (same.trans available) held (.inr rfl)

/-- A lock that is free is created, given its time to live, and taken. -/
theorem gives_create (available : memory.unavailable = false) (positive : 0 < seconds)
    (free : memory.held key = none) :
    Gives key (Stage.create.program key holder seconds) memory true 0
      (grant holder memory.clock seconds) := by
  refine Stage.gives .create (.before .limit) (Memory.answers_setIfAbsent available free holder) rfl ?_
  intro after clock same held
  rw [← clock]
  exact gives_extend (same.trans available) positive held (.inr rfl)

/-- A lock that exists is not created. -/
theorem gives_create_held (available : memory.unavailable = false) {slot : Slot}
    (held : memory.held key = some slot) :
    Gives key (Stage.create.program key holder seconds) memory false 0 (some slot) := by
  refine Stage.gives .create (.ended false) (Memory.answers_setIfAbsent_held available held holder) rfl ?_
  intro after _ _ held
  exact gives_done held

/-- What a look says about the time of a lock that was found to be held so. -/
theorem answers_timeToLive_of (available : memory.unavailable = false) {value : String}
    (held : memory.held key = some ⟨.string value, time?⟩) :
    memory.Answers (.timeToLive key) (match time? with
      | none => .persistent
      | some time => .expires ((time - memory.clock + 999) / 1000)) key
      (some ⟨.string value, time?⟩) := by
  have answers := @Memory.answers_timeToLive memory key available
  rw [held] at answers
  cases time? <;> exact answers

/-- Another's orphan is dropped after the grace period, and the lock is created. -/
theorem gives_reclaim (available : memory.unavailable = false) (positive : 0 < seconds) {other : String}
    (differ : other ≠ holder) (held : memory.held key = some ⟨.string other, none⟩) :
    Gives key (Stage.probeAgain.program key holder seconds) memory true 0
      (grant holder memory.clock seconds) := by
  refine Stage.gives .probeAgain (.before .inspect) (answers_timeToLive_of available held) rfl ?_
  intro second clock same held
  have available := same.trans available
  refine Stage.gives .inspect (.before (.drop other)) (Memory.answers_get available held) (if_neg differ) ?_
  intro third clockThird same held
  have available := same.trans available
  refine Stage.gives (.drop other) (.before .create) (Memory.answers_compareAndDelete available held) rfl ?_
  intro last clockLast same free
  rw [← clock, ← clockThird, ← clockLast]
  exact gives_create (same.trans available) positive free

/-- A program that sleeps goes on in a later store. -/
theorem gives_sleep {millis : Nat} {next : Task QueueError Bool}
    (gives : Gives key next (memory.advance millis) answer waits slot?) :
    Gives key (.sleep millis next) memory answer (millis + waits) slot? where
  answer := gives.answer
  clock := gives.clock.trans (Nat.add_assoc ..)
  held := gives.held
  touched := (Memory.Touched.advance millis).trans gives.touched

/-- A lock that is not seen to be the holder's is contended for. -/
theorem gives_look {value? : Option String} (other : value? ≠ some holder)
    (answers : memory.Answers (.get key) value? key before?)
    (rest : ∀ after : Memory, after.clock = memory.clock → after.unavailable = memory.unavailable →
      after.held key = before? →
      Gives key (Stage.probe.program key holder seconds) after answer waits slot?) :
    Gives key (Stage.look.program key holder seconds) memory answer waits slot? := by
  refine Stage.gives .look (.before .probe) answers ?_ rest
  simp [Stage.react, named, other]

/-- A lock that is free is taken at once. -/
theorem gives_free (available : memory.unavailable = false) (positive : 0 < seconds)
    (free : memory.held key = none) :
    Gives key (Stage.look.program key holder seconds) memory true 0 (grant holder memory.clock seconds) := by
  refine gives_look (by simp) (Memory.answers_get_none available free) ?_
  intro second clock same free
  have available := same.trans available
  have missing := @Memory.answers_timeToLive second key available
  rw [free] at missing
  refine Stage.gives .probe (.before .create) missing rfl ?_
  intro third clockThird same free
  rw [← clock, ← clockThird]
  exact gives_create (same.trans available) positive free

/-- A lock in the name of the holder is extended at once. -/
theorem gives_own (available : memory.unavailable = false) (positive : 0 < seconds)
    (held : memory.held key = some ⟨.string holder, time?⟩) :
    Gives key (Stage.look.program key holder seconds) memory true 0 (grant holder memory.clock seconds) := by
  refine Stage.gives .look (.before .renew) (Memory.answers_get available held) ?_ ?_
  · simp [Stage.react, named]
  · intro after clock same held
    rw [← clock]
    exact gives_extend (same.trans available) positive held (.inl rfl)

/-- A lock that is another's until a deadline stays as it is. -/
theorem gives_held (available : memory.unavailable = false) {other : String} (differ : other ≠ holder)
    {deadline : Nat} (held : memory.held key = some ⟨.string other, some deadline⟩) :
    Gives key (Stage.look.program key holder seconds) memory false 0
      (some ⟨.string other, some deadline⟩) := by
  refine gives_look (by simpa using differ) (Memory.answers_get available held) ?_
  intro second _ same held
  have available := same.trans available
  refine Stage.gives .probe (.before .create) (answers_timeToLive_of available held) rfl ?_
  intro third _ same held
  exact gives_create_held (same.trans available) held

/-- Another's orphan is taken over after the grace period. -/
theorem gives_orphan (available : memory.unavailable = false) (positive : 0 < seconds) {other : String}
    (differ : other ≠ holder) (held : memory.held key = some ⟨.string other, none⟩) :
    Gives key (Stage.look.program key holder seconds) memory true gracePeriod
      (grant holder (memory.clock + gracePeriod) seconds) := by
  refine gives_look (by simpa using differ) (Memory.answers_get available held) ?_
  intro second clock same held
  have available := same.trans available
  refine Stage.gives .probe .sleeping (answers_timeToLive_of available held) rfl ?_
  intro third clockThird same held
  rw [← clock, ← clockThird]
  have available := same.trans available
  exact gives_sleep (gives_reclaim available positive differ (Memory.held_advance held rfl))

end Calls

/-- With good arguments, releasing a lock is one request. -/
theorem release_named {space : Keyspace} {lock holder : String} (named : lock ≠ "")
    (holderNamed : holder ≠ "") :
    release space lock holder = Queue.asking (.compareAndDelete (space.lock lock) holder) Task.done := by
  rw [release, demandNames, Queue.demand, Queue.demand, if_pos (by simpa using named),
    if_pos (by simpa using holderNamed)]
  exact Queue.ask_eq _

/-! ## Any number of calls -/

namespace Hold

/-- What the key of a lock holds is what the lock is as of now. -/
def Stands (key : String) (hold : Hold) (memory : Memory) : Prop :=
  memory.held key = (hold.asOf memory.clock).slot?

theorem asOf_asOf (hold : Hold) {now later : Nat} (le : now ≤ later) :
    (hold.asOf now).asOf later = hold.asOf later := by
  cases hold with
  | free | orphan => rfl
  | held holder deadline =>
    by_cases reached : deadline ≤ now
    · simp only [asOf, if_pos reached, if_pos (Nat.le_trans reached le)]
    · simp only [asOf, if_neg reached]

section Stands

variable {space : Keyspace} {lock key holder : String} {hold : Hold} {memory : Memory}

/-- While time passes, the key keeps up with the lock. -/
theorem Stands.advance (stands : hold.Stands key memory) (millis : Nat) :
    hold.Stands key (memory.advance millis) := by
  unfold Stands at stands ⊢
  have later : (hold.asOf memory.clock).asOf (memory.clock + millis) = hold.asOf (memory.clock + millis) :=
    hold.asOf_asOf (Nat.le_add_right _ _)
  rw [show (memory.advance millis).clock = memory.clock + millis from rfl, ← later]
  cases now : hold.asOf memory.clock with
  | free =>
    rw [now] at stands
    rcases memory.held_advance_or key millis with same | gone
    · rw [same, stands]
      rfl
    · exact gone
  | orphan holder =>
    rw [now] at stands
    exact Memory.held_advance stands rfl
  | held holder deadline =>
    rw [now] at stands
    simp only [asOf]
    split
    · next reached => exact Memory.held_advance_none stands (decide_eq_false (Nat.not_lt.mpr reached))
    · next early => exact Memory.held_advance stands (decide_eq_true (Nat.lt_of_not_le early))

/-- Taking a lock answers, waits and leaves what it does on a lock that stands so. -/
theorem Stands.acquire (stands : hold.Stands key memory) (available : memory.unavailable = false)
    {seconds : Nat} (positive : 0 < seconds) :
    let outcome := hold.acquire memory.clock holder seconds
    Gives key (Stage.look.program key holder seconds) memory outcome.answer outcome.waits
      outcome.leaves.slot? := by
  unfold Stands at stands
  simp only [Hold.acquire]
  cases now : hold.asOf memory.clock with
  | free =>
    rw [now] at stands
    exact gives_free available positive stands
  | held current deadline =>
    rw [now] at stands
    by_cases own : current = holder
    · subst own
      simp only [if_pos]
      exact gives_own available positive stands
    · simp only [if_neg own]
      exact gives_held available own stands
  | orphan current =>
    rw [now] at stands
    by_cases own : current = holder
    · subst own
      simp only [if_pos]
      exact gives_own available positive stands
    · simp only [if_neg own]
      exact gives_orphan available positive own stands

theorem holder?_eq (hold : Hold) :
    hold.holder? = some holder ↔ hold.slot?.map Slot.entry = some (.string holder) := by
  cases hold <;> simp [holder?, slot?]

/-- Releasing a lock answers and leaves what it does on a lock that stands so. -/
theorem Stands.release (stands : hold.Stands key memory) (available : memory.unavailable = false) :
    let outcome := hold.release memory.clock holder
    Gives key (Queue.asking (.compareAndDelete key holder) Task.done) memory outcome.answer outcome.waits
      outcome.leaves.slot? := by
  unfold Stands at stands
  simp only [Hold.release]
  split
  · next own =>
    rw [holder?_eq, ← stands, Option.map_eq_some_iff] at own
    obtain ⟨⟨entry, time?⟩, held, equal⟩ := own
    cases equal
    refine gives_asking rfl (Memory.answers_compareAndDelete available held) ?_
    intro after _ _ free
    exact gives_done free
  · next other =>
    rw [holder?_eq, ← stands] at other
    refine gives_asking rfl (Memory.answers_compareAndDelete_other available other) ?_
    intro after _ _ held
    exact gives_done (held.trans stands)

/-- A call answers, waits and leaves what it does on a lock that stands so. -/
theorem Stands.call (named : lock ≠ "") (stands : hold.Stands (space.lock lock) memory)
    (available : memory.unavailable = false) {operation : Operation}
    (valid : (Turn.call holder operation).Valid) :
    let outcome := hold.call memory.clock holder operation
    Gives (space.lock lock) (operation.program space lock holder) memory outcome.answer outcome.waits
      outcome.leaves.slot? := by
  cases operation with
  | acquiring seconds =>
    obtain ⟨holderNamed, positive⟩ := valid
    rw [Operation.program, acquire_eq ⟨by simpa using named, by simpa using holderNamed⟩ positive]
    exact stands.acquire available positive
  | releasing =>
    rw [Operation.program, release_named named valid]
    exact stands.release available

end Stands

/-- What a call leaves at the key, the lock stands so. -/
theorem stands_of_held {key : String} {hold : Hold} {memory : Memory}
    (left : memory.held key = hold.slot?) : hold.Stands key memory := by
  unfold Stands
  cases hold with
  | free | orphan => exact left
  | held holder deadline =>
    have early : memory.clock < deadline := of_decide_eq_true (Memory.live_of_held left)
    rw [asOf, if_neg (Nat.not_le.mpr early)]
    exact left

end Hold

/-- Some turns answer and leave what they do on a lock, and change nothing else but the time. -/
structure Follows (space : Keyspace) (lock : String) (hold : Hold) (turns : List Turn) (memory : Memory) :
    Prop where
  answers : (session space lock memory turns).1 = (hold.session memory.clock turns).1.map .ok
  clock : (session space lock memory turns).2.clock = (hold.session memory.clock turns).2.1
  stands : (hold.session memory.clock turns).2.2.Stands (space.lock lock) (session space lock memory turns).2
  touched : memory.Touched (space.lock lock) (session space lock memory turns).2

/-- Calls that do not overlap, with any time between them, answer, wait and leave what they do on a lock that
is free, held until a deadline, or an orphan. -/
theorem session_follows (space : Keyspace) {lock : String} (named : lock ≠ "") {turns : List Turn}
    (valid : ∀ turn ∈ turns, turn.Valid) {memory : Memory} (available : memory.unavailable = false)
    {hold : Hold} (stands : hold.Stands (space.lock lock) memory) : Follows space lock hold turns memory := by
  induction turns generalizing memory hold with
  | nil => exact ⟨rfl, rfl, stands, .refl _⟩
  | cons turn turns ih =>
    have others (other : Turn) (member : other ∈ turns) : other.Valid :=
      valid other (List.mem_cons_of_mem _ member)
    cases turn with
    | pass millis =>
      have later : (memory.advance millis).unavailable = false := available
      have rest := ih others later (stands.advance millis)
      exact ⟨rest.answers, rest.clock, rest.stands, (Memory.Touched.advance millis).trans rest.touched⟩
    | call holder operation =>
      have gives := stands.call named available (valid _ (List.mem_cons_self ..))
      have rest := ih others (gives.touched.unavailable.trans available) (Hold.stands_of_held gives.held)
      constructor
      · simp only [session, Hold.session, List.map_cons]
        rw [gives.answer, rest.answers, gives.clock]
      · simp only [session, Hold.session]
        rw [rest.clock, gives.clock]
      · simp only [session, Hold.session]
        rw [← gives.clock]
        exact rest.stands
      · exact gives.touched.trans rest.touched

/-- An orphan is taken over, extended, released by another in vain, refused to another and shortened; then its
deadline is reached. -/
def takeover : List Turn :=
  [.call "b" (.acquiring 5), .pass 1000, .call "b" (.acquiring 60), .call "a" .releasing,
    .call "a" (.acquiring 1), .call "b" (.acquiring 1), .pass 999, .call "a" (.acquiring 7), .pass 1,
    .call "a" (.acquiring 7), .call "a" .releasing]

theorem session_follows_takeover :
    let memory := ({} : Memory).setString "app:l" "a"
    (Hold.orphan "a").Stands "app:l" memory ∧
      (session ⟨"app"⟩ "l" memory takeover).1 =
        [true, true, false, false, true, false, true, true].map .ok ∧
      Follows ⟨"app"⟩ "l" (.orphan "a") takeover memory := by
  intro memory
  have stands : (Hold.orphan "a").Stands (Keyspace.lock ⟨"app"⟩ "l") memory := rfl
  have valid : ∀ turn ∈ takeover, turn.Valid := by simp [takeover, Turn.Valid]
  have follows := session_follows ⟨"app"⟩ (by decide : "l" ≠ "") valid rfl stands
  exact ⟨stands, follows.answers.trans (congrArg _ (by decide)), follows⟩

end Lock
end JobQueue
