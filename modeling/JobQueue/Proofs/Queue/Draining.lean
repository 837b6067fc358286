import JobQueue.Proofs.Queue.Drained
import JobQueue.Proofs.Store.CatchUp

/-! # A worker that empties a delayed queue

A worker that asks again and again at one time is given what has become ready, and in the end nothing. It is
given each payload as often as it should have fired by then, in the order of the times. This needs scores
that are whole, so that no sum is rounded, and frequencies that are doubles.
-/

namespace JobQueue

open Function (update update_self update_of_ne)
open Contents (list? scores?)

namespace Contents

/-- A field of a hash. -/
def field? (contents : Contents) (key field : String) : Option String :=
  match contents key with
  | some (.hash fields) => Dict.get? fields field
  | _ => none

/-- The number that a field spells in decimal digits. -/
def step? (contents : Contents) (key member : String) : Option Nat :=
  (contents.field? key member).map fun text => Text.number text.toList

variable {contents after : Contents} {key : String}

theorem frequency?_eq (contents : Contents) (key member : String) :
    contents.frequency? key member = (contents.field? key member).bind Binary64.ofText? := by
  unfold frequency? field?
  cases contents key with
  | none => rfl
  | some held => cases held <;> rfl

theorem field?_congr (same : after key = contents key) : after.field? key = contents.field? key := by
  funext field
  rw [field?, field?, same]

theorem scores?_kept (scores : Dict Binary64) : scores? (Entry.sortedSet scores).kept = some scores := by
  cases scores <;> rfl

/-- A queue that is a sorted set or nothing gives the member that leads. -/
theorem gives_iff_leads {route : Route} {now : Int} {scores : Dict Binary64}
    (sorted : scores? (contents route.queue) = some scores) {payload : String} {left : Option Entry} :
    contents.Gives route now payload left ↔
      (∃ score, Schedule.Leads (Binary64.ofInt now) scores payload score) ∧
        left = (Entry.sortedSet (contents.scoresBehind route scores payload)).kept := by
  constructor
  · intro gives
    cases gives with
    | head held =>
      rw [held] at sorted
      contradiction
    | lead held leads =>
      rw [held] at sorted
      cases sorted
      exact ⟨⟨_, leads⟩, rfl⟩
  · rintro ⟨⟨score, leads⟩, rfl⟩
    refine .lead ?_ leads
    unfold scores? at sorted
    split at sorted
    · cases sorted
      exact absurd leads.among List.not_mem_nil
    · next held =>
      cases sorted
      exact held
    · contradiction

end Contents

namespace Queue

/-- A queue is a sorted set of whole scores or nothing, its frequencies are numbers in decimal digits, and the
jobs in flight are a list or nothing. -/
structure Drainable (memory : Memory) (space : Keyspace) (worker queue : String) (now : Int)
    (scores : Dict Binary64) (stack : List String) : Prop where
  available : memory.unavailable = false
  current : now.natAbs ≤ 2 ^ 53
  sorted : scores? (memory.contents (space.queue queue)) = some scores
  flying : list? (memory.contents (space.inflight worker queue)) = some stack
  regular : Schedule.Regular now (memory.contents.step? (space.recurring queue)) scores
  decimal {member : String} {score : Binary64} (scored : Dict.get? scores member = some score) {text : String}
    (field : memory.contents.field? (space.recurring queue) member = some text) :
    text.toList ≠ [] ∧ ∀ c ∈ text.toList, c.isDigit = true

/-- A frequency that has more than 53 binary digits is even. -/
def ExactSteps (memory : Memory) (space : Keyspace) (queue : String) (scores : Dict Binary64) : Prop :=
  ∀ member score step, Dict.get? scores member = some score →
    memory.contents.step? (space.recurring queue) member = some step → 2 ^ 53 < step → 2 ∣ step

/-- A worker asks until it is given nothing. Each payload that it is given fires at the score that it has. -/
inductive Drains (space : Keyspace) (worker queue : String) (now : Int) :
    Memory → List Schedule.Firing → Memory → Prop
  | empty {memory next : Memory} (run : (dequeue space worker queue now).run memory = (.ok none, next)) :
    Drains space worker queue now memory [] next
  | given {memory next last : Memory} {payload : String} {score : Binary64} {scores : Dict Binary64}
    {firings : List Schedule.Firing} (sorted : scores? (memory.contents (space.queue queue)) = some scores)
    (scored : Dict.get? scores payload = some score)
    (run : (dequeue space worker queue now).run memory = (.ok (some payload), next))
    (rest : Drains space worker queue now next firings last) :
    Drains space worker queue now memory ((payload, score) :: firings) last

/-- What a worker leaves that has emptied a queue. -/
structure Emptied (memory : Memory) (space : Keyspace) (worker queue : String) (now : Int)
    (scores : Dict Binary64) (stack : List String) (firings : List Schedule.Firing) (after : Memory) : Prop where
  caughtUp : ∃ left, scores? (after.contents (space.queue queue)) = some left ∧
    Schedule.CaughtUp now (memory.contents.step? (space.recurring queue)) scores firings left
  flying : list? (after.contents (space.inflight worker queue)) = some ((firings.map Prod.fst).reverse ++ stack)
  others (key : String) : key ≠ space.queue queue → key ≠ space.inflight worker queue →
    after.contents key = memory.contents key

/-- A worker is given the member that leads: it has fired, and is on top of the jobs in flight. -/
structure Delivers (memory : Memory) (space : Keyspace) (worker queue : String) (now : Int)
    (scores : Dict Binary64) (stack : List String) (member : String) (score : Binary64) (left : Dict Binary64)
    (next : Memory) : Prop where
  run : (dequeue space worker queue now).run memory = (.ok (some member), next)
  available : next.unavailable = false
  leads : Schedule.Leads (Binary64.ofInt now) scores member score
  come : score.whole ≤ now
  fires : Schedule.Fires (memory.contents.step? (space.recurring queue)) scores member score left
  after : next.contents = update (update memory.contents (space.queue queue) (Entry.sortedSet left).kept)
    (space.inflight worker queue) (some (.list (member :: stack)))

variable {memory next : Memory} {space : Keyspace} {worker queue : String} {now : Int} {scores : Dict Binary64}
  {stack : List String} {member : String} {score : Binary64} {left : Dict Binary64}

/-! ## One request -/

theorem run_dequeue (named : queue ≠ "") (available : memory.unavailable = false) {given : Option String}
    (popped : memory.popToInflight (route space worker queue) now = (.ok given, next)) :
    (dequeue space worker queue now).run memory = (.ok given, next) := by
  refine (Task.run_bind_of_ok (run_demandName named) _).trans ?_
  have performed : memory.perform (.popToInflight (route space worker queue) now) = (.ok given, next) := by
    rw [Memory.perform, if_neg (ne_true_of_eq_false available)]
    exact popped
  rw [ask_eq, asking, Task.run_call, performed]
  rfl

theorem unavailable_popToInflight {route : Route} {outcome : Except StoreError (Option String)}
    (available : memory.unavailable = false) (popped : memory.popToInflight route now = (outcome, next)) :
    next.unavailable = false := by
  have kept := memory.unavailable_perform (.popToInflight route now)
  rw [Memory.perform, if_neg (ne_true_of_eq_false available)] at kept
  simp only [popped] at kept
  rw [kept, available]

/-- The queue that has given a member whose score is whole. -/
theorem fires_scoresBehind {contents : Contents} {route : Route}
    (regular : Schedule.Regular now (contents.step? route.recurring) scores) (current : now.natAbs ≤ 2 ^ 53)
    (decimal : ∀ text, contents.field? route.recurring member = some text →
      text.toList ≠ [] ∧ ∀ c ∈ text.toList, c.isDigit = true)
    (exact : ∀ step, contents.step? route.recurring member = some step → 2 ^ 53 < step → 2 ∣ step)
    (scored : Dict.get? scores member = some score) (come : score.whole ≤ now) :
    Schedule.Fires (contents.step? route.recurring) scores member score
      (contents.scoresBehind route scores member) := by
  rw [Contents.scoresBehind, Contents.frequency?_eq]
  cases field : contents.field? route.recurring member with
  | none =>
    have once : contents.step? route.recurring member = none := congrArg (Option.map _) field
    refine ⟨Dict.nodup_keys_erase regular.distinct member, fun other differ => ?_, fun _ => ?_, fun recurs => ?_⟩
    · exact (Dict.get?_erase ..).trans (if_neg differ.symm)
    · exact (Dict.get?_erase ..).trans (if_pos rfl)
    · rw [once] at recurs
      contradiction
  | some text =>
    have recurs : contents.step? route.recurring member = some (Text.number text.toList) :=
      congrArg (Option.map _) field
    obtain ⟨filled, digits⟩ := decimal text field
    obtain ⟨positive, limited⟩ := regular.steps scored recurs
    have spelled : Binary64.Exact (Text.number text.toList) := by
      by_cases small : Text.number text.toList ≤ 2 ^ 53
      · exact .inl small
      · exact .inr ⟨exact _ recurs (Nat.lt_of_not_le small), by omega⟩
    obtain ⟨frequency, read, isWhole, value⟩ := Binary64.isWhole_ofText? filled digits spelled
    have own := regular.whole scored
    have bounded := regular.bounded scored
    obtain ⟨whole, sum⟩ := own.add isWhole (by omega)
    rw [Option.bind_some, read]
    dsimp only
    rw [Schedule.putOff, scored]
    refine ⟨Dict.nodup_keys_insert regular.distinct member _, fun other differ => ?_, fun once => ?_,
      fun again => ?_⟩
    · exact (Dict.get?_insert ..).trans (if_neg differ.symm)
    · rw [recurs] at once
      contradiction
    · cases recurs.symm.trans again
      exact ⟨_, (Dict.get?_insert ..).trans (if_pos rfl), whole, by rw [sum, value]⟩

/-- A worker is given nothing, or the member that leads. -/
theorem Drainable.step (drainable : Drainable memory space worker queue now scores stack)
    (exact : ExactSteps memory space queue scores) (named : queue ≠ "") :
    (∃ next, (dequeue space worker queue now).run memory = (.ok none, next) ∧
        next.contents = memory.contents ∧
        ∀ member score, Dict.get? scores member = some score → now < score.whole) ∨
      ∃ member score left next, Delivers memory space worker queue now scores stack member score left next := by
  obtain ⟨limited, value⟩ := Binary64.isWhole_ofInt drainable.current
  have upTo {member : String} {score : Binary64} (scored : Dict.get? scores member = some score) :
      score.atMost (Binary64.ofInt now) = true ↔ score.whole ≤ now := by
    rw [(drainable.regular.whole scored).atMost_iff limited, value]
  have sorted : scores? (memory.contents (route space worker queue).queue) = some scores := drainable.sorted
  cases given : Schedule.firstUpTo (Binary64.ofInt now) scores with
  | none =>
    have late := Schedule.firstUpTo_eq_none given
    have nothing (payload : String) (left : Option Entry) :
        ¬ memory.contents.Gives (route space worker queue) now payload left := by
      intro gives
      obtain ⟨⟨score, leads⟩, -⟩ := (Contents.gives_iff_leads sorted).mp gives
      exact late _ leads.among leads.ready
    obtain ⟨next, idle, same⟩ := Memory.popToInflight_idle nothing
    refine .inl ⟨next, run_dequeue named drainable.available idle, same, fun member score scored => ?_⟩
    have notReady := late _ (Dict.mem_of_get? scored)
    rw [upTo scored] at notReady
    exact Int.lt_of_not_ge notReady
  | some entry =>
    obtain ⟨member, score⟩ := entry
    have leads := Schedule.leads_of_firstUpTo given
    have scored := Dict.get?_of_mem drainable.regular.distinct leads.among
    have come := (upTo scored).mp leads.ready
    have differ : space.inflight worker queue ≠ space.queue queue :=
      Keyspace.inflight_ne_queue worker queue queue
    have gives := (Contents.gives_iff_leads sorted).mpr ⟨⟨score, leads⟩, rfl⟩
    obtain ⟨next, popped, after⟩ := Memory.popToInflight_moves gives differ drainable.flying
    have fires : Schedule.Fires (memory.contents.step? (route space worker queue).recurring) scores member score
        (memory.contents.scoresBehind (route space worker queue) scores member) :=
      fires_scoresBehind drainable.regular drainable.current (fun _ => drainable.decimal scored)
        (fun _ => exact _ _ _ scored) scored come
    exact .inr ⟨member, score, _, next, run_dequeue named drainable.available popped,
      unavailable_popToInflight drainable.available popped, leads, come, fires, after⟩

/-! ## What the next request finds -/

namespace Delivers

variable (delivers : Delivers memory space worker queue now scores stack member score left next)
  (drainable : Drainable memory space worker queue now scores stack)

include delivers

/-- The frequencies are left alone. -/
theorem field?_eq :
    next.contents.field? (space.recurring queue) = memory.contents.field? (space.recurring queue) := by
  apply Contents.field?_congr
  rw [delivers.after, update_of_ne (Keyspace.inflight_ne_recurring worker queue queue).symm,
    update_of_ne (Keyspace.recurring_ne_queue queue)]

theorem step?_eq :
    next.contents.step? (space.recurring queue) = memory.contents.step? (space.recurring queue) := by
  funext other
  rw [Contents.step?, Contents.step?, delivers.field?_eq]

include drainable

theorem scored : Dict.get? scores member = some score :=
  Dict.get?_of_mem drainable.regular.distinct delivers.leads.among

theorem exactSteps (exact : ExactSteps memory space queue scores) : ExactSteps next space queue left := by
  intro other later step found recurs
  obtain ⟨earlier, before⟩ := delivers.fires.scored (delivers.scored drainable) found
  rw [delivers.step?_eq] at recurs
  exact exact other earlier step before recurs

theorem onward : Drainable next space worker queue now left (member :: stack) where
  available := delivers.available
  current := drainable.current
  sorted := by
    rw [delivers.after, update_of_ne (Keyspace.inflight_ne_queue worker queue queue).symm, update_self]
    exact Contents.scores?_kept left
  flying := by
    rw [delivers.after, update_self]
    rfl
  regular := by
    rw [delivers.step?_eq]
    exact delivers.fires.regular drainable.regular (delivers.scored drainable) delivers.come
  decimal := by
    intro other later found text field
    obtain ⟨earlier, before⟩ := delivers.fires.scored (delivers.scored drainable) found
    rw [delivers.field?_eq] at field
    exact drainable.decimal before field

/-- What is left by the requests that follow is what is left by all. -/
theorem emptied {firings : List Schedule.Firing} {last : Memory}
    (emptied : Emptied next space worker queue now left (member :: stack) firings last) :
    Emptied memory space worker queue now scores stack ((member, score) :: firings) last where
  caughtUp := by
    obtain ⟨rest, kept, caughtUp⟩ := emptied.caughtUp
    rw [delivers.step?_eq] at caughtUp
    obtain ⟨limited, value⟩ := Binary64.isWhole_ofInt drainable.current
    refine ⟨rest, kept, ?_⟩
    exact Schedule.caughtUp_cons drainable.regular (delivers.scored drainable) delivers.come delivers.fires
      caughtUp fun other ready found differ =>
        delivers.leads.before drainable.regular limited value found differ
  flying := by
    rw [emptied.flying, List.map_cons, List.reverse_cons, List.append_assoc]
    rfl
  others key queue inflight := by
    rw [emptied.others key queue inflight, delivers.after, update_of_ne inflight, update_of_ne queue]

end Delivers

/-- Where nothing is ready there is nothing to empty. -/
theorem Drainable.emptied (drainable : Drainable memory space worker queue now scores stack)
    (same : next.contents = memory.contents)
    (late : ∀ member score, Dict.get? scores member = some score → now < score.whole) :
    Emptied memory space worker queue now scores stack [] next where
  caughtUp := ⟨scores, same ▸ drainable.sorted, Schedule.caughtUp_nil late⟩
  flying := same ▸ drainable.flying
  others _ _ _ := same ▸ rfl

/-! ## All requests -/

/-- A worker that goes on asking is given all that has become ready, and then nothing. -/
theorem drains_emptied (named : queue ≠ "") (drainable : Drainable memory space worker queue now scores stack)
    (exact : ExactSteps memory space queue scores) :
    ∃ firings after, Drains space worker queue now memory firings after ∧
      Emptied memory space worker queue now scores stack firings after := by
  -- what is pending is counted over the members at the beginning, since no others ever fire
  obtain ⟨members, known⟩ : ∃ members, ∀ member score, Dict.get? scores member = some score → member ∈ members :=
    ⟨Dict.keys scores, fun member score scored => List.mem_map.mpr ⟨_, Dict.mem_of_get? scored, rfl⟩⟩
  generalize size : Schedule.pendingAll now (memory.contents.step? (space.recurring queue)) members scores = n
  induction n using Nat.strongRecOn generalizing memory scores stack with
  | ind n ih =>
    subst size
    rcases drainable.step exact named with ⟨next, run, same, late⟩ | ⟨member, score, left, next, delivers⟩
    · exact ⟨[], next, .empty run, drainable.emptied same late⟩
    · have scored := delivers.scored drainable
      have less := delivers.fires.pendingAll_lt drainable.regular scored delivers.come (known _ _ scored)
      have knownNext (other : String) (later : Binary64) (found : Dict.get? left other = some later) :
          other ∈ members := by
        obtain ⟨earlier, before⟩ := delivers.fires.scored scored found
        exact known _ _ before
      obtain ⟨firings, last, drains, emptied⟩ := ih _ less (delivers.onward drainable)
        (delivers.exactSteps drainable exact) knownNext (by rw [delivers.step?_eq])
      exact ⟨_, last, .given drainable.sorted scored delivers.run drains, delivers.emptied drainable emptied⟩

section Samples

/-- A delayed queue with frequencies and with jobs in flight. -/
def stocked (space : Keyspace) (worker queue : String) (scores : Dict Binary64) (frequencies : Dict String)
    (stack : List String) : Memory where
  slots := [(space.queue queue, ⟨.sortedSet scores, none⟩),
    (space.recurring queue, ⟨.hash frequencies, none⟩), (space.inflight worker queue, ⟨.list stack, none⟩)]

theorem drainable_stocked {frequencies : Dict String} (current : now.natAbs ≤ 2 ^ 53)
    (distinct : (Dict.keys scores).Nodup)
    (whole : ∀ entry ∈ scores, entry.2.IsWhole ∧ entry.2.whole.natAbs ≤ 2 ^ 53)
    (decimal : ∀ entry ∈ frequencies, entry.2.toList ≠ [] ∧ entry.2.toList.all Char.isDigit = true ∧
      1 ≤ Text.number entry.2.toList ∧ now + Text.number entry.2.toList ≤ 2 ^ 53) :
    Drainable (stocked space worker queue scores frequencies stack) space worker queue now scores stack := by
  have queueKey : (stocked space worker queue scores frequencies stack).contents (space.queue queue) =
      some (.sortedSet scores) := by
    simp [Memory.contents, Slots.contents, stocked, Dict.get?_cons, Slot.liveAt]
  have recurringKey : (stocked space worker queue scores frequencies stack).contents (space.recurring queue) =
      some (.hash frequencies) := by
    simp [Memory.contents, Slots.contents, stocked, Dict.get?_cons, Slot.liveAt,
      (Keyspace.recurring_ne_queue queue).symm]
  have inflightKey : (stocked space worker queue scores frequencies stack).contents
      (space.inflight worker queue) = some (.list stack) := by
    simp [Memory.contents, Slots.contents, stocked, Dict.get?_cons, Slot.liveAt,
      (Keyspace.inflight_ne_queue worker queue queue).symm,
      (Keyspace.inflight_ne_recurring worker queue queue).symm]
  have field {member text : String} (found : (stocked space worker queue scores frequencies stack).contents.field?
      (space.recurring queue) member = some text) : (member, text) ∈ frequencies := by
    rw [Contents.field?, recurringKey] at found
    exact Dict.mem_of_get? found
  refine ⟨rfl, current, by rw [queueKey]; rfl, by rw [inflightKey]; rfl, ⟨distinct, ?_, ?_, ?_⟩, ?_⟩
  · exact fun scored => (whole _ (Dict.mem_of_get? scored)).1
  · exact fun scored => (whole _ (Dict.mem_of_get? scored)).2
  · intro member score scored step recurs
    obtain ⟨text, found, rfl⟩ := Option.map_eq_some_iff.mp recurs
    exact (decimal _ (field found)).2.2
  · intro member score scored text found
    obtain ⟨filled, digits, -⟩ := decimal _ (field found)
    exact ⟨filled, List.all_eq_true.mp digits⟩

theorem whole_ofInt {n : Int} (bounded : n.natAbs ≤ 2 ^ 53) :
    (Binary64.ofInt n).IsWhole ∧ (Binary64.ofInt n).whole.natAbs ≤ 2 ^ 53 := by
  obtain ⟨isWhole, value⟩ := Binary64.isWhole_ofInt bounded
  exact ⟨isWhole, value.symm ▸ bounded⟩

/-- A payload that fires once, one that fires every other millisecond, and one that is not ready. -/
def backlogScores : Dict Binary64 := [("once", .ofInt 3), ("tick", .ofInt (-1)), ("late", .ofInt 9)]

def backlog : Memory := stocked ⟨"q"⟩ "w" "mail" backlogScores [("tick", "2")] ["old"]

theorem drains_emptied_backlog :
    "mail" ≠ "" ∧ Drainable backlog ⟨"q"⟩ "w" "mail" 5 backlogScores ["old"] ∧
      ExactSteps backlog ⟨"q"⟩ "mail" backlogScores ∧
      ∃ firings after, Drains ⟨"q"⟩ "w" "mail" 5 backlog firings after ∧
        Emptied backlog ⟨"q"⟩ "w" "mail" 5 backlogScores ["old"] firings after := by
  have drainable : Drainable backlog ⟨"q"⟩ "w" "mail" 5 backlogScores ["old"] := by
    refine drainable_stocked (by decide) (by decide) ?_ (by decide)
    simp only [backlogScores, List.forall_mem_cons]
    exact ⟨whole_ofInt (by decide), whole_ofInt (by decide), whole_ofInt (by decide), List.forall_mem_nil _⟩
  have exact : ExactSteps backlog ⟨"q"⟩ "mail" backlogScores := by
    intro member score step scored recurs large
    have bounded := (drainable.regular.steps scored recurs).2
    omega
  exact ⟨by decide, drainable, exact, drains_emptied (by decide) drainable exact⟩

/-- What is known of the first request tells how a worker begins. -/
theorem Drains.begins {firings : List Schedule.Firing} {last : Memory}
    (drains : Drains space worker queue now memory firings last) :
    (((dequeue space worker queue now).run memory).1 = .ok none ∧ firings = [] ∧
        last = ((dequeue space worker queue now).run memory).2) ∨
      ∃ payload score scores rest, ((dequeue space worker queue now).run memory).1 = .ok (some payload) ∧
        scores? (memory.contents (space.queue queue)) = some scores ∧ Dict.get? scores payload = some score ∧
        firings = (payload, score) :: rest ∧
        Drains space worker queue now ((dequeue space worker queue now).run memory).2 rest last := by
  cases drains with
  | empty run => exact .inl ⟨congrArg Prod.fst run, rfl, (congrArg Prod.snd run).symm⟩
  | given sorted scored run rest =>
    refine .inr ⟨_, _, _, _, congrArg Prod.fst run, sorted, scored, rfl, ?_⟩
    rw [run]
    exact rest

/-- A payload that is put off by an odd number of 54 binary digits. -/
def drifting : Memory :=
  stocked ⟨"q"⟩ "w" "mail" [("tick", .ofInt (-9007199254740992))] [("tick", "9007199254740993")] []

/-- The step is rounded, so the payload is left at a time that is not one of its own. -/
theorem drifting_not_emptied {firings : List Schedule.Firing} {after : Memory}
    (drains : Drains ⟨"q"⟩ "w" "mail" (-9007199254740992) drifting firings after) :
    ¬ Emptied drifting ⟨"q"⟩ "w" "mail" (-9007199254740992) [("tick", .ofInt (-9007199254740992))] []
      firings after := by
  intro emptied
  let drifted := ((dequeue ⟨"q"⟩ "w" "mail" (-9007199254740992)).run drifting).2
  have first : ((dequeue ⟨"q"⟩ "w" "mail" (-9007199254740992)).run drifting).1 = .ok (some "tick") := by
    decide +kernel
  have second : ((dequeue ⟨"q"⟩ "w" "mail" (-9007199254740992)).run drifted).1 = .ok none := by
    decide +kernel
  have behind : ((dequeue ⟨"q"⟩ "w" "mail" (-9007199254740992)).run drifted).2.contents
      (Keyspace.queue ⟨"q"⟩ "mail") = some (.sortedSet [("tick", .zero false)]) := by decide +kernel
  have step : drifting.contents.step? (Keyspace.recurring ⟨"q"⟩ "mail") "tick" = some 9007199254740993 := by
    decide +kernel
  rcases drains.begins with ⟨nothing, -⟩ | ⟨_, _, _, _, -, -, -, -, more⟩
  · exact nomatch nothing.symm.trans first
  rcases more.begins with ⟨-, -, last⟩ | ⟨_, _, _, _, another, -⟩
  · obtain ⟨left, sorted, caughtUp⟩ := emptied.caughtUp
    rw [last, behind] at sorted
    cases sorted
    have leaves := caughtUp.leaves "tick"
    obtain ⟨-, start⟩ := @Binary64.isWhole_ofInt (-9007199254740992) (by decide)
    obtain ⟨-, zero⟩ := Binary64.isWhole_zero false
    rw [step] at leaves
    simp only [Dict.get?_cons, if_true] at leaves
    generalize Binary64.ofInt (-9007199254740992) = score at leaves start
    generalize Binary64.zero false = later at leaves zero
    cases leaves with
    | spared _ late => omega
    | again _ sum _ _ fired =>
      rw [start, zero] at sum
      omega
  · exact nomatch second.symm.trans another

/-- Two payloads for one time, one of which is scored `-0.0`. -/
def zeros : Memory := stocked ⟨"q"⟩ "w" "mail" [("a", .zero false), ("b", .zero true)] [("c", "7")] []

/-- Of two payloads for one time, the one with more bytes comes first. -/
theorem zeros_out_of_order {firings : List Schedule.Firing} {after : Memory}
    (drains : Drains ⟨"q"⟩ "w" "mail" 0 zeros firings after) :
    ¬ firings.Pairwise fun firing other => firing.2.whole < other.2.whole ∨
      firing.2.whole = other.2.whole ∧ Text.bytes firing.1 < Text.bytes other.1 := by
  intro inOrder
  let between := ((dequeue ⟨"q"⟩ "w" "mail" 0).run zeros).2
  have first : ((dequeue ⟨"q"⟩ "w" "mail" 0).run zeros).1 = .ok (some "b") := by decide +kernel
  have second : ((dequeue ⟨"q"⟩ "w" "mail" 0).run between).1 = .ok (some "a") := by decide +kernel
  have before : zeros.contents (Keyspace.queue ⟨"q"⟩ "mail") =
      some (.sortedSet [("a", .zero false), ("b", .zero true)]) := by decide +kernel
  have behind : between.contents (Keyspace.queue ⟨"q"⟩ "mail") = some (.sortedSet [("a", .zero false)]) := by
    decide +kernel
  rcases drains.begins with ⟨nothing, -⟩ | ⟨payload, score, scores, rest, given, sorted, scored, rfl, more⟩
  · exact nomatch nothing.symm.trans first
  cases given.symm.trans first
  rw [before] at sorted
  cases sorted
  obtain rfl : Binary64.zero true = score := Option.some.inj scored
  rcases more.begins with ⟨nothing, -⟩ | ⟨other, later, scores, rest, given, sorted, scored, rfl, -⟩
  · exact nomatch nothing.symm.trans second
  cases given.symm.trans second
  rw [behind] at sorted
  cases sorted
  obtain rfl : Binary64.zero false = later := Option.some.inj scored
  have both := List.rel_of_pairwise_cons inOrder List.mem_cons_self
  rw [(Binary64.isWhole_zero true).2, (Binary64.isWhole_zero false).2] at both
  revert both
  decide

/-- A frequency that is no double is rounded, and `-0.0` comes before `0.0` whatever the payloads are. -/
theorem drains_inexactly :
    (Drainable drifting ⟨"q"⟩ "w" "mail" (-9007199254740992) [("tick", .ofInt (-9007199254740992))] [] ∧
      ¬ ∃ firings after, Drains ⟨"q"⟩ "w" "mail" (-9007199254740992) drifting firings after ∧
        Emptied drifting ⟨"q"⟩ "w" "mail" (-9007199254740992) [("tick", .ofInt (-9007199254740992))] []
          firings after) ∧
    (Drainable zeros ⟨"q"⟩ "w" "mail" 0 [("a", .zero false), ("b", .zero true)] [] ∧
      ¬ ∃ firings after, Drains ⟨"q"⟩ "w" "mail" 0 zeros firings after ∧
        firings.Pairwise fun firing other => firing.2.whole < other.2.whole ∨
          firing.2.whole = other.2.whole ∧ Text.bytes firing.1 < Text.bytes other.1) := by
  have zero (negative : Bool) : (Binary64.zero negative).IsWhole ∧
      (Binary64.zero negative).whole.natAbs ≤ 2 ^ 53 := by
    obtain ⟨isWhole, value⟩ := Binary64.isWhole_zero negative
    exact ⟨isWhole, value.symm ▸ Nat.zero_le _⟩
  refine ⟨⟨?_, fun ⟨_, _, drains, emptied⟩ => drifting_not_emptied drains emptied⟩, ?_,
    fun ⟨_, _, drains, inOrder⟩ => zeros_out_of_order drains inOrder⟩
  · refine drainable_stocked (by decide) (by decide) ?_ (by decide)
    simp only [List.forall_mem_cons]
    exact ⟨whole_ofInt (by decide), List.forall_mem_nil _⟩
  · refine drainable_stocked (by decide) (by decide) ?_ (by decide)
    simp only [List.forall_mem_cons]
    exact ⟨zero false, zero true, List.forall_mem_nil _⟩

end Samples

end Queue

end JobQueue
