import JobQueue.Proofs.Lock.Stage
import JobQueue.Proofs.Store.OneKey
import JobQueue.Proofs.Task.Exchange

/-! # What taking a lock does, whatever the others do

A program that takes a lock never comes back to a stage: each event leads it closer to its end. So it makes a
few requests only, creates the lock once at most, and deletes it once at most. What it may have seen before it
does either follows from the stages that lead there.
-/

namespace JobQueue.Lock

/-- Where a program that takes a lock can be: at some point, or at its end with an error of the store. -/
inductive Site where
  | reached (point : Point)
  | failed (cause : StoreError)

/-- How a program has ended, if it has. -/
def Site.outcome? : Site → Option (Except QueueError Bool)
  | reached (.ended answer) => some (.ok answer)
  | failed cause => some (.error (.store cause))
  | reached _ => none

/-! ## How far it is to the end -/

def Stage.rank : Stage → Nat
  | look => 12
  | renew => 11
  | confirmRenewal => 10
  | probe => 9
  | probeAgain => 7
  | inspect => 6
  | adopt => 5
  | confirmAdoption | drop _ => 4
  | create => 3
  | limit => 2
  | confirm => 1

def Point.rank : Point → Nat
  | before stage => stage.rank
  | sleeping => 8
  | ended _ => 0

def Site.rank : Site → Nat
  | reached point => point.rank
  | failed _ => 0

section Paths

variable (key holder : String) (seconds : Nat)

/-- What can happen to a program at a site, and where it leads. -/
inductive Goes : Site → Event → Site → Prop
  | replied (stage : Stage) (reply : (stage.request key holder seconds).Reply) {point : Point}
    (leads : stage.react key holder seconds reply = point) :
    Goes (.reached (.before stage)) (.asked (stage.request key holder seconds) (.ok reply)) (.reached point)
  | refused (stage : Stage) (cause : StoreError) :
    Goes (.reached (.before stage)) (.asked (stage.request key holder seconds) (.error cause)) (.failed cause)
  | woken : Goes (.reached .sleeping) (.waited gracePeriod) (.reached (.before .probeAgain))

/-- Some events, the latest first, lead from one site to another. -/
inductive Leads (start : Site) : List Event → Site → Prop
  | here : Leads start [] start
  | on {past : List Event} {site next : Site} {event : Event} (leads : Leads start past site)
    (goes : Goes key holder seconds site event next) : Leads start (event :: past) next

end Paths

section Paths

variable {key holder : String} {seconds : Nat} {start site next : Site} {event : Event}
  {past later earlier : List Event}

theorem Stage.rank_react_lt (stage : Stage) (reply : (stage.request key holder seconds).Reply) :
    (stage.react key holder seconds reply).rank < stage.rank := by
  cases stage with
  | look | confirmRenewal | confirmAdoption =>
    simp only [react]
    split <;> decide
  | renew | adopt | create | limit | probe | probeAgain => cases reply <;> simp [react, Point.rank, rank]
  | inspect =>
    cases reply with
    | none => simp [react, Point.rank, rank]
    | some current =>
      simp only [react]
      split <;> simp [Point.rank, rank]
  | drop current => simp [react, Point.rank, rank]
  | confirm => simp [react, Point.rank, rank]

/-- Every event leads closer to the end. -/
theorem Goes.rank_lt (goes : Goes key holder seconds site event next) : next.rank < site.rank := by
  cases goes with
  | replied stage reply leads =>
    subst leads
    exact stage.rank_react_lt reply
  | refused stage cause =>
    have positive : 0 < stage.rank := by cases stage <;> simp [Stage.rank]
    exact positive
  | woken => decide

theorem Leads.rank_le (leads : Leads key holder seconds start past site) : site.rank ≤ start.rank := by
  induction leads with
  | here => exact Nat.le_refl _
  | on leads goes ih => exact Nat.le_trans (Nat.le_of_lt goes.rank_lt) ih

/-- There are no more events than the way is long. -/
theorem Leads.length_le (leads : Leads key holder seconds start past site) :
    past.length + site.rank ≤ start.rank := by
  induction leads with
  | here => simp
  | on leads goes ih =>
    have closer := goes.rank_lt
    rw [List.length_cons]
    omega

/-- Events that only happen at one distance from the end happen once. -/
theorem Leads.countP_le_one {rare : Event → Bool} {rank : Nat}
    (only : ∀ {site event next}, Goes key holder seconds site event next → rare event = true →
      site.rank = rank)
    (leads : Leads key holder seconds start past site) :
    past.countP rare = 0 ∨ (past.countP rare = 1 ∧ site.rank < rank) := by
  induction leads with
  | here => exact .inl rfl
  | @on past site next event leads goes ih =>
    have closer := goes.rank_lt
    by_cases now : rare event = true
    · have here := only goes now
      rw [List.countP_cons_of_pos now]
      omega
    · rw [List.countP_cons_of_neg now]
      omega

/-- Where the program was when an event happened, and where it went from there. -/
theorem Leads.split (leads : Leads key holder seconds start (later ++ event :: earlier) site) :
    ∃ here there, Leads key holder seconds start earlier here ∧ Goes key holder seconds here event there ∧
      Leads key holder seconds there later site := by
  induction later generalizing site with
  | nil =>
    cases leads with
    | on leads goes => exact ⟨_, _, leads, goes, .here⟩
  | cons last later ih =>
    cases leads with
    | on leads goes =>
      obtain ⟨here, there, first, event, rest⟩ := ih leads
      exact ⟨here, there, first, event, rest.on goes⟩

/-- Nothing happens to a program that has ended. -/
theorem Leads.ended (leads : Leads key holder seconds start past site)
    {outcome : Except QueueError Bool} (ended : start.outcome? = some outcome) :
    past = [] ∧ site = start := by
  induction leads with
  | here => exact ⟨rfl, rfl⟩
  | on leads goes ih =>
    obtain ⟨-, rfl⟩ := ih
    cases goes <;> cases ended

/-- A request is made at its own stage. -/
theorem Goes.asked {request : Request} {reply : Except StoreError request.Reply}
    (goes : Goes key holder seconds site (.asked request reply) next) :
    ∃ stage, site = .reached (.before stage) ∧ request = stage.request key holder seconds := by
  generalize same : Event.asked request reply = event at goes
  cases goes with
  | replied stage other leads =>
    cases same
    exact ⟨stage, rfl, rfl⟩
  | refused stage cause =>
    cases same
    exact ⟨stage, rfl, rfl⟩
  | woken => contradiction

/-- What leads from one site to another asks nothing but the requests of stages. -/
theorem Leads.requested (leads : Leads key holder seconds start past site) {request : Request}
    (member : request ∈ requests past) : ∃ stage, request = Stage.request key holder seconds stage := by
  obtain ⟨reply, asked⟩ := mem_requests.mp member
  obtain ⟨later, earlier, rfl⟩ := List.append_of_mem asked
  obtain ⟨_, _, -, goes, -⟩ := leads.split
  obtain ⟨stage, -, same⟩ := goes.asked
  exact ⟨stage, same⟩

/-! ## What a program has seen -/

/-- What a program that has come to a point has seen last. -/
def Point.Seen (key holder : String) (seconds : Nat) : Point → List Event → Prop
  | sleeping, past => ∃ before, past = .asked (.timeToLive key) (.ok .persistent) :: before
  | before .probeAgain, past => ∃ before,
      past = .waited gracePeriod :: .asked (.timeToLive key) (.ok .persistent) :: before
  | before .inspect, past => ∃ before,
      past = .asked (.timeToLive key) (.ok .persistent) :: .waited gracePeriod ::
        .asked (.timeToLive key) (.ok .persistent) :: before
  | before (.drop current), past => current ≠ holder ∧ ∃ before,
      past = .asked (.get key) (.ok (some current)) :: .asked (.timeToLive key) (.ok .persistent) ::
        .waited gracePeriod :: .asked (.timeToLive key) (.ok .persistent) :: before
  | before .confirmRenewal, past | before .confirmAdoption, past | before .confirm, past => ∃ before,
      past = .asked (.expire key seconds) (.ok true) :: before
  | ended true, past => ∃ before,
      past = .asked (.get key) (.ok (some holder)) :: .asked (.expire key seconds) (.ok true) :: before
  | _, _ => True

/-- What a reply adds to what a program has seen. -/
theorem Stage.seen_react (stage : Stage) (reply : (stage.request key holder seconds).Reply)
    (seen : (Point.before stage).Seen key holder seconds past) :
    (stage.react key holder seconds reply).Seen key holder seconds
      (.asked (stage.request key holder seconds) (.ok reply) :: past) := by
  have own {value? : Option String} (named : named holder value? = true) : value? = some holder := by
    simpa [Lock.named] using named
  cases stage with
  | look =>
    simp only [react]
    split <;> trivial
  | renew | adopt | limit =>
    cases reply with
    | true => exact ⟨past, rfl⟩
    | false => trivial
  | confirmRenewal | confirmAdoption =>
    obtain ⟨before, rfl⟩ := seen
    simp only [react]
    split
    · next mine =>
      cases own mine
      exact ⟨before, rfl⟩
    · trivial
  | confirm =>
    obtain ⟨before, rfl⟩ := seen
    simp only [react]
    cases mine : named holder reply with
    | true =>
      cases own mine
      exact ⟨before, rfl⟩
    | false => trivial
  | probe =>
    cases reply with
    | persistent => exact ⟨past, rfl⟩
    | missing | expires => trivial
  | probeAgain =>
    obtain ⟨before, rfl⟩ := seen
    cases reply with
    | persistent => exact ⟨before, rfl⟩
    | missing | expires => trivial
  | inspect =>
    obtain ⟨before, rfl⟩ := seen
    cases reply with
    | none => trivial
    | some current =>
      simp only [react]
      split
      · trivial
      · next other => exact ⟨other, before, rfl⟩
  | drop current | create => cases reply <;> trivial

/-- Wherever a program that began by looking whose the lock is has come to, it has seen what leads there. -/
theorem Leads.seen {point : Point}
    (leads : Leads key holder seconds (.reached (.before .look)) past (.reached point)) :
    point.Seen key holder seconds past := by
  generalize same : Site.reached point = site at leads
  induction leads generalizing point with
  | here =>
    cases same
    trivial
  | on leads goes ih =>
    cases goes with
    | replied stage reply reacts =>
      cases same
      subst reacts
      exact stage.seen_react reply (ih rfl)
    | refused => contradiction
    | woken =>
      cases same
      obtain ⟨before, rfl⟩ := ih rfl
      exact ⟨before, rfl⟩

/-- Whatever is replied, a program gets to its end along the stages. -/
theorem Point.leads_against (replies : Replies) (point : Point)
    (leads : Leads key holder seconds start past (.reached point)) :
    ∃ site, Leads key holder seconds start
        ((point.program key holder seconds).against replies past).1 site ∧
      site.outcome? = some ((point.program key holder seconds).against replies past).2 := by
  generalize far : point.rank = distance
  induction distance using Nat.strongRecOn generalizing point past with
  | _ distance ih =>
    subst far
    cases point with
    | before stage =>
      rw [program, Stage.program_eq, Queue.asking, Task.against]
      cases replies past (stage.request key holder seconds) with
      | ok reply =>
        have goes := Goes.replied stage reply rfl
        exact ih _ goes.rank_lt _ (leads.on goes) rfl
      | error cause => exact ⟨_, leads.on (.refused stage cause), rfl⟩
    | sleeping => exact ih 7 (by decide) (.before .probeAgain) (leads.on .woken) rfl
    | ended answer => exact ⟨_, leads, rfl⟩

end Paths

/-! ## The discipline of taking a lock -/

/-- Whether an event deletes a lock that is in an expected name. -/
def drops : Event → Bool
  | .asked (.compareAndDelete ..) _ => true
  | _ => false

/-- Whether an event creates a lock. -/
def creates : Event → Bool
  | .asked (.setIfAbsent ..) _ => true
  | _ => false

def waits : Event → Bool
  | .waited _ => true
  | .asked .. => false

/-- What happens to a program that takes a lock, the latest first, and how it ends. -/
structure Disciplined (key holder : String) (seconds : Nat) (events : List Event)
    (outcome : Except QueueError Bool) : Prop where
  /-- The lock is taken only with a time to live that was set and then a look that it is the holder's. -/
  taken : outcome = .ok true → ∃ earlier,
    events = .asked (.get key) (.ok (some holder)) :: .asked (.expire key seconds) (.ok true) :: earlier
  oneKey : ∀ request ∈ requests events, request.key? = some key
  neverDeletes : ∀ other, .delete other ∉ requests events
  dropsOnce : events.countP drops ≤ 1
  /-- Only another's lock is dropped, whose name was seen just before, after two looks for a time to live with
  the grace period between them. -/
  dropsOrphan : ∀ later other current reply earlier,
    events = later ++ .asked (.compareAndDelete other current) reply :: earlier →
    current ≠ holder ∧ ∃ before, earlier =
      .asked (.get key) (.ok (some current)) :: .asked (.timeToLive key) (.ok .persistent) ::
        .waited gracePeriod :: .asked (.timeToLive key) (.ok .persistent) :: before
  /-- A lock that is found to expire at the second look is left alone at once. -/
  yields : ∀ later left between reply earlier,
    events = later ++ .asked (.timeToLive key) (.ok (.expires left)) ::
      (between ++ .asked (.timeToLive key) reply :: earlier) → later = [] ∧ outcome = .ok false
  createsOnce : events.countP creates ≤ 1
  createsOwn : ∀ other value, .setIfAbsent other value ∈ requests events → value = holder
  brief : (requests events).length ≤ 12
  waitsOnce : events.countP waits ≤ 1
  /-- An error of the store is the end. -/
  failsAtOnce : ∀ later request cause earlier,
    events = later ++ .asked request (.error cause) :: earlier →
    later = [] ∧ outcome = .error (.store cause)

section Discipline

variable {key holder : String} {seconds : Nat} {site next : Site} {event : Event} {events : List Event}

theorem Goes.rank_of_drops (goes : Goes key holder seconds site event next) (drop : drops event = true) :
    site.rank = 4 := by
  cases event with
  | waited millis => contradiction
  | asked request reply =>
    obtain ⟨stage, rfl, rfl⟩ := goes.asked
    cases stage with
    | drop current => rfl
    | _ => contradiction

theorem Goes.rank_of_creates (goes : Goes key holder seconds site event next)
    (create : creates event = true) : site.rank = 3 := by
  cases event with
  | waited millis => contradiction
  | asked request reply =>
    obtain ⟨stage, rfl, rfl⟩ := goes.asked
    cases stage with
    | create => rfl
    | _ => contradiction

theorem Goes.rank_of_waits (goes : Goes key holder seconds site event next) (wait : waits event = true) :
    site.rank = 8 := by
  cases goes with
  | replied | refused => contradiction
  | woken => rfl

/-- A program that has looked for a time to live before looks for it again, and is over if it finds one. -/
theorem Goes.yields {there : Site} {reply : Except StoreError TimeToLive} {left : Nat}
    (first : Goes key holder seconds site (.asked (.timeToLive key) reply) next)
    {between : List Event} (leads : Leads key holder seconds next between there) {last : Site}
    (second : Goes key holder seconds there (.asked (.timeToLive key) (.ok (.expires left))) last) :
    last = .reached (.ended false) := by
  have probes {stage : Stage} (looks : Request.timeToLive key = stage.request key holder seconds) :
      stage = .probe ∨ stage = .probeAgain := by
    cases stage with
    | probe => exact .inl rfl
    | probeAgain => exact .inr rfl
    | _ => contradiction
  have closer := Nat.lt_of_le_of_lt leads.rank_le first.rank_lt
  obtain ⟨stage, rfl, looks⟩ := first.asked
  obtain ⟨again, rfl, looksAgain⟩ := second.asked
  -- of the two stages that look for a time to live, only one is closer to the end than another
  obtain rfl : again = .probeAgain := by
    rcases probes looksAgain with rfl | rfl
    · rcases probes looks with rfl | rfl <;> exact absurd closer (by decide)
    · rfl
  generalize same : Event.asked (.timeToLive key) (.ok (.expires left)) = event at second
  cases second with
  | replied _ reply leads =>
    cases same
    exact congrArg _ leads.symm
  | refused => cases same

/-- What leads a program that takes a lock to its end is disciplined. -/
theorem Leads.disciplined {outcome : Except QueueError Bool}
    (leads : Leads key holder seconds (.reached (.before .look)) events site)
    (ended : site.outcome? = some outcome) : Disciplined key holder seconds events outcome where
  taken := by
    rintro rfl
    cases site with
    | reached point =>
      cases point with
      | ended answer =>
        cases ended
        exact leads.seen
      | before | sleeping => contradiction
    | failed cause => cases ended
  oneKey request member := by
    obtain ⟨stage, rfl⟩ := leads.requested member
    cases stage <;> rfl
  neverDeletes other member := by
    obtain ⟨stage, same⟩ := leads.requested member
    cases stage <;> cases same
  dropsOnce := by
    have := leads.countP_le_one Goes.rank_of_drops
    omega
  dropsOrphan later other current reply earlier same := by
    subst same
    obtain ⟨here, there, before, goes, -⟩ := leads.split
    obtain ⟨stage, rfl, same⟩ := goes.asked
    cases stage <;> cases same
    exact before.seen
  yields later left between reply earlier same := by
    subst same
    obtain ⟨second, last, before, goesAgain, rest⟩ := leads.split
    obtain ⟨first, next, -, goes, middle⟩ := before.split
    have yielded := goes.yields middle goesAgain
    subst yielded
    obtain ⟨rfl, rfl⟩ := rest.ended rfl
    exact ⟨rfl, (Option.some.inj ended).symm⟩
  createsOnce := by
    have := leads.countP_le_one Goes.rank_of_creates
    omega
  createsOwn other value member := by
    obtain ⟨stage, same⟩ := leads.requested member
    cases stage <;> cases same
    rfl
  brief := by
    have short : events.length + site.rank ≤ 12 := leads.length_le
    have fewer : (requests events).length ≤ events.length := List.length_filterMap_le ..
    omega
  waitsOnce := by
    have := leads.countP_le_one Goes.rank_of_waits
    omega
  failsAtOnce later request cause earlier same := by
    subst same
    obtain ⟨here, there, -, goes, rest⟩ := leads.split
    generalize same : Event.asked request (.error cause) = event at goes
    cases goes with
    | replied => cases same
    | refused stage other =>
      cases same
      obtain ⟨rfl, rfl⟩ := rest.ended rfl
      exact ⟨rfl, (Option.some.inj ended).symm⟩
    | woken => contradiction

/-- A program that fails before it asks anything is disciplined. -/
theorem disciplined_nil (error : QueueError) : Disciplined key holder seconds [] (.error error) := by
  constructor <;> simp [requests]

end Discipline

/-- Taking a lock is disciplined, whatever the store replies to its requests. -/
theorem acquire_disciplined (space : Keyspace) (lock holder : String) (seconds : Nat) (replies : Replies) :
    Disciplined (space.lock lock) holder seconds
      ((acquire space lock holder seconds).against replies []).1
      ((acquire space lock holder seconds).against replies []).2 := by
  rcases @acquire_cases space lock holder seconds with ⟨error, failed⟩ | ⟨named, positive⟩
  · rw [failed]
    exact disciplined_nil error
  · rw [acquire_eq named positive]
    obtain ⟨site, leads, ended⟩ := Point.leads_against replies (.before .look) .here
    exact leads.disciplined ended

end JobQueue.Lock
