import JobQueue.Client
import JobQueue.Proofs.Queue.Operation
import JobQueue.Proofs.Task.Arrivals

/-! # What a client looks at before it asks

Seven operations of a client concern queues. Each looks at its arguments first, and last at whether the
client has been ended; the first thing that is not as it should be decides how the operation ends, and then
the store is not asked for anything. A client that checks its connection begins with a sign of life.
-/

namespace JobQueue.Client

/-- A call of an operation on a queue. The times at which it is made are part of it. -/
inductive Call where
  | enqueue (job? : Option Job)
  | enqueueFirst (job? : Option Job)
  | enqueueAll (jobs : List Job)
  | enqueueDelayed (now : Instant) (job? : Option Job) (readyAt : Instant)
  | removeDelayed (job? : Option Job)
  /-- The distance is a number of seconds and a number of nanoseconds. -/
  | enqueueRecurring (now : Instant) (job? : Option Job) (firstFire : Instant) (seconds nanos : Nat)
  | removeRecurring (job? : Option Job)

def Call.program (client : Client) (queue : String) : Call → Task ClientError Unit
  | enqueue job? => client.enqueue queue job?
  | enqueueFirst job? => client.enqueueFirst queue job?
  | enqueueAll jobs => client.enqueueAll queue jobs
  | enqueueDelayed now job? readyAt => client.enqueueDelayed now queue job? readyAt
  | removeDelayed job? => client.removeDelayed queue job?
  | enqueueRecurring now job? firstFire seconds nanos =>
    client.enqueueRecurring now queue job? firstFire (frequencyMillis seconds nanos)
  | removeRecurring job? => client.removeRecurring queue job?

/-- Something that a call is looked at for, and what the call ends with if it is not so. -/
structure Check where
  holds : Bool
  otherwise : Except ClientError Unit

namespace Check

def named (queue : String) : Check := ⟨queue != "", .error (.argument .emptyQueue)⟩

def valid (job : Job) : Check := ⟨job.className != "", .error (.invalidJob job)⟩

/-- There is a job, and it names a class. -/
def given (job? : Option Job) : List Check :=
  ⟨job?.isSome, .error (.argument .noJob)⟩ :: job?.toList.map valid

/-- There are jobs, and each names a class. That there are none is no error. -/
def listed (jobs : List Job) : List Check := ⟨!jobs.isEmpty, .ok ()⟩ :: jobs.map valid

/-- A time is in the future. -/
def ahead (now time : Instant) (complaint : ClientArgument) : Check :=
  ⟨now.before time, .error (.argument complaint)⟩

/-- A distance is a millisecond, a million nanoseconds, at least. -/
def distant (seconds nanos : Nat) : Check :=
  ⟨1000000 ≤ seconds * 1000000000 + nanos, .error (.argument .zeroFrequency)⟩

def notEnded (closed : Bool) : Check := ⟨!closed, .error .closed⟩

end Check

namespace Call

/-- What a call is looked at for between the name of its queue and the end of the client. -/
def arguments : Call → List Check
  | enqueue job? | enqueueFirst job? | removeDelayed job? | removeRecurring job? => Check.given job?
  | enqueueAll jobs => Check.listed jobs
  | enqueueDelayed now job? readyAt => Check.given job? ++ [.ahead now readyAt (.pastReadyTime readyAt)]
  | enqueueRecurring now job? firstFire seconds nanos =>
    Check.given job? ++ [.ahead now firstFire (.pastFirstFire firstFire), .distant seconds nanos]

/-- All that a call is looked at for, in order. -/
def checks (call : Call) (queue : String) (closed : Bool) : List Check :=
  .named queue :: call.arguments ++ [.notEnded closed]

end Call

/-! ## Programs behind checks -/

/-- A program that asks for something, and for a sign of life before all else if the connection is checked.
Without one it fails. -/
inductive Opens : Bool → Task ClientError Unit → Prop
  | asks {request : Request} (next : Except StoreError request.Reply → Task ClientError Unit) :
    Opens false (.call request next)
  | pings {next : Except StoreError Unit → Task ClientError Unit}
    (fails : ∀ cause, next (.error cause) = .fail (.queue (.store cause))) : Opens true (.call .ping next)

/-- A program that opens if all of some checks hold, and otherwise ends as the first says that does not. -/
inductive Guarded (checkConnection : Bool) : List Check → Task ClientError Unit → Prop
  | opens {task : Task ClientError Unit} (opens : Opens checkConnection task) : Guarded checkConnection [] task
  | check {check : Check} {checks : List Check} {task : Task ClientError Unit}
    (leads : check.holds = true → Guarded checkConnection checks task)
    (refuses : check.holds = false → task = .ofExcept check.otherwise) :
    Guarded checkConnection (check :: checks) task

namespace Guarded

variable {checkConnection : Bool} {checks : List Check} {task : Task ClientError Unit}

/-- The store is asked for something exactly if all checks hold. -/
theorem asks_iff (guarded : Guarded checkConnection checks task) (others : Interference) (seen : Observed) :
    task.arrivals others seen ≠ [] ↔ ∀ check ∈ checks, check.holds = true := by
  induction guarded with
  | opens opens => cases opens <;> simp [Task.arrivals]
  | @check check checks task leads refuses ih =>
    cases holds : check.holds with
    | true =>
      rw [ih holds, List.forall_mem_cons]
      exact ⟨fun others => ⟨holds, others⟩, And.right⟩
    | false =>
      have silent : task.arrivals others seen = [] := by
        rw [refuses holds]
        cases check.otherwise <;> rfl
      simp [silent, holds]

/-- The first check that does not hold decides how the program ends, and nothing happens to the store. -/
theorem refused (guarded : Guarded checkConnection checks task) (others : Interference) (seen : Observed)
    {passed behind : List Check} {failing : Check} (order : checks = passed ++ failing :: behind)
    (pass : ∀ check ∈ passed, check.holds = true) (fails : failing.holds = false) :
    task.runAmong others seen = (failing.otherwise, seen) := by
  induction guarded generalizing passed with
  | opens opens => cases passed <;> contradiction
  | @check check checks task leads refuses ih =>
    cases passed with
    | nil =>
      -- the first check of all is the one that fails, so nothing has been asked yet
      obtain ⟨rfl, rfl⟩ := List.cons.inj order
      rw [refuses fails]
      cases check.otherwise <;> rfl
    | cons first passed =>
      obtain ⟨rfl, rest⟩ := List.cons.inj order
      obtain ⟨holds, pass⟩ := List.forall_mem_cons.mp pass
      exact ih holds rest pass

/-- Where the connection is checked, the first request is for a sign of life, and it is the last if it
fails. -/
theorem pings (guarded : Guarded true checks task) (others : Interference) (seen : Observed)
    {first : Arrival} {behind : List Arrival} (arrivals : task.arrivals others seen = first :: behind) :
    first.request = .ping ∧ ∀ cause, first.answer = .error cause →
      behind = [] ∧ (task.runAmong others seen).1 = .error (.queue (.store cause)) := by
  generalize checked : true = checkConnection at guarded
  induction guarded with
  | opens opens =>
    cases opens with
    | asks next => contradiction
    | pings fails =>
      obtain ⟨rfl, rfl⟩ := List.cons.inj arrivals
      refine ⟨rfl, fun cause failed => ?_⟩
      rw [Task.runAmong_call, failed, fails]
      exact ⟨rfl, rfl⟩
  | @check check checks task leads refuses ih =>
    cases holds : check.holds with
    | true => exact ih holds arrivals
    | false =>
      rw [refuses holds] at arrivals
      cases outcome : check.otherwise <;> rw [outcome] at arrivals <;> contradiction

/-! ### Each check -/

theorem passes {check : Check} (holds : check.holds = true) (leads : Guarded checkConnection checks task) :
    Guarded checkConnection (check :: checks) task :=
  .check (fun _ => leads) fun fails => Bool.noConfusion (holds.symm.trans fails)

theorem fails {check : Check} (fails : check.holds = false) :
    Guarded checkConnection (check :: checks) (.ofExcept check.otherwise) :=
  .check (fun holds => Bool.noConfusion (holds.symm.trans fails)) fun _ => rfl

theorem demand {holds : Bool} {cause : ClientArgument} {rest : Unit → Task ClientError Unit}
    (leads : holds = true → Guarded checkConnection checks (rest ())) :
    Guarded checkConnection (⟨holds, .error (.argument cause)⟩ :: checks)
      (Task.ofExcept (Client.demand holds cause) >>= rest) := by
  cases holds with
  | true => exact passes rfl (leads rfl)
  | false => exact fails rfl

theorem encode {job : Job} {rest : String → Task ClientError Unit}
    (leads : ∀ payload, Guarded checkConnection checks (rest payload)) :
    Guarded checkConnection (.valid job :: checks) (Task.ofExcept (Client.encode job) >>= rest) := by
  unfold Client.encode
  split
  · next valid => exact passes valid (leads _)
  · next invalid => exact fails (Bool.eq_false_iff.mpr invalid)

/-- A payload is there if the queue has a name and the job is there and names a class. -/
theorem payload {queue : String} {job? : Option Job} {rest : String → Task ClientError Unit}
    (leads : queue ≠ "" → ∀ payload, Guarded checkConnection checks (rest payload)) :
    Guarded checkConnection (.named queue :: Check.given job? ++ checks)
      (Task.ofExcept (Client.payload queue job?) >>= rest) := by
  -- the three checks behind one payload, one after the other
  have known : Task.ofExcept (Client.payload queue job?) >>= rest =
      (Task.ofExcept (Client.demand (queue != "") .emptyQueue) >>= fun _ =>
        Task.ofExcept (job?.elim (.error (.argument .noJob)) Client.encode) >>= rest) := by
    unfold Client.payload Client.demand
    cases queue != "" <;> cases job? <;> rfl
  rw [known]
  refine .demand fun named => ?_
  cases job? with
  | none => exact fails rfl
  | some job => exact passes rfl (.encode (leads (bne_iff_ne.mp named)))

/-- The payloads are as many as the jobs, each of which is looked at. -/
theorem encodeAll {jobs : List Job} {rest : List String → Task ClientError Unit}
    (leads : ∀ payloads : List String, payloads.length = jobs.length →
      Guarded checkConnection checks (rest payloads)) :
    Guarded checkConnection (jobs.map .valid ++ checks)
      (Task.ofExcept (Client.encodeAll jobs) >>= rest) := by
  induction jobs generalizing rest with
  | nil => exact leads [] rfl
  | cons job jobs ih =>
    have known : Task.ofExcept (Client.encodeAll (job :: jobs)) >>= rest =
        (Task.ofExcept (Client.encode job) >>= fun payload =>
          Task.ofExcept (Client.encodeAll jobs) >>= fun payloads => rest (payload :: payloads)) := by
      rw [Client.encodeAll]
      cases Client.encode job with
      | error error => rfl
      | ok payload => cases Client.encodeAll jobs <;> rfl
    rw [known]
    exact .encode fun payload => ih fun payloads long => leads _ (congrArg (· + 1) long)

/-- Last it counts whether the client has been ended. Then a queue with a name is asked for something. -/
theorem ready (client : Client) {queue : String} (named : queue ≠ "") {rest : Unit → Task QueueError Unit}
    (asks : ∃ request next, rest () = .call request next) :
    Guarded client.checkConnection [.notEnded client.closed]
      (client.ready (Queue.demandName queue >>= rest)) := by
  obtain ⟨request, next, same⟩ := asks
  have operation : Queue.demandName queue >>= rest = .call request next := by
    rw [Queue.ListOperation.demandName_eq named]
    exact same
  rw [operation]
  unfold Client.ready
  cases client.closed with
  | true => exact fails rfl
  | false =>
    refine passes rfl (.opens ?_)
    cases client.checkConnection with
    | true => exact .pings fun cause => rfl
    | false => exact .asks _

end Guarded

/-! ## The seven operations -/

theorem frequencyMillis_ne_zero (seconds nanos : Nat) :
    (frequencyMillis seconds nanos != 0) = decide (1000000 ≤ seconds * 1000000000 + nanos) := by
  have size : UInt64.size = 18446744073709551616 := rfl
  rw [Bool.eq_iff_iff, bne_iff_ne, decide_eq_true_iff, frequencyMillis]
  omega

/-- Each operation looks at everything that it should, in the order in which it should. -/
theorem Call.guarded (client : Client) (queue : String) (call : Call) :
    Guarded client.checkConnection (call.checks queue client.closed) (call.program client queue) := by
  cases call with
  | enqueue job? => exact .payload fun named payload => .ready client named ⟨_, _, rfl⟩
  | enqueueFirst job? => exact .payload fun named payload => .ready client named ⟨_, _, rfl⟩
  | enqueueAll jobs =>
    refine .demand fun named => ?_
    cases jobs with
    | nil =>
      -- an empty batch ends here, without an error and whether or not the client has been ended
      exact .fails rfl
    | cons job jobs =>
      refine .passes rfl (.encodeAll fun payloads long => ?_)
      obtain ⟨payload, payloads, rfl⟩ := List.exists_cons_of_length_eq_add_one long
      exact .ready client (bne_iff_ne.mp named) ⟨_, _, rfl⟩
  | enqueueDelayed now job? readyAt =>
    rw [checks, arguments, ← List.cons_append, List.append_assoc]
    exact .payload fun named payload => .demand fun _ => .ready client named ⟨_, _, rfl⟩
  | removeDelayed job? => exact .payload fun named payload => .ready client named ⟨_, _, rfl⟩
  | enqueueRecurring now job? firstFire seconds nanos =>
    rw [checks, arguments, ← List.cons_append, List.append_assoc, Check.distant, ← frequencyMillis_ne_zero]
    refine .payload fun named payload => .demand fun _ => .demand fun distant => .ready client named ?_
    -- the queue looks at the distance again
    rw [Queue.demand, if_pos distant]
    exact ⟨_, _, rfl⟩
  | removeRecurring job? => exact .payload fun named payload => .ready client named ⟨_, _, rfl⟩

/-! ## Clients in use -/

/-- What is done with a client. -/
inductive Use where
  | call (queue : String) (call : Call)
  | close

/-- A client, and its store as others and the client have left it. -/
structure Session where
  client : Client
  seen : Observed

namespace Session

variable (others : Interference)

def after (session : Session) : Use → Session
  | .call queue call =>
    { session with seen := ((call.program session.client queue).runAmong others session.seen).2 }
  | .close => { session with client := session.client.close }

/-- A client that is new, and then is used. -/
def used (space : Keyspace) (checkConnection : Bool) (memory : Memory) (uses : List Use) : Session :=
  uses.foldl (after others) ⟨{ space, checkConnection }, { memory }⟩

/-- How a call on a queue goes. -/
structure Gates (session : Session) (queue : String) (call : Call) : Prop where
  /-- The store is asked for something exactly if everything is as it should be. -/
  asks_iff : (call.program session.client queue).arrivals others session.seen ≠ [] ↔
    ∀ check ∈ call.checks queue session.client.closed, check.holds = true
  /-- The first thing that is not as it should be decides the result, and the store is left alone. -/
  refused (passed behind : List Check) (failing : Check)
    (order : call.checks queue session.client.closed = passed ++ failing :: behind)
    (pass : ∀ check ∈ passed, check.holds = true) (fails : failing.holds = false) :
    (call.program session.client queue).runAmong others session.seen = (failing.otherwise, session.seen)
  /-- A sign of life comes first where it is wanted, and without one nothing comes behind. -/
  pings (checked : session.client.checkConnection = true) (first : Arrival) (behind : List Arrival)
    (arrivals : (call.program session.client queue).arrivals others session.seen = first :: behind) :
    first.request = .ping ∧ ∀ cause, first.answer = .error cause → behind = [] ∧
      ((call.program session.client queue).runAmong others session.seen).1 = .error (.queue (.store cause))

theorem gates (session : Session) (queue : String) (call : Call) : session.Gates others queue call := by
  have guarded := call.guarded session.client queue
  refine ⟨guarded.asks_iff others session.seen, ?_, ?_⟩
  · intro passed behind failing order pass fails
    exact guarded.refused others session.seen order pass fails
  · intro checked first behind arrivals
    rw [checked] at guarded
    exact guarded.pings others session.seen arrivals

/-- A client stays as it is, apart from being closed once it has been closed. -/
theorem client_foldl (session : Session) (uses : List Use) :
    ∃ closed, (uses.foldl (after others) session).client = { session.client with closed } ∧
      (closed = true ↔ session.client.closed = true ∨ Use.close ∈ uses) := by
  induction uses generalizing session with
  | nil => exact ⟨session.client.closed, rfl, by simp⟩
  | cons use uses ih =>
    obtain ⟨closed, same, closed_iff⟩ := ih (session.after others use)
    cases use with
    | call queue call => exact ⟨closed, same, closed_iff.trans (by simp [after])⟩
    | close => exact ⟨closed, same, closed_iff.trans (by simp [after, Client.close])⟩

/-- However a client has been used, among others that do anything to its store: it is closed exactly if it
has been closed before, and every call of an operation on a queue is looked at before the store is asked. -/
theorem gates_used (space : Keyspace) (checkConnection : Bool) (memory : Memory) (uses : List Use) :
    let session := used others space checkConnection memory uses
    ∃ closed, session.client = { space, checkConnection, closed } ∧ (closed = true ↔ Use.close ∈ uses) ∧
      ∀ queue call, session.Gates others queue call := by
  obtain ⟨closed, client, closed_iff⟩ := client_foldl others ⟨{ space, checkConnection }, { memory }⟩ uses
  refine ⟨closed, client, ?_, gates others _⟩
  rw [closed_iff]
  exact or_iff_right Bool.false_ne_true

end Session

end JobQueue.Client
