import Mathlib.Data.List.Dedup
import JobQueue.Proofs.Queue.Deque

/-! # Histories of a simple queue

A history lists operations with the answers that they were given. The deque replays a history if it answers
the same. Whatever it replays, the payloads that were accepted are the payloads that wait, those in flight
and those that were removed, each as often.
-/

namespace JobQueue.Queue

namespace ListOperation

/-- The payloads that an operation brings in. -/
def offers : ListOperation → List String
  | enqueue payload | enqueueFirst payload => [payload]
  | enqueueAll payloads => payloads
  | _ => []

/-- The payload that an operation takes away for good, given its answer. -/
def removes : ListOperation → Option String → List String
  | removeInflight _, payload? => payload?.toList
  | _, _ => []

/-- The worker whose jobs in flight an operation changes. -/
def worker? : ListOperation → Option String
  | dequeue worker _ | removeInflight worker | restoreInflight worker _ => some worker
  | _ => none

end ListOperation

/-- Operations in the order in which they ended, with their answers. -/
abbrev History (ι : Type) := List (Completion ι ListOperation (Option String))

variable {ι : Type}

/-- The payloads that were accepted. -/
def History.accepted (history : History ι) : List String := history.flatMap fun done => done.operation.offers

/-- The payloads that were removed once their jobs were done. -/
def History.removed (history : History ι) : List String :=
  history.flatMap fun done => done.operation.removes done.answer

/-- The workers of a history. -/
def History.workers (history : History ι) : List String :=
  (history.filterMap fun done => done.operation.worker?).dedup

/-- The deque behind a history, if it answers every operation as it was answered. -/
def replay : Jobs → History ι → Option Jobs
  | jobs, [] => some jobs
  | jobs, done :: rest =>
    if (done.operation.apply jobs).1 = done.answer then replay (done.operation.apply jobs).2 rest else none

theorem replay_append (jobs : Jobs) (first second : History ι) :
    replay jobs (first ++ second) = (replay jobs first).bind (replay · second) := by
  induction first generalizing jobs with
  | nil => rfl
  | cons done first ih =>
    rw [List.cons_append, replay, replay]
    split
    · exact ih _
    · rfl

/-- What is done with one operation goes on from what it left. -/
theorem replay_cons {jobs last : Jobs} {done : Completion ι ListOperation (Option String)} {rest : History ι}
    (replayed : replay jobs (done :: rest) = some last) :
    (done.operation.apply jobs).1 = done.answer ∧ replay (done.operation.apply jobs).2 rest = some last := by
  rw [replay] at replayed
  split at replayed
  · next same => exact ⟨same, replayed⟩
  · contradiction

/-- All payloads of a deque, with those that some workers have in flight. -/
def Jobs.all (jobs : Jobs) (workers : List String) : List String :=
  jobs.items ++ workers.flatMap jobs.inflight

section Conservation

variable {workers : List String} {jobs last : Jobs}

/-- The jobs in flight of all workers are those of one worker, and others that its changes do not touch. -/
theorem flatMap_inflight (distinct : workers.Nodup) {worker : String} (member : worker ∈ workers)
    (jobs : Jobs) :
    ∃ others : List String, (workers.flatMap jobs.inflight).Perm (jobs.inflight worker ++ others) ∧
      ∀ stack, (workers.flatMap (jobs.setInflight worker stack).inflight).Perm (stack ++ others) := by
  have parted := List.perm_cons_erase member
  refine ⟨(workers.erase worker).flatMap jobs.inflight, parted.flatMap_right _, ?_⟩
  intro stack
  have apart : (workers.erase worker).flatMap (jobs.setInflight worker stack).inflight =
      (workers.erase worker).flatMap jobs.inflight := by
    apply List.flatMap_congr
    intro other found
    apply if_neg
    rintro rfl
    exact distinct.not_mem_erase found
  have own : (jobs.setInflight worker stack).inflight worker = stack := if_pos rfl
  have changed := parted.flatMap_right (jobs.setInflight worker stack).inflight
  rwa [List.flatMap_cons, apart, own] at changed

/-- An operation loses no payload and makes none up. -/
theorem conserved_apply (distinct : workers.Nodup) (operation : ListOperation)
    (covered : ∀ worker, operation.worker? = some worker → worker ∈ workers) (jobs : Jobs) :
    (jobs.all workers ++ operation.offers).Perm
      ((operation.apply jobs).2.all workers ++ operation.removes (operation.apply jobs).1) := by
  apply List.perm_iff_count.mpr
  intro payload
  cases operation with
  | enqueue added | enqueueFirst added | enqueueAll added =>
    simp only [ListOperation.apply, ListOperation.offers, ListOperation.removes, Jobs.all, List.count_append,
      List.count_cons, List.count_nil]
    omega
  | dequeue worker now =>
    obtain ⟨others, flight, changed⟩ := flatMap_inflight distinct (covered worker rfl) jobs
    have before := flight.count_eq payload
    cases items : jobs.items with
    | nil => simp [ListOperation.apply, ListOperation.offers, ListOperation.removes, items]
    | cons head rest =>
      have after := (changed (head :: jobs.inflight worker)).count_eq payload
      simp only [ListOperation.apply, ListOperation.offers, ListOperation.removes, Jobs.all, items,
        List.count_append, List.count_cons, List.count_nil] at before after ⊢
      omega
  | removeInflight worker =>
    obtain ⟨others, flight, changed⟩ := flatMap_inflight distinct (covered worker rfl) jobs
    have before := flight.count_eq payload
    cases stack : jobs.inflight worker with
    | nil => simp [ListOperation.apply, ListOperation.offers, ListOperation.removes, stack]
    | cons head rest =>
      have after := (changed rest).count_eq payload
      simp only [ListOperation.apply, ListOperation.offers, ListOperation.removes, Jobs.all, stack,
        Jobs.setInflight_items, Option.toList_some, List.count_append, List.count_cons,
        List.count_nil] at before after ⊢
      omega
  | restoreInflight worker now =>
    obtain ⟨others, flight, changed⟩ := flatMap_inflight distinct (covered worker rfl) jobs
    have before := flight.count_eq payload
    cases stack : jobs.inflight worker with
    | nil => simp [ListOperation.apply, ListOperation.offers, ListOperation.removes, stack]
    | cons head rest =>
      have after := (changed rest).count_eq payload
      simp only [ListOperation.apply, ListOperation.offers, ListOperation.removes, Jobs.all, stack,
        List.count_append, List.count_cons, List.count_nil] at before after ⊢
      omega

/-- An operation changes only what its own worker has in flight. -/
theorem inflight_apply (operation : ListOperation) {worker : String} (other : operation.worker? ≠ some worker)
    (jobs : Jobs) : (operation.apply jobs).2.inflight worker = jobs.inflight worker := by
  cases operation with
  | enqueue added | enqueueFirst added | enqueueAll added => rfl
  | dequeue owner now | removeInflight owner | restoreInflight owner now =>
    have differ : worker ≠ owner := fun same => other (congrArg some same.symm)
    simp only [ListOperation.apply]
    split
    · rfl
    · exact if_neg differ

/-- Nothing is lost, doubled or delivered twice while a history is replayed. -/
theorem conserved_replay (distinct : workers.Nodup) {history : History ι}
    (covered : ∀ done ∈ history, ∀ worker, done.operation.worker? = some worker → worker ∈ workers)
    (replayed : replay jobs history = some last) :
    (jobs.all workers ++ history.accepted).Perm (last.all workers ++ history.removed) := by
  induction history generalizing jobs with
  | nil =>
    cases replayed
    exact .refl _
  | cons done rest ih =>
    obtain ⟨same, replayed⟩ := replay_cons replayed
    have one := conserved_apply distinct done.operation (covered done (List.mem_cons_self ..)) jobs
    have others := ih (fun other found => covered other (List.mem_cons_of_mem _ found)) replayed
    apply List.perm_iff_count.mpr
    intro payload
    have first := one.count_eq payload
    have second := others.count_eq payload
    simp only [History.accepted, History.removed, List.flatMap_cons, List.count_append,
      same] at first second ⊢
    omega

/-- Only workers of a history come to have jobs in flight. -/
theorem inflight_replay {history : History ι} {worker : String}
    (other : ∀ done ∈ history, done.operation.worker? ≠ some worker)
    (replayed : replay jobs history = some last) :
    last.inflight worker = jobs.inflight worker := by
  induction history generalizing jobs with
  | nil =>
    cases replayed
    rfl
  | cons done rest ih =>
    obtain ⟨-, replayed⟩ := replay_cons replayed
    rw [ih (fun later found => other later (List.mem_cons_of_mem _ found)) replayed]
    exact inflight_apply _ (other done (List.mem_cons_self ..)) jobs

end Conservation

/-- The payloads that a history accepted are those that wait, those that some worker has in flight, and those
that were removed, each as often. -/
def History.Conserved (history : History ι) (jobs : Jobs) : Prop :=
  (∀ worker ∉ history.workers, jobs.inflight worker = []) ∧
    history.accepted.Perm (jobs.items ++ history.workers.flatMap jobs.inflight ++ history.removed)

/-- What is replayed from the start is conserved. -/
theorem conserved_of_replay {history : History ι} {jobs : Jobs} (replayed : replay {} history = some jobs) :
    history.Conserved jobs := by
  have member {worker : String} : worker ∈ history.workers ↔
      ∃ done ∈ history, done.operation.worker? = some worker := by
    rw [History.workers, List.mem_dedup, List.mem_filterMap]
  constructor
  · intro worker absent
    exact inflight_replay (fun done found same => absent (member.mpr ⟨done, found, same⟩)) replayed
  · have distinct : history.workers.Nodup := List.nodup_dedup _
    have kept := conserved_replay distinct (fun done found _ same => member.mpr ⟨done, found, same⟩) replayed
    have empty : Jobs.all {} history.workers = [] := by
      simp [Jobs.all]
    rwa [empty, List.nil_append] at kept

end JobQueue.Queue
