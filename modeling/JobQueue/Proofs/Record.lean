import JobQueue.Proofs.DateFormat
import JobQueue.Proofs.Json.Schema
import JobQueue.Proofs.Json.Value
import JobQueue.Record

/-! # Jobs, failures and statuses written and read

Each record is the text of a document, a value that tells how deep the text nests. The reader of a record
settles the text: it reads the record, with the dates that their texts denote, or finds the text too deep.
-/

namespace JobQueue

/-- An instant whose canonical text is one of four digits for the year. -/
structure Instant.Canonical (instant : Instant) : Prop where
  inUse : instant.InUse
  from0 : 0 ≤ instant.year
  to9999 : instant.year ≤ 9999

/-- The doubles of a job read back, and its objects have no name twice. -/
structure Job.Faithful (job : Job) : Prop where
  args : Value.FaithfulItems job.args
  vars : ∀ vars, job.vars = some vars → (Value.object vars).Faithful

structure JobFailure.Faithful (failure : JobFailure) : Prop where
  payload : failure.payload.Faithful
  failedAt : failure.failedAt.Canonical
  retriedAt : ∀ instant, failure.retriedAt = some instant → instant.Canonical

structure WorkerStatus.Faithful (status : WorkerStatus) : Prop where
  runAt : status.runAt.Canonical
  payload : status.payload.Faithful

/-- The failure with the dates that their canonical texts denote. -/
def JobFailure.readBack (failure : JobFailure) : JobFailure :=
  { failure with
    failedAt := failure.failedAt.readBack
    retriedAt := failure.retriedAt.map Instant.readBack }

/-- The status with the date that its canonical text denotes. -/
def WorkerStatus.readBack (status : WorkerStatus) : WorkerStatus :=
  { status with runAt := status.runAt.readBack }

namespace Record

open Json

/-! ## Documents -/

/-- A date is a string. -/
def dateDocument (instant : Instant) : Value := .string (DateFormat.canonical instant)

def jobDocument (job : Job) : Value :=
  .object ([(JobField.className.name, .string job.className), (JobField.args.name, .array job.args)] ++
    (job.vars.map fun vars => (JobField.vars.name, .object vars)).toList)

def failureDocument (failure : JobFailure) : Value :=
  .object (
    [(FailureField.worker.name, .string failure.worker)] ++
    (failure.queue.map fun queue => (FailureField.queue.name, .string queue)).toList ++
    [(FailureField.payload.name, jobDocument failure.payload),
      (FailureField.exception.name, .string failure.exception),
      (FailureField.error.name, .string failure.error),
      (FailureField.backtrace.name, .array (failure.backtrace.map .string)),
      (FailureField.failedAt.name, dateDocument failure.failedAt)] ++
    (failure.retriedAt.map fun instant => (FailureField.retriedAt.name, dateDocument instant)).toList)

def statusDocument (status : WorkerStatus) : Value :=
  .object [(StatusField.runAt.name, dateDocument status.runAt),
    (StatusField.queue.name, .string status.queue),
    (StatusField.payload.name, jobDocument status.payload),
    (StatusField.paused.name, .bool status.paused)]

theorem writeItems_strings (texts : List String) :
    writeItems (texts.map .string) = texts.map writeString := by
  induction texts with
  | nil => rfl
  | cons text texts ih => rw [List.map_cons, writeItems, ih]; rfl

/-- A job is written as its document. -/
theorem writeValue_jobDocument (job : Job) : writeValue (jobDocument job) = writeJob job := by
  obtain ⟨className, args, vars⟩ := job
  cases vars <;> rfl

theorem writeValue_failureDocument (failure : JobFailure) :
    writeValue (failureDocument failure) = writeFailure failure := by
  obtain ⟨worker, queue, payload, exception, error, backtrace, failedAt, retriedAt⟩ := failure
  cases queue <;> cases retriedAt <;>
    simp [failureDocument, writeFailure, writeValue, writeMembers, writeItems_strings, dateDocument,
      writeDate, writeValue_jobDocument]

theorem writeValue_statusDocument (status : WorkerStatus) :
    writeValue (statusDocument status) = writeStatus status := by
  simp [statusDocument, writeStatus, writeValue, writeMembers, dateDocument, writeDate,
    writeValue_jobDocument]

/-! ## Fields -/

/-- A text in a field that may be missing. -/
theorem optional_string_settles (expected text : String) :
    Settles (optional (string expected)) (writeString text) False (some text) :=
  (string_settles expected text).optional (by simp [writeString])

/-- A canonical date is read as what it denotes. -/
theorem date_settles {formats : List DateFormat} (accepted : .iso ∈ formats) {instant : Instant}
    (canonical : instant.Canonical) : Settles (date formats) (writeDate instant) False instant.readBack := by
  have read := DateFormat.readFirst_readBack accepted canonical.inUse canonical.from0 canonical.to9999
  refine (string_settles "a date string" (DateFormat.canonical instant)).judge ?_
  rw [read]

/-- A reader that never finds its text too deep. -/
theorem flat {α : Type} {reader : Reader α} {text : List Char} {a : α} (settled : Settles reader text False a)
    (depth : Nat) : Settles reader text (depth < 0) a :=
  settled.congr (iff_of_false id (Nat.not_lt_zero depth))

/-! ## Jobs -/

theorem jobSchema_wellNamed : jobSchema.WellNamed where
  named field := by cases field <;> rfl
  nodup := by decide

/-- The fields of a job that are written. -/
def jobPieces (j : Job) (faithful : j.Faithful) : List jobSchema.Piece :=
  [{ field := .className, content := j.className, text := writeString j.className, nesting := 0
     settles := flat (string_settles _ _) },
    { field := .args, content := j.args, text := writeArray (writeItems j.args)
      nesting := Value.nestingItems j.args + 1, settles := values_settle faithful.args }] ++
  (j.vars.pmap (fun vars (faithful : (Value.object vars).Faithful) =>
    { field := .vars, content := some vars, text := writeObject (writeMembers vars)
      nesting := Value.nestingMembers vars + 1
      settles := fun depth => (dict_settles faithful depth).optional (by simp [writeObject]) })
    faithful.vars).toList

theorem job_settles {j : Job} (faithful : j.Faithful) (depth : Nat) :
    Settles (job depth) (writeJob j) (depth < (jobDocument j).nesting) j := by
  have ordered : ((jobPieces j faithful).map Schema.Piece.field).Sublist jobSchema.fields := by
    obtain ⟨className, args, vars⟩ := j
    cases vars <;> exact List.isSublist_iff_sublist.mp rfl
  have built : buildJob ((jobPieces j faithful).map Schema.Piece.entry) = .ok j := by
    obtain ⟨className, args, vars⟩ := j
    cases vars <;> rfl
  have settled : Settles (job depth) _ _ j :=
    jobSchema_wellNamed.record_settles (jobPieces j faithful) ordered built depth
  obtain ⟨className, args, vars⟩ := j
  cases vars <;> exact settled

/-! ## Failures -/

theorem failureSchema_wellNamed (formats : List DateFormat) : (failureSchema formats).WellNamed where
  named field := by cases field <;> rfl
  nodup := (by decide : [FailureField.worker, .queue, .payload, .exception, .error, .backtrace, .failedAt,
    .retriedAt].Nodup)

theorem backtrace_settles (lines : List String) (depth : Nat) :
    Settles (list "a sequence" (fun _ => string "a string") depth) (writeArray (lines.map writeString))
      (depth < 0 + 1) lines := by
  apply list_settles
  intro depth
  have all (first : Bool) : Steps (elementStep (string "a string")) id ']' first (lines.map writeString)
      (depth < 0) lines := by
    induction lines generalizing first with
    | nil => exact .done (elementStep_closes first) (Nat.not_lt_zero depth)
    | cons line lines ih =>
      exact .next ((flat (string_settles "a string" line) depth).takesItem first) (ih false) or_self_iff.symm
  exact all true

/-- The fields of a failure that are written. -/
def failurePieces {formats : List DateFormat} (accepted : .iso ∈ formats) (failure : JobFailure)
    (faithful : failure.Faithful) : List (failureSchema formats).Piece :=
  [{ field := .worker, content := failure.worker, text := writeString failure.worker, nesting := 0
     settles := flat (string_settles _ _) }] ++
  (failure.queue.map fun queue =>
    { field := .queue, content := some queue, text := writeString queue, nesting := 0
      settles := flat (optional_string_settles _ _) }).toList ++
  [{ field := .payload, content := failure.payload, text := writeJob failure.payload
     nesting := (jobDocument failure.payload).nesting, settles := job_settles faithful.payload },
    { field := .exception, content := some failure.exception, text := writeString failure.exception
      nesting := 0, settles := flat (optional_string_settles _ _) },
    { field := .error, content := some failure.error, text := writeString failure.error
      nesting := 0, settles := flat (optional_string_settles _ _) },
    { field := .backtrace, content := some failure.backtrace
      text := writeArray (failure.backtrace.map writeString), nesting := 0 + 1
      settles := fun depth => (backtrace_settles failure.backtrace depth).optional (by simp [writeArray]) },
    { field := .failedAt, content := failure.failedAt.readBack, text := writeDate failure.failedAt
      nesting := 0, settles := flat (date_settles accepted faithful.failedAt) }] ++
  (failure.retriedAt.pmap (fun (instant : Instant) (canonical : instant.Canonical) =>
    { field := .retriedAt, content := some instant.readBack, text := writeDate instant, nesting := 0
      settles := flat ((date_settles accepted canonical).optional (by simp [writeDate, writeString])) })
    faithful.retriedAt).toList

theorem nestingItems_strings (texts : List String) : Value.nestingItems (texts.map .string) = 0 := by
  induction texts with
  | nil => rfl
  | cons text texts ih =>
    rw [List.map_cons, Value.nestingItems, ih]
    rfl

theorem failure_settles {formats : List DateFormat} (accepted : .iso ∈ formats) {f : JobFailure}
    (faithful : f.Faithful) (depth : Nat) :
    Settles (failure formats depth) (writeFailure f) (depth < (failureDocument f).nesting) f.readBack := by
  have ordered : ((failurePieces accepted f faithful).map Schema.Piece.field).Sublist
      (failureSchema formats).fields := by
    obtain ⟨worker, queue, payload, exception, error, backtrace, failedAt, retriedAt⟩ := f
    cases queue <;> cases retriedAt <;> exact List.isSublist_iff_sublist.mp rfl
  have built : buildFailure formats ((failurePieces accepted f faithful).map Schema.Piece.entry) =
      .ok f.readBack := by
    obtain ⟨worker, queue, payload, exception, error, backtrace, failedAt, retriedAt⟩ := f
    cases queue <;> cases retriedAt <;> rfl
  have text : writeObject ((failurePieces accepted f faithful).map Schema.Piece.member) = writeFailure f := by
    obtain ⟨worker, queue, payload, exception, error, backtrace, failedAt, retriedAt⟩ := f
    cases queue <;> cases retriedAt <;> rfl
  have nesting : Schema.Piece.nestingAll (failurePieces accepted f faithful) + 1 =
      (failureDocument f).nesting := by
    have lines := nestingItems_strings f.backtrace
    obtain ⟨worker, queue, payload, exception, error, backtrace, failedAt, retriedAt⟩ := f
    cases queue <;> cases retriedAt <;>
      simp only [failureDocument, Option.map_none, Option.map_some, Option.toList_none, Option.toList_some,
        List.cons_append, List.nil_append, List.append_nil, Value.nesting, Value.nestingMembers,
        lines] <;> rfl
  rw [← text, ← nesting]
  exact (failureSchema_wellNamed formats).record_settles
    (failurePieces accepted f faithful) ordered built depth

/-! ## Statuses -/

theorem statusSchema_wellNamed (formats : List DateFormat) : (statusSchema formats).WellNamed where
  named field := by cases field <;> rfl
  nodup := (by decide : [StatusField.runAt, .queue, .payload, .paused].Nodup)

/-- The fields of a status that are written. -/
def statusPieces {formats : List DateFormat} (accepted : .iso ∈ formats) (status : WorkerStatus)
    (faithful : status.Faithful) : List (statusSchema formats).Piece :=
  [{ field := .runAt, content := status.runAt.readBack, text := writeDate status.runAt, nesting := 0
     settles := flat (date_settles accepted faithful.runAt) },
    { field := .queue, content := status.queue, text := writeString status.queue, nesting := 0
      settles := flat (string_settles _ _) },
    { field := .payload, content := status.payload, text := writeJob status.payload
      nesting := (jobDocument status.payload).nesting, settles := job_settles faithful.payload },
    { field := .paused, content := some status.paused, text := writeBool status.paused, nesting := 0
      settles := flat ((bool_settles _ status.paused).optional
        (by cases status.paused <;> simp [writeBool])) }]

theorem status_settles {formats : List DateFormat} (accepted : .iso ∈ formats) {s : WorkerStatus}
    (faithful : s.Faithful) (depth : Nat) :
    Settles (status formats depth) (writeStatus s) (depth < (statusDocument s).nesting) s.readBack := by
  have built : buildStatus formats ((statusPieces accepted s faithful).map Schema.Piece.entry) =
      .ok s.readBack := rfl
  exact (statusSchema_wellNamed formats).record_settles _ (List.Sublist.refl _) built depth

end Record

end JobQueue
