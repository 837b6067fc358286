import JobQueue.Codec
import JobQueue.Proofs.Record

/-! # The codec reads back what it writes

Whatever record is encoded, decoding the text gives the record again, with the dates that its texts denote. A
date that counts its fraction on past the second is written as the next second wherever a minute has one, so
such a date does not come back; all others do, to the millisecond. Texts that nest deeper than a reader
follows are refused for their depth.
-/

namespace JobQueue.Codec

open Json

/-- A text that is one record as written: a document, which is decoded, or refused only for its depth. -/
structure DecodesTo {α : Type} (record : RecordKind) (decode : String → Except CodecError α) (text : String)
    (document : Value) (a : α) : Prop where
  written : text = String.ofList (writeValue document)
  decoded : document.nesting ≤ depthLimit → decode text = .ok a
  refused : depthLimit < document.nesting →
    ∃ fault, decode text = .error (.decode record fault text.toList) ∧ fault.cause = .tooDeep

/-- What is settled for a reader is settled for the decoder made of it. -/
theorem decodesTo_of_settles {α : Type} {record : RecordKind} {reader : Nat → Reader α} {text : List Char}
    {document : Value} {a : α} (written : writeValue document = text)
    (settled : ∀ depth, Settles (reader depth) text (depth < document.nesting) a) :
    DecodesTo record (decodeWith record reader) (String.ofList text) document a := by
  obtain ⟨reads, refuses⟩ := (settled depthLimit).readAll
  refine ⟨congrArg String.ofList written.symm, ?_, ?_⟩
  · intro shallow
    rw [decodeWith, String.toList_ofList, reads (Nat.not_lt_of_le shallow)]
  · intro deep
    obtain ⟨left, refused⟩ := refuses deep
    refine ⟨⟨.tooDeep, left⟩, ?_, rfl⟩
    rw [decodeWith, String.toList_ofList, refused]

/-- Jobs, failures and statuses survive encoding and decoding, with the dates that their texts denote, exactly
if their texts nest no deeper than a reader follows. -/
theorem decode_encode (codec : Codec) (accepted : .iso ∈ codec.formats) :
    (∀ job : Job, job.Faithful →
      DecodesTo .job decodeJob (encodeJob job) (Record.jobDocument job) job) ∧
    (∀ failure : JobFailure, failure.Faithful →
      DecodesTo .failure codec.decodeFailure (encodeFailure failure) (Record.failureDocument failure)
        failure.readBack) ∧
    (∀ status : WorkerStatus, status.Faithful →
      DecodesTo .status codec.decodeStatus (encodeStatus status) (Record.statusDocument status)
        status.readBack) := by
  refine ⟨?_, ?_, ?_⟩
  · intro job faithful
    exact decodesTo_of_settles (Record.writeValue_jobDocument job)
      fun depth => Record.job_settles faithful depth
  · intro failure faithful
    exact decodesTo_of_settles (Record.writeValue_failureDocument failure)
      fun depth => Record.failure_settles accepted faithful depth
  · intro status faithful
    exact decodesTo_of_settles (Record.writeValue_statusDocument status)
      fun depth => Record.status_settles accepted faithful depth

/-- A failure with every kind of value, an accent, a quote, a date between two milliseconds and a leap
second. -/
def sampleFailure : JobFailure where
  worker := "host:1:é"
  queue := some "mail"
  payload := {
    className := "Send"
    args := [.null, .bool true, .int (-7), .float ⟨false, 0x3fe0000000000000, by decide⟩, .string "\"",
      .array [.object [("b", .int 1), ("a", .array [])]]]
    vars := some [("z", .null), ("y", .int 2)] }
  exception := "E"
  error := "line\nbreak"
  backtrace := ["a.rb:1"]
  failedAt := ⟨1362709565, 234567891⟩
  retriedAt := some ⟨1341100799, 1500000000⟩

theorem sampleFailure_faithful : sampleFailure.Faithful where
  payload := {
    args := ⟨trivial, trivial, trivial, (by decide +kernel : Value.ReadsBack _), trivial,
      ⟨⟨⟨trivial, trivial, trivial⟩, by decide⟩, trivial⟩, trivial⟩
    vars := by
      intro vars some
      cases some
      exact ⟨⟨trivial, trivial, trivial⟩, by decide⟩ }
  failedAt := ⟨⟨by decide, by decide⟩, by decide, by decide⟩
  retriedAt := by
    intro instant some
    cases some
    exact ⟨⟨by decide, by decide⟩, by decide, by decide⟩

theorem decode_encode_sampleFailure :
    decodeFailure {} (encodeFailure sampleFailure) =
      .ok { sampleFailure with failedAt := ⟨1362709565, 234000000⟩ } :=
  ((decode_encode {} (by decide)).2.1 sampleFailure sampleFailure_faithful).decoded (by decide)

/-- A status with a date in the middle of a minute that counts its fraction on past the second. -/
def overrunStatus : WorkerStatus where
  runAt := ⟨1362709565, 1500000000⟩
  queue := "q"
  payload := { className := "Boom" }
  paused := false

/-- It is not read back, whether to the millisecond or not, but as a status of the next second. One that starts
on the second is not read either by a codec that lacks the format in which dates are written. -/
theorem decodeStatus_encodeStatus_overrunStatus :
    let onTime : WorkerStatus := { overrunStatus with runAt := ⟨1362709565, 0⟩ }
    (overrunStatus.Faithful ∧ (Record.statusDocument overrunStatus).nesting ≤ depthLimit ∧
      overrunStatus.runAt.year = 2013 ∧
      decodeStatus {} (encodeStatus overrunStatus) =
        .ok { overrunStatus with runAt := ⟨1362709566, 500000000⟩ } ∧
      decodeStatus {} (encodeStatus overrunStatus) ≠
        .ok { overrunStatus with runAt := overrunStatus.runAt.truncated }) ∧
    onTime.Faithful ∧ (Record.statusDocument onTime).nesting ≤ depthLimit ∧
      (decodeStatus { formats := [.weekday] } (encodeStatus onTime)).toOption = none := by
  intro onTime
  have faithful {instant : Instant} (canonical : instant.Canonical) :
      WorkerStatus.Faithful { overrunStatus with runAt := instant } := ⟨canonical, trivial, nofun⟩
  have overrun : overrunStatus.Faithful := faithful ⟨⟨by decide, by decide⟩, by decide, by decide⟩
  have shallow : (Record.statusDocument overrunStatus).nesting ≤ depthLimit := by decide
  have decodes : DecodesTo .status (decodeStatus {}) (encodeStatus overrunStatus)
      (Record.statusDocument overrunStatus) overrunStatus.readBack :=
    decodesTo_of_settles (Record.writeValue_statusDocument overrunStatus)
      fun depth => Record.status_settles (by decide) overrun depth
  have decoded : decodeStatus {} (encodeStatus overrunStatus) =
      .ok { overrunStatus with runAt := ⟨1362709566, 500000000⟩ } := decodes.decoded shallow
  refine ⟨⟨overrun, shallow, by decide, decoded, ?_⟩, ?_, by decide, by decide +kernel⟩
  · rw [decoded]
    intro same
    have later := congrArg WorkerStatus.runAt (Except.ok.inj same)
    exact absurd later (by decide)
  · exact faithful ⟨⟨by decide, by decide⟩, by decide, by decide⟩

end JobQueue.Codec
