import JobQueue.Proofs.Codec
import JobQueue.Proofs.Json.Confined

/-! # Where the text of a record ends

The text of a record says itself where it ends: spaces around it make no difference, nothing else may stand
behind it, and none of it that is not a space may be left out at its end. So of two texts of records none is
the other with more behind it, but for spaces.
-/

namespace JobQueue

open Json

namespace Record

theorem closed_date (formats : List DateFormat) : Closed (date formats).run := (closed_string _).judge

theorem closed_values (depth : Nat) : Closed (values depth).run := closed_list _ peeking_value depth

theorem closed_job (depth : Nat) : Closed (job depth).run := by
  refine Schema.closed_record (fun field depth => ?_) _ _ depth
  cases field with
  | className => exact (closed_string _).peeking
  | args => exact (closed_values depth).peeking
  | vars => exact (closed_optional (closed_dict _ depth)).peeking

theorem closed_descriptor (depth : Nat) : Closed (descriptor depth).run := by
  refine Schema.closed_record (fun field depth => ?_) _ _ depth
  cases field with
  | className => exact (closed_string _).peeking
  | args => exact (closed_values depth).peeking

theorem closed_failure (formats : List DateFormat) (depth : Nat) : Closed (failure formats depth).run := by
  refine Schema.closed_record (fun field depth => ?_) _ _ depth
  have text : Closed (string "a string").run := closed_string _
  cases field with
  | worker => exact text.peeking
  | queue | exception | error => exact (closed_optional text).peeking
  | payload => exact (closed_job depth).peeking
  | backtrace => exact (closed_optional (closed_list _ (fun _ => text.peeking) depth)).peeking
  | failedAt => exact (closed_date formats).peeking
  | retriedAt => exact (closed_optional (closed_date formats)).peeking

theorem closed_status (formats : List DateFormat) (depth : Nat) : Closed (status formats depth).run := by
  refine Schema.closed_record (fun field depth => ?_) _ _ depth
  cases field with
  | runAt => exact (closed_date formats).peeking
  | queue => exact (closed_string _).peeking
  | payload => exact (closed_job depth).peeking
  | paused => exact (closed_optional (closed_bool _)).peeking

end Record

namespace Codec

/-- A decoder that finds the end of a record in the text of the record. -/
structure SelfDelimiting {ε α : Type} (decode : String → Except ε α) : Prop where
  /-- Spaces around a record make no difference. -/
  padded {text : String} {record : α} (accepted : decode text = .ok record) {before behind : String}
    (space : Blank before.toList) (more : Blank behind.toList) :
    decode (before ++ text ++ behind) = .ok record
  /-- Nothing but spaces may stand behind a record. -/
  extended {text : String} {record : α} (accepted : decode text = .ok record) {behind : String}
    (visible : ¬ Blank behind.toList) : ∃ cause, decode (text ++ behind) = .error cause
  /-- Nothing but spaces may be left out at its end. -/
  truncated {text dropped : String} {record : α} (accepted : decode (text ++ dropped) = .ok record)
    (visible : ¬ Blank dropped.toList) : ∃ cause, decode text = .error cause

/-- What can be left out at the end of a record could stand behind what is left. -/
theorem SelfDelimiting.of_extended {ε α : Type} {decode : String → Except ε α}
    (padded : ∀ {text record}, decode text = .ok record → ∀ {before behind : String},
      Blank before.toList → Blank behind.toList → decode (before ++ text ++ behind) = .ok record)
    (extended : ∀ {text record}, decode text = .ok record → ∀ {behind : String},
      ¬ Blank behind.toList → ∃ cause, decode (text ++ behind) = .error cause) :
    SelfDelimiting decode where
  padded accepted _ _ := padded accepted
  extended accepted _ := extended accepted
  truncated {text dropped record} accepted visible := by
    cases shorter : decode text with
    | error cause => exact ⟨cause, rfl⟩
    | ok other =>
      obtain ⟨cause, refused⟩ := extended shorter visible
      rw [accepted] at refused
      contradiction

theorem requireEnd_eq_ok_iff {rest : List Char} : requireEnd rest = .ok () ↔ Blank rest := by
  unfold requireEnd
  split
  · next none =>
    refine iff_of_true rfl fun c member => ?_
    have whole : rest.takeWhile isSpace ++ skipSpace rest = rest := List.takeWhile_append_dropWhile
    rw [none, List.append_nil] at whole
    rw [← whole] at member
    exact List.all_eq_true.mp List.all_takeWhile c member
  · next some =>
    refine iff_of_false nofun fun blank => some ?_
    exact skipSpace_eq_nil blank

section Reading

variable {α : Type} {kind : RecordKind} {reader : Nat → Reader α} {text : String} {record : α}

/-- A record is accepted if its reader leaves nothing but spaces. -/
theorem decodeWith_eq_ok_iff : decodeWith kind reader text = .ok record ↔
    ∃ rest, (reader depthLimit).run text.toList = .ok (record, rest) ∧ Blank rest := by
  unfold decodeWith readAll
  cases (reader depthLimit).run text.toList with
  | error fault => exact iff_of_false nofun nofun
  | ok pair =>
    obtain ⟨found, rest⟩ := pair
    dsimp only
    cases ended : requireEnd rest with
    | error fault =>
      refine iff_of_false nofun ?_
      rintro ⟨_, same, blank⟩
      cases same
      rw [requireEnd_eq_ok_iff.mpr blank] at ended
      contradiction
    | ok end_ =>
      have blank := requireEnd_eq_ok_iff.mp ended
      constructor
      · intro same
        cases same
        exact ⟨rest, rfl, blank⟩
      · rintro ⟨_, same, -⟩
        cases same
        rfl

/-- A reader that is closed and skips spaces in front decodes records that delimit themselves. -/
theorem selfDelimiting_decodeWith (closed : Closed (reader depthLimit).run)
    (skips : ∀ {space : List Char}, Blank space → ∀ text,
      (reader depthLimit).run (space ++ text) = (reader depthLimit).run text) :
    SelfDelimiting (decodeWith kind reader) := by
  have longer {text : String} {record : α} (accepted : decodeWith kind reader text = .ok record) :
      ∃ rest, Blank rest ∧ ∀ more,
        (reader depthLimit).run (text.toList ++ more) = .ok (record, rest ++ more) := by
    obtain ⟨rest, read, blank⟩ := decodeWith_eq_ok_iff.mp accepted
    obtain ⟨taken, whole, same⟩ := closed read
    refine ⟨rest, blank, fun more => ?_⟩
    rw [whole, List.append_assoc]
    exact same _ False.elim
  refine .of_extended (fun {text record} accepted {before behind} space more => ?_)
    fun {text record} accepted {behind} visible => ?_
  · obtain ⟨rest, blank, read⟩ := longer accepted
    refine decodeWith_eq_ok_iff.mpr ⟨rest ++ behind.toList, ?_, fun c member => ?_⟩
    · rw [String.toList_append, String.toList_append, List.append_assoc, skips space, read]
    · exact (List.mem_append.mp member).elim (blank c) (more c)
  · obtain ⟨rest, -, read⟩ := longer accepted
    cases decoded : decodeWith kind reader (text ++ behind) with
    | error cause => exact ⟨cause, rfl⟩
    | ok other =>
      obtain ⟨left, again, blank⟩ := decodeWith_eq_ok_iff.mp decoded
      rw [String.toList_append, read] at again
      cases again
      exact absurd (fun c member => blank c (List.mem_append_right rest member)) visible

/-- Spaces in front of a record are skipped. -/
theorem run_record_blank (schema : Schema) (expected : String) (build : List schema.Entry → Except Cause α)
    (depth : Nat) {space : List Char} (blank : Blank space) (text : List Char) :
    (schema.record expected build depth).run (space ++ text) =
      (schema.record expected build depth).run text := by
  simp only [Schema.record, Schema.entries, Reader.judge, Reader.start, skipSpace_blank blank]

end Reading

theorem decodeCommand_of_error {codec : Codec} {text : String} {cause : CodecError}
    (refused : decodeDescriptor text = .error cause) : codec.decodeCommand text = .error cause := by
  rw [decodeCommand, refused]

theorem decodeCommand_of_ok {codec : Codec} {text : String} {descriptor : Job}
    (decoded : decodeDescriptor text = .ok descriptor) :
    codec.decodeCommand text = (codec.commands.resolve descriptor).mapError .resolve := by
  rw [decodeCommand, decoded]
  dsimp only
  cases codec.commands.resolve descriptor <;> rfl

/-- A command delimits itself because its descriptor does. -/
theorem SelfDelimiting.command {codec : Codec} (delimits : SelfDelimiting decodeDescriptor) :
    SelfDelimiting codec.decodeCommand := by
  have descriptor {text : String} {command : AdminCommand}
      (accepted : codec.decodeCommand text = .ok command) :
      ∃ descriptor, decodeDescriptor text = .ok descriptor := by
    cases decoded : decodeDescriptor text with
    | ok descriptor => exact ⟨descriptor, rfl⟩
    | error cause =>
      rw [decodeCommand_of_error decoded] at accepted
      contradiction
  refine .of_extended (fun accepted _ _ space more => ?_) fun accepted _ visible => ?_
  · obtain ⟨found, decoded⟩ := descriptor accepted
    rw [decodeCommand_of_ok (delimits.padded decoded space more), ← decodeCommand_of_ok decoded]
    exact accepted
  · obtain ⟨found, decoded⟩ := descriptor accepted
    obtain ⟨cause, refused⟩ := delimits.extended decoded visible
    exact ⟨cause, decodeCommand_of_error refused⟩

/-- The texts of jobs, command descriptors and commands, failures and statuses delimit themselves. -/
theorem decodes_selfDelimiting (codec : Codec) :
    SelfDelimiting decodeJob ∧ SelfDelimiting decodeDescriptor ∧ SelfDelimiting codec.decodeCommand ∧
      SelfDelimiting codec.decodeFailure ∧ SelfDelimiting codec.decodeStatus := by
  have descriptor : SelfDelimiting decodeDescriptor :=
    selfDelimiting_decodeWith (Record.closed_descriptor depthLimit) (run_record_blank _ _ _ depthLimit)
  exact ⟨selfDelimiting_decodeWith (Record.closed_job depthLimit) (run_record_blank _ _ _ depthLimit),
    descriptor, descriptor.command,
    selfDelimiting_decodeWith (Record.closed_failure _ depthLimit) (run_record_blank _ _ _ depthLimit),
    selfDelimiting_decodeWith (Record.closed_status _ depthLimit) (run_record_blank _ _ _ depthLimit)⟩

/-- A job whose text ends with a bracket and a brace. -/
def plainJob : Job where
  className := "A"
  args := [.int 1]

/-- The text of that job with spaces around it is accepted, and with a letter behind it refused. -/
theorem decodes_selfDelimiting_plainJob :
    decodeJob (" " ++ encodeJob plainJob ++ "\n") = .ok plainJob ∧
      ∃ cause, decodeJob (encodeJob plainJob ++ " x") = .error cause := by
  have faithful : plainJob.Faithful := ⟨⟨trivial, trivial⟩, nofun⟩
  have accepted : decodeJob (encodeJob plainJob) = .ok plainJob :=
    (decodesTo_of_settles (Record.writeValue_jobDocument plainJob)
      fun depth => Record.job_settles faithful depth).decoded (by decide)
  obtain ⟨delimits, -⟩ := decodes_selfDelimiting {}
  exact ⟨delimits.padded accepted (by decide) (by decide), delimits.extended accepted (by decide)⟩

end Codec

end JobQueue
